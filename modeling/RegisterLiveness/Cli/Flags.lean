import RegisterLiveness.Text.Quoted

/-!
# Command-line flags

A flag is written `--name value`, `--name=value`, or, for a flag with a one-letter shorthand,
`-x value`, `-xvalue` or `-x=value`; a boolean flag needs no value (`--help`, `-h`) but may be
given one after `=`. Several boolean shorthands may share one dash. Flags and arguments may be
interleaved; `--` ends the flags, and a lone `-` is an argument.

`parse` reads a command line against a set of flag specifications and returns the values given,
in order, and the arguments that are no flags, or the first problem met. `usages` lays the
specifications out for a help text, one per line, usage texts aligned.
-/

namespace RegisterLiveness

namespace Cli

/-- The specification of a flag. -/
structure FlagSpec where
  name : String
  shorthand : Option Char := none
  /-- Whether the flag is boolean, and so needs no value. -/
  boolean : Bool := false
  usage : String
  /-- The value of the flag when it is not given. -/
  default : String := ""
  deriving Repr, Inhabited

namespace FlagSpec

/-- How problems name the flag: with its shorthand if it has one. -/
def title (f : FlagSpec) : String :=
  match f.shorthand with
  | some c => "-" ++ String.singleton c ++ ", --" ++ f.name
  | none => "--" ++ f.name

/-- Whether the default value is the zero value of the flag's type, which help texts omit. -/
def defaultIsZero (f : FlagSpec) : Bool :=
  if f.boolean then f.default = "false" else f.default.isEmpty

end FlagSpec

/-- The flags given on a command line, in order, and the arguments that are no flags. -/
structure Parsed where
  values : List (String × String) := []
  args : List String := []
  deriving Repr, Inhabited

/-- The last value given to flag `name`, if any. -/
def Parsed.get? (p : Parsed) (name : String) : Option String :=
  (p.values.reverse.find? (·.1 == name)).map (·.2)

/-- The truth value a boolean flag's text denotes. -/
def readBool (s : String) : Option Bool :=
  if s ∈ ["1", "t", "T", "TRUE", "true", "True"] then some true
  else if s ∈ ["0", "f", "F", "FALSE", "false", "False"] then some false
  else none

/-- Give `value` to flag `f`, checking a boolean flag's value. -/
def assign (p : Parsed) (f : FlagSpec) (value : String) : Except String Parsed :=
  if f.boolean ∧ (readBool value).isNone then
    .error ("invalid argument " ++ Text.quote value ++ " for " ++ Text.quote f.title ++
      " flag: strconv.ParseBool: parsing " ++ Text.quote value ++ ": invalid syntax")
  else .ok { p with values := p.values ++ [(f.name, value)] }

/-- The character a problem shows for the shorthand `c`. Shorthands are read byte by byte, so
a character beyond ASCII shows as the character numbered by the first byte of its encoding. -/
def shownShorthand (c : Char) : Char :=
  match (String.singleton c).toUTF8.toList with
  | b :: _ => Char.ofNat b.toNat
  | [] => c

/-- Read the shorthand flags in `shorthands`, the text after a single dash, taking a value from
`rest` if the last one needs it; the arguments left. -/
def parseShorthands (specs : List FlagSpec) (rest : List String) :
    (shorthands : List Char) → Parsed → Except String (Parsed × List String)
  | [], p => .ok (p, rest)
  | c :: more, p =>
    if "test.".toList.isPrefixOf (c :: more) then .ok (p, rest)
    else
      let shown := String.ofList (c :: more)
      match specs.find? (·.shorthand == some c) with
      | none => .error ("unknown shorthand flag: " ++ Text.quoteRune (shownShorthand c) ++ " in -" ++ shown)
      | some f =>
        match more with
        | '=' :: value@(_ :: _) => do
          let p ← assign p f (String.ofList value)
          .ok (p, rest)
        | _ =>
          if f.boolean then do
            let p ← assign p f "true"
            parseShorthands specs rest more p
          else if !more.isEmpty then do
            let p ← assign p f (String.ofList more)
            .ok (p, rest)
          else match rest with
            | v :: rest' => do
              let p ← assign p f v
              .ok (p, rest')
            | [] => .error ("flag needs an argument: " ++ Text.quoteRune (shownShorthand c) ++ " in -" ++ shown)

/-- Read the flags of `args` against the specifications `specs`, each step consuming at least
one argument, at most `fuel` steps. -/
def parseWith (specs : List FlagSpec) : (fuel : Nat) → (args : List String) → Parsed →
    Except String Parsed
  | 0, _, p => .ok p
  | _, [], p => .ok p
  | fuel + 1, s :: rest, p =>
    match s.toList with
    | '-' :: '-' :: [] => .ok { p with args := p.args ++ rest }
    | '-' :: '-' :: name =>
      if name.head? = some '-' ∨ name.head? = some '=' then .error ("bad flag syntax: " ++ s)
      else
        let key := String.ofList (name.takeWhile (· ≠ '='))
        let inline :=
          if name.contains '=' then some (String.ofList ((name.dropWhile (· ≠ '=')).drop 1)) else none
        match specs.find? (·.name == key) with
        | none => .error ("unknown flag: --" ++ key)
        | some f =>
          match inline with
          | some v => do parseWith specs fuel rest (← assign p f v)
          | none =>
            if f.boolean then do parseWith specs fuel rest (← assign p f "true")
            else match rest with
              | v :: rest' => do parseWith specs fuel rest' (← assign p f v)
              | [] => .error ("flag needs an argument: " ++ s)
    | '-' :: c :: more => do
      let (p, rest') ← parseShorthands specs rest (c :: more) p
      parseWith specs fuel rest' p
    | _ => parseWith specs fuel rest { p with args := p.args ++ [s] }

/-- Read a command line against the flag specifications `specs`. -/
def parse (specs : List FlagSpec) (args : List String) : Except String Parsed :=
  parseWith specs (args.length + 1) args {}

/-- The line of a flag in a help text before its usage, and the usage with its default. -/
def FlagSpec.usageParts (f : FlagSpec) : String × String :=
  let lead := match f.shorthand with
    | some c => "  -" ++ String.singleton c ++ ", --" ++ f.name
    | none => "      --" ++ f.name
  let lead := if f.boolean then lead else lead ++ " string"
  let usage := if f.defaultIsZero then f.usage else f.usage ++ " (default " ++ Text.quote f.default ++ ")"
  (lead, usage)

/-- The flags of a help text, sorted by name, one per line, usage texts aligned three columns
after the longest flag. -/
def usages (specs : List FlagSpec) : String :=
  let parts := (specs.mergeSort fun a b => a.name ≤ b.name).map FlagSpec.usageParts
  let width := (parts.map fun (l, _) => l.length).foldl max 0
  "\n".intercalate (parts.map fun (l, u) =>
    l ++ String.ofList (List.replicate (width - l.length + 3) ' ') ++ u)

end Cli

end RegisterLiveness
