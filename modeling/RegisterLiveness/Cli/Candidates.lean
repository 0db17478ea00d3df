import RegisterLiveness.Cli.Command

/-!
# Completion candidates

What the hidden command `__complete` answers a completion script: the words a partial command
line may go on with. The last word of the request is the one being typed, possibly empty; the
words before it name a command and its flags.

* After a flag that takes a value, or in `--flag=` being typed, the value is being typed; no
  flag here offers values, so nothing is offered.
* A word starting with `-` is a flag name being typed: the flags of the command not given yet
  whose names start with it, the inherited ones first, each group in the order of the names.
* Otherwise, when no argument is given yet, the child commands whose names start with the word
  (the root offering `help` too); `help` offers the commands below the one its arguments name,
  and the commands of `completion` offer nothing more.

Each candidate is followed by a tab and its description. The answer ends with a directive, a
number whose bits tell the shell what to do besides: 4 asks it not to offer file names. A
command line that names no command, or whose flags do not read, is an error, reported on the
error stream.
-/

namespace RegisterLiveness

namespace Cli

/-- The answer to a completion request: the candidates with their descriptions, the directive,
and the error met, if any. -/
structure Answer where
  candidates : List String := []
  directive : Nat := 0
  error : Option String := none
  deriving Repr, Inhabited

/-- The names of the bits of a directive, in order. -/
def directiveNames : List (Nat × String) :=
  [(1, "ShellCompDirectiveError"), (2, "ShellCompDirectiveNoSpace"),
   (4, "ShellCompDirectiveNoFileComp"), (8, "ShellCompDirectiveFilterFileExt"),
   (16, "ShellCompDirectiveFilterDirs"), (32, "ShellCompDirectiveKeepOrder")]

/-- How a directive is named: the names of its bits, or the default when it has none. -/
def describeDirective (d : Nat) : String :=
  if d ≥ 64 then s!"ERROR: unexpected ShellCompDirective value: {d}"
  else
    match directiveNames.filter fun (bit, _) => d / bit % 2 = 1 with
    | [] => "ShellCompDirectiveDefault"
    | named => ", ".intercalate (named.map (·.2))

/-- A list of words as errors show it: between brackets, separated by spaces. -/
def wordList (words : List String) : String := "[" ++ " ".intercalate words ++ "]"

/-- Whether a word is a flag: `--` and at least one character, or `-` and a character other
than `-`. -/
def isFlagWord (s : String) : Bool :=
  match s.toList with
  | '-' :: '-' :: _ :: _ => true
  | '-' :: c :: _ => c ≠ '-'
  | _ => false

/-- The flag of command `c` with the given name, or shorthand when the name is one character. -/
def Command.flagNamed? (c : Command) (name : String) : Option FlagSpec :=
  match name.toList with
  | [x] => if x.toNat < 128 then c.flags.find? (·.shorthand == some x) else c.flags.find? (·.name == name)
  | _ => c.flags.find? (·.name == name)

/-- The name in a flag word: after `--`, or the last byte of a group of shorthands. -/
def flagWordName (s : String) : String :=
  if s.startsWith "--" then String.ofList (s.toList.drop 2)
  else Text.lastByte s

/-- The error of a flag that command `c` does not have. -/
def unsupportedFlag (c : Command) (name : String) : String :=
  "Subcommand '" ++ c.name ++ "' does not support flag '" ++ name ++ "'"

/-- Whether a value is being typed: the flag that takes it, the arguments left for the command,
and the text typed; or no flag, the arguments and the word typed. A value is typed after `=` in
a word being typed that starts with `-`, or, when that names no flag, in the word after a flag
without `=`, which then leaves the arguments. A boolean flag takes no word after it. A flag the
command does not have is an error, returned with the arguments and the word as they are. -/
def valueBeingTyped (c : Command) (args : List String) (typed : String) :
    Option FlagSpec × List String × String × Option String :=
  let withEqual := typed.startsWith "-" ∧ typed.contains '='
  if typed.startsWith "-" ∧ !typed.contains '=' then (none, args, typed, none)
  else
    let (name, value) :=
      if withEqual then
        let before := String.ofList (typed.toList.takeWhile (· ≠ '='))
        (flagWordName before, String.ofList ((typed.toList.dropWhile (· ≠ '=')).drop 1))
      else ("", typed)
    let (name, left) :=
      if name.isEmpty then
        match args.getLast? with
        | some prev =>
          if isFlagWord prev ∧ !prev.contains '=' then (flagWordName prev, args.dropLast)
          else ("", args)
        | none => ("", args)
      else (name, args)
    if name.isEmpty then (none, left, value, none)
    else match c.flagNamed? name with
      | none => (none, args, typed, some (unsupportedFlag c name))
      | some f =>
        if !withEqual ∧ f.boolean then (none, args, value, none) else (some f, left, value, none)

/-- The candidates a flag offers for its name being typed: its long form, then its shorthand,
those that start with the text typed. -/
def flagNameCandidates (typed : String) (f : FlagSpec) : List String :=
  let long := "--" ++ f.name
  let short := f.shorthand.map fun x => "-" ++ String.singleton x
  (if long.startsWith typed then [long ++ "\t" ++ f.usage] else []) ++
    match short with
    | some s => if s.startsWith typed then [s ++ "\t" ++ f.usage] else []
    | none => []

/-- Flags in the order of their names. -/
def sortFlags (fs : List FlagSpec) : List FlagSpec := fs.mergeSort fun a b => a.name ≤ b.name

/-- The commands a command offers below it: those listed, and `help` below the root, in the
order of their names. -/
def Command.offered (c : Command) : List Command :=
  (c.children.filter fun d => d.listed ∨ (c = .root ∧ d = .help)).mergeSort fun a b => a.name ≤ b.name

/-- The candidates of the commands below `c` whose names start with `typed`. -/
def Command.childCandidates (c : Command) (typed : String) : List String :=
  (c.offered.filter (·.name.startsWith typed)).map fun d => d.name ++ "\t" ++ d.short

/-- What a command offers for its arguments, with the directive, if it offers anything: `help`
the commands below the one its arguments name, the commands of `completion` nothing. -/
def Command.argumentCandidates (c : Command) (args : List String) (typed : String) :
    Option (List String × Nat) :=
  match c with
  | .help =>
    match Command.find args with
    | .ok (target, _) => some (target.childCandidates typed, 4)
    | .error _ => some ([], 4)
  | .completion | .shell _ => some ([], 4)
  | _ => none

/-- The answer to a completion request for the words `request`, the last one being typed. -/
def completionAnswer (request : List String) : Answer :=
  let typed := request.getLast?.getD ""
  let before := request.dropLast
  match Command.find before with
  | .error _ => { error := some ("unable to find a command for arguments: " ++ wordList before) }
  | .ok (c, args) =>
    let (flag, args, typed, flagError) := valueBeingTyped c args typed
    match parse c.flags args with
    | .error m => { error := some ("Error while parsing flags from args " ++ wordList args ++ ": " ++ m) }
    | .ok p =>
      -- after an earlier `--` every word is an argument, and no flag is being typed
      let ended := match parse c.flags (args ++ ["--"]) with
        | .ok q => q.args.length > p.args.length
        | .error _ => false
      let flagsOpen := !ended
      match flagError with
      | some e => if flagsOpen then { error := some e } else answerFor c p flag typed flagsOpen
      | none => answerFor c p flag typed flagsOpen
where
  /-- The answer once the flags of the command line have been read into `p`. -/
  answerFor (c : Command) (p : Parsed) (flag : Option FlagSpec) (typed : String) (flagsOpen : Bool) :
      Answer :=
    if (p.get? "help").isSome then { directive := 4 }
    else if flag.isNone ∧ typed.startsWith "-" ∧ !typed.contains '=' ∧ flagsOpen then
      let open_ := (sortFlags c.inheritedFlags ++ sortFlags (c.helpFlag :: c.ownFlags)).filter
        fun f => (p.get? f.name).isNone
      let cands := open_.flatMap (flagNameCandidates typed)
      let noSpace := cands.length = 1 ∧ cands.all (·.endsWith "=")
      { candidates := cands, directive := if noSpace then 2 else 4 }
    else
      let (children, directive) :=
        if flag.isNone ∧ p.args.isEmpty then
          (c.childCandidates typed, if c.offered.isEmpty then 0 else 4)
        else ([], 0)
      let own := if flag.isSome ∧ flagsOpen then none else c.argumentCandidates p.args typed
      match own with
      | some (more, d) => { candidates := children ++ more, directive := d }
      | none => { candidates := children, directive := directive }

/-- What the hidden completion command writes on its output and error streams for the words
`request`, with the descriptions of the candidates or without: a candidate a line, cut at its
first line break and trimmed, then the directive after a colon; on the error stream, the error
met and the name of the directive. -/
def completionOutput (descriptions : Bool) (request : List String) : String × String :=
  let a := completionAnswer request
  let shown (cand : String) : String :=
    let cand := if descriptions then cand else (cand.splitOn "\t").headD ""
    let cand := (cand.splitOn "\n").headD ""
    String.ofList ((cand.toList.dropWhile Char.isWhitespace).reverse.dropWhile Char.isWhitespace).reverse
  let d := a.directive
  let errorLine := match a.error with
    | some e => "[Debug] [Error] " ++ e ++ "\n"
    | none => ""
  (String.join (a.candidates.map fun cand => shown cand ++ "\n") ++ s!":{d}\n",
    errorLine ++ "Completion ended with directive: " ++ describeDirective d ++ "\n")

end Cli

end RegisterLiveness
