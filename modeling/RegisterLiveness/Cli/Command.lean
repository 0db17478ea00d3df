import RegisterLiveness.Cli.Flags
import RegisterLiveness.Cli.Completion

/-!
# Commands of the command line

The command line of `regflow` has a root command, which only groups the others, and the commands
`analyze` and `dot`, which take one program file each; `help` prints the help of any command, and
`completion` groups one command per shell.

`Command.find` picks the command a command line names: the words that are neither flags nor flag
values lead from the root down the tree as long as they name a child command. Here a flag is
taken to have a value unless it is known to be boolean, and no command knows its help flag yet,
so `-h` and `--help` swallow the word after them. A word left over at the root is an unknown
command; the refusal suggests the commands within two edits of it, or having it as a prefix.

`Command.helpText` is the help a command prints.
-/

namespace RegisterLiveness

namespace Cli

/-- A command of the command line. -/
inductive Command where
  | root
  | analyze
  | dot
  | help
  | completion
  /-- The completion script of one shell. -/
  | shell (s : Shell)
  deriving Repr, DecidableEq, Inhabited

/-- The flags every command inherits from the root. -/
def persistentFlags : List FlagSpec := [
  { name := "format", usage := "output format (text|json)", default := "text" },
  { name := "log-level", usage := "log level (trace|debug|info|warning|error)", default := "warning" },
  { name := "schedule", usage := "fixpoint schedule (sweep|worklist|scc), defaults to $REGFLOW_SCHEDULE" }]

namespace Command

/-- The name of a command. -/
def name : Command → String
  | .root => "regflow"
  | .analyze => "analyze"
  | .dot => "dot"
  | .help => "help"
  | .completion => "completion"
  | .shell s => s.name

/-- The commands below a command, in the order they were added. -/
def children : Command → List Command
  | .root => [.analyze, .dot, .help, .completion]
  | .completion => Shell.all.map .shell
  | _ => []

/-- The words naming a command from the root. -/
def path : Command → String
  | .root => "regflow"
  | .shell s => "regflow completion " ++ s.name
  | c => "regflow " ++ c.name

/-- Whether a command does something of its own, rather than only grouping others. -/
def runnable : Command → Bool
  | .root | .completion => false
  | _ => true

/-- The one-line description of a command. -/
def short : Command → String
  | .root => "Register liveness for bytecode programs"
  | .analyze => "Print the live operands and kills of every instruction"
  | .dot => "Write the control-flow graph with per-block liveness in Graphviz format"
  | .help => "Help about any command"
  | .completion => "Generate the autocompletion script for the specified shell"
  | .shell s => "Generate the autocompletion script for " ++ s.name

/-- The long description of a command, if it has one. -/
def long : Command → Option String
  | .help => some ("Help provides help for any command in the application.\n" ++
      "Simply type regflow help [path to command] for full details.")
  | .completion => some ("Generate the autocompletion script for regflow for the specified shell.\n" ++
      "See each sub-command's help for details on how to use the generated script.\n")
  | .shell s => some (s.instructions "regflow")
  | _ => none

/-- How a command is invoked, after its name. -/
def useArgs : Command → String
  | .analyze | .dot => " <program.yaml>"
  | .help => " [command]"
  | _ => ""

/-- The help flag of a command. -/
def helpFlag (c : Command) : FlagSpec :=
  { name := "help", shorthand := some 'h', boolean := true, usage := "help for " ++ c.name,
    default := "false" }

/-- The flag of a completion script that leaves the descriptions out. -/
def noDescriptionsFlag : FlagSpec :=
  { name := "no-descriptions", boolean := true, usage := "disable completion descriptions",
    default := "false" }

/-- The flags a command defines itself, besides its help flag. -/
def ownFlags : Command → List FlagSpec
  | .root => persistentFlags
  | .shell _ => [noDescriptionsFlag]
  | _ => []

/-- The flags a command inherits from the root. -/
def inheritedFlags (c : Command) : List FlagSpec := if c = .root then [] else persistentFlags

/-- The flags a command reads: its help flag, its own flags and the flags of the root. -/
def flags (c : Command) : List FlagSpec := c.helpFlag :: c.ownFlags ++ c.inheritedFlags

/-- Whether a command shows in lists of commands: the help command does not, nor a group
without children. -/
def listed (c : Command) : Bool := c ≠ .help ∧ (c.runnable ∨ !c.children.isEmpty)

/-- What the usage line of a runnable command adds after its arguments: the bash completion
script shows no flags there. -/
def flagsMark : Command → String
  | .shell .bash => ""
  | _ => " [flags]"

/-- The child of a command with a given name. -/
def child? (c : Command) (word : String) : Option Command := c.children.find? (·.name == word)

end Command

/-- Whether a word is a flag that takes the next word as its value, judged by the root's flags:
a flag without `=` that is not known to be boolean. -/
def takesValue (s : String) : Bool :=
  if s.startsWith "--" then !s.contains '='
  else s.startsWith "-" ∧ s.utf8ByteSize = 2 ∧ !s.contains '='

/-- The words of a command line that are neither flags nor flag values, up to `--`. -/
def commandWords : List String → List String
  | [] => []
  | s :: rest =>
    if s = "--" then []
    else if takesValue s then
      match rest with
      | [] | [_] => []
      | _ :: rest' => commandWords rest'
    else if s ≠ "" ∧ !s.startsWith "-" then s :: commandWords rest
    else commandWords rest

/-- The command line without the first word `x` that is neither a flag nor a flag value. -/
def withoutWord (x : String) : List String → List String
  | [] => []
  | s :: rest =>
    if s = "--" then s :: rest
    else if takesValue s then
      match rest with
      | [] => [s]
      | v :: rest' => s :: v :: withoutWord x rest'
    else if !s.startsWith "-" ∧ s = x then rest
    else s :: withoutWord x rest

/-- The distance between two words in single-byte edits, ignoring case. -/
def editDistance (a b : String) : Nat :=
  let s := a.toLower.toUTF8.toList
  let t := b.toLower.toUTF8.toList
  let first := List.range (t.length + 1)
  let last := s.zipIdx.foldl (fun (prev : List Nat) (c, i) =>
    let row := t.zipIdx.foldl (fun (row : List Nat) (d, j) =>
      let cost := if c = d then 0 else 1
      let v := min (min (prev.getD (j + 1) 0 + 1) (row.getD j 0 + 1)) (prev.getD j 0 + cost)
      row ++ [v]) [i + 1]
    row) first
  last.getD t.length 0

/-- The commands a mistyped word may have meant. -/
def suggestions (word : String) : List String :=
  (Command.root.children.filter Command.listed).filterMap fun c =>
    if editDistance word c.name ≤ 2 ∨ c.name.toLower.startsWith word.toLower then some c.name
    else none

/-- Why a command line names no command. -/
structure UnknownCommand where
  word : String
  deriving Repr, Inhabited

/-- The message of an unknown command, with the suggestions. -/
def UnknownCommand.message (u : UnknownCommand) : String :=
  let hints := suggestions u.word
  let tail := if hints.isEmpty then "" else
    "\n\nDid you mean this?\n" ++ String.join (hints.map fun h => "\t" ++ h ++ "\n")
  "unknown command " ++ Text.quote u.word ++ " for " ++ Text.quote "regflow" ++ tail

/-- Follow the command words of `args` from `c` down the tree, with the arguments left; `fuel`
bounds the depth. -/
def descend : (fuel : Nat) → Command → List String → Command × List String
  | 0, c, args => (c, args)
  | fuel + 1, c, args =>
    match commandWords args with
    | [] => (c, args)
    | w :: _ =>
      match c.child? w with
      | some d => descend fuel d (withoutWord w args)
      | none => (c, args)

/-- The command a command line names, with the arguments left for it. -/
def Command.find (args : List String) : Except UnknownCommand (Command × List String) :=
  let (c, rest) := descend 3 .root args
  if c = .root then
    match commandWords rest with
    | w :: _ => .error ⟨w⟩
    | [] => .ok (c, rest)
  else .ok (c, rest)

/-- The rows of a list of commands, names padded to eleven columns. -/
def commandRows (cs : List Command) : String :=
  let sorted := cs.mergeSort fun a b => a.name ≤ b.name
  String.join (sorted.map fun c =>
    "\n  " ++ c.name ++ String.ofList (List.replicate (11 - c.name.length) ' ') ++ " " ++ c.short)

/-- The usage text of a command, listing its help flag when `withHelp`: a command learns of its
help flag only when it runs or its help is asked for. -/
def Command.usageWith (c : Command) (withHelp : Bool) : String :=
  let useLine := if c.runnable then "\n  " ++ c.path ++ c.useArgs ++ c.flagsMark else ""
  let groups := !(c.children.filter Command.listed).isEmpty
  let groupLine := if groups then "\n  " ++ c.path ++ " [command]" else ""
  let listing := if groups then
      "\n\nAvailable Commands:" ++ commandRows (c.children.filter fun d => d.listed ∨ d = .help)
    else ""
  let own := (if withHelp then [c.helpFlag] else []) ++ c.ownFlags
  let localPart := if own.isEmpty then "" else "\n\nFlags:\n" ++ usages own
  let globalPart := if c.inheritedFlags.isEmpty then "" else
    "\n\nGlobal Flags:\n" ++ usages c.inheritedFlags
  let more := if groups then
      "\n\nUse " ++ Text.quote (c.path ++ " [command] --help") ++ " for more information about a command."
    else ""
  "Usage:" ++ useLine ++ groupLine ++ listing ++ localPart ++ globalPart ++ more ++ "\n"

/-- The usage text of a command that knows its help flag. -/
def Command.usage (c : Command) : String := c.usageWith true

/-- The help text of a command: its description without trailing blanks, then its usage. -/
def Command.helpText (c : Command) : String :=
  let description := String.ofList ((c.long.getD c.short).toList.reverse.dropWhile Char.isWhitespace).reverse
  description ++ "\n\n" ++ c.usage

end Cli

end RegisterLiveness
