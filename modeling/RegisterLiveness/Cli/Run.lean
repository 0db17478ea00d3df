import RegisterLiveness.Cli.Command
import RegisterLiveness.Cli.Candidates
import RegisterLiveness.Cli.Log
import RegisterLiveness.Cli.Workspace
import RegisterLiveness.ProgramFile.Yaml
import RegisterLiveness.ProgramFile.Toml
import RegisterLiveness.Render.Listing
import RegisterLiveness.Render.Dot
import RegisterLiveness.Machine.Blocks
import RegisterLiveness.Text.Numeral

/-!
# Running the command line

`run w env argv` is what `regflow argv` does in a working directory holding the files of `w`,
with environment `env`: its exit status and what it writes on its two streams.

* The environment sets the defaults of every analysis before anything else: `REGFLOW_SCHEDULE`
  names the default schedule and `REGFLOW_VERIFY`, an unsigned numeral, switches verification
  on when it is not zero. A value that does not read aborts the run (status 2).
* The command line names a command (`Command.find`); a word naming none is refused with a hint.
* The command reads its flags; asking for help, or naming a command that only groups others,
  prints the command's help. Otherwise the arguments are checked, then the log level and the
  output format, then the command does its work.
* `analyze` and `dot` load a program file (TOML if its extension says so, YAML otherwise),
  analyse it with the schedule given or the default one, and print the liveness listing, as
  text or JSON, or the graph with its liveness. The progress of the analysis goes to the error
  stream when the log level lets debug events through.

A refusal prints `Error: ` and its message on the error stream and exits with status 1.
-/

namespace RegisterLiveness

namespace Cli

/-- What a run leaves: its exit status and the texts written on its output and error streams. -/
structure Outcome where
  exit : Nat
  stdout : String := ""
  stderr : String := ""
  deriving Repr, Inhabited, DecidableEq

/-- A run that printed `text` and succeeded. -/
def printed (text : String) : Outcome := { exit := 0, stdout := text }

/-- A run refused with `message`. -/
def refused (message : String) : Outcome := { exit := 1, stderr := "Error: " ++ message ++ "\n" }

/-- A run aborted with `message`. -/
def aborted (message : String) : Outcome := { exit := 2, stderr := "panic: " ++ message ++ "\n" }

/-- Why a command stopped short of its output. -/
inductive Stop where
  | refuse (message : String)
  | abort (message : String)
  deriving Repr, Inhabited

/-- The outcome of a stop, after the error-stream text `log` written before it. -/
def Stop.outcome (log : String) : Stop → Outcome
  | .refuse m => { refused m with stderr := log ++ (refused m).stderr }
  | .abort m => { aborted m with stderr := log ++ (aborted m).stderr }

/-- A failure of the library as a stop: errors are refused, aborts abort. -/
def Stop.ofFailure : Failure → Stop
  | .error e => .refuse e.message
  | .abort a => .abort a.text

/-! ## The environment -/

/-- The value of an environment variable; an empty one counts as unset. -/
def setting? (env : List (String × String)) (key : String) : Option String :=
  match env.lookup key with
  | some "" | none => none
  | some v => some v

/-- The analysis defaults the environment sets, or the message of the abort a bad value causes.
The schedule is read first. -/
def environmentDefaults (env : List (String × String)) : Except String Options := do
  let schedule ← match setting? env "REGFLOW_SCHEDULE" with
    | none => pure Schedule.sweep
    | some s => match Schedule.parse? s with
      | some sch => pure sch
      | none => throw "regflow: invalid value for REGFLOW_SCHEDULE"
  let verify ← match setting? env "REGFLOW_VERIFY" with
    | none => pure false
    | some s => match Numeral.readUnsigned s (Nat.pow 2 64) with
      | none => throw "regflow: invalid value for REGFLOW_VERIFY"
      | some v =>
        if v ≥ Nat.pow 2 63 then throw "regflow: value too small for REGFLOW_VERIFY"
        else pure (v ≠ 0)
  return { schedule := schedule, verify := verify }

/-! ## Loading and analysing -/

/-- Whether a path names a TOML file: its extension, after the last dot of its last component,
is `.toml` up to case. -/
def isTomlPath (path : String) : Bool :=
  let name := ((path.splitOn "/").getLast?).getD ""
  match (name.splitOn ".").getLast? with
  | some ext => name.contains '.' ∧ ext.toLower = "toml"
  | none => false

/-- Load a program file from its path and its content, or the message of the failure to read it. -/
def loadProgram (path : String) (content : Except String String) : Except LoadError LoadedProgram := do
  let text ← match content with
    | .ok t => pure t
    | .error m => throw (.unreadable m)
  let file ← if isTomlPath path then ProgramFile.ofToml text else ProgramFile.ofYaml text
  file.build

/-- The settings of a command line's run: output format, log level and schedule name. -/
structure Session where
  format : String
  level : LogLevel
  schedule : String
  deriving Repr, Inhabited

/-- The analysis settings for a loaded program and a schedule name, empty for the default. -/
def analysisSettings (lp : LoadedProgram) (schedule : String) : Except Stop (List Setting) :=
  let base : List Setting :=
    [.operandCount lp.operands, .alwaysLive (lp.alwaysLive.map Int.ofNat), .logger true]
  if schedule.isEmpty then .ok base
  else match Schedule.parse? schedule with
    | some s => .ok (base ++ [.schedule s.code])
    | none => .error (.refuse ("invalid schedule " ++ Text.quote schedule))

/-- Load, check and analyse the program file at `path`, of content `content`. -/
def analyzeFile (defaults : Options) (s : Session) (path : String) (content : Except String String) :
    Except Stop (Program × Liveness) := do
  let lp ← match loadProgram path content with
    | .ok lp => pure lp
    | .error e => throw (.refuse e.message)
  let g ← match lp.program.toGraph [] with
    | .ok g => pure g
    | .error f => throw (Stop.ofFailure f)
  let settings ← analysisSettings lp s.schedule
  let o ← match Options.configure defaults settings with
    | .ok o => pure o
    | .error a => throw (.abort a.text)
  match Liveness.analyze g.toRaw lp.program.access o with
  | .ok lv => pure (lp.program, lv)
  | .error f => throw (Stop.ofFailure f)

/-- The outcome of a command that analyses the program file at `path`, of content `content`, and
prints `render` of it. -/
def reportOn (defaults : Options) (s : Session) (path : String)
    (render : Program → Liveness → Except Stop String) (content : Except String String) : Outcome :=
  match analyzeFile defaults s path content with
  | .error stop => stop.outcome ""
  | .ok (p, lv) =>
    let log := if s.level.showsDebug then String.join ((analysisEvents lv).map LogEvent.line) else ""
    match render p lv with
    | .ok text => { exit := 0, stdout := text, stderr := log }
    | .error stop => stop.outcome log

/-- The liveness listing of a program, in the session's format. -/
def listingText (s : Session) (p : Program) (lv : Liveness) : Except Stop String :=
  match Listing.ofLiveness p lv with
  | .ok l => .ok (if s.format = "json" then l.toJson else l.toText)
  | .error a => .error (.abort a.text)

/-! ## Commands -/

/-- The formats a listing can be written in. -/
def formats : List String := ["text", "json"]

/-- Check the log level and the output format the flags give. -/
def Session.ofFlags (p : Parsed) : Except String Session := do
  let levelName := (p.get? "log-level").getD "warning"
  let format := (p.get? "format").getD "text"
  let level ← match LogLevel.parse? levelName with
    | some l => pure l
    | none => throw ("not a valid logrus Level: " ++ Text.quote levelName)
  if format ∉ formats then
    throw ("invalid format " ++ Text.quote format ++ ": must be one of [" ++ " ".intercalate formats ++ "]")
  return { format := format, level := level, schedule := (p.get? "schedule").getD "" }

/-- Why the arguments left for a command do not suit it, if they do not. -/
def Command.checkArgs (c : Command) (args : List String) : Option String :=
  match c, args with
  | .analyze, [_] | .dot, [_] => none
  | .analyze, _ | .dot, _ =>
    let n := args.length
    some s!"accepts 1 arg(s), received {n}"
  | .shell _, a :: _ => some ("unknown command " ++ Text.quote a ++ " for " ++ Text.quote c.path)
  | _, _ => none

/-- A backquote. -/
def backquote : Char := Char.ofNat 96

/-- Whether a text can stand between backquotes: no control character but the tab, no
backquote, no DEL and no byte order mark. -/
def backquotable (s : String) : Bool :=
  s.all fun c => (c.toNat ≥ 32 ∨ c = '\t') ∧ c ≠ backquote ∧ c.toNat ≠ 127 ∧ c.toNat ≠ 0xFEFF

/-- A list of words as the help command shows an unknown topic: between brackets, each word
between backquotes if it can be, quoted otherwise. -/
def topicText (words : List String) : String :=
  let shown (a : String) : String :=
    if backquotable a then String.singleton backquote ++ a ++ String.singleton backquote
    else Text.quote a
  "[" ++ " ".intercalate (words.map shown) ++ "]"

/-- What the help command prints for the words `args`: the help of the command they name, or
the usage of the root after a notice that they name none. -/
def helpTopic (args : List String) : Outcome :=
  match Command.find args with
  | .ok (c, _) => printed c.helpText
  | .error _ =>
    { exit := 0, stderr := "Unknown help topic " ++ topicText args ++ "\n" ++ Command.root.usageWith false }

/-- The next step of a run: finished, or waiting for the content of a file, or the message of
the failure to read it, to go on. -/
inductive Step where
  | done (o : Outcome)
  | read (path : String) (next : Except String String → Outcome)
  deriving Inhabited

/-- Finish a run, reading files with `read`. -/
def Step.finish (read : String → Except String String) : Step → Outcome
  | .done o => o
  | .read path next => next (read path)

/-- The work of a runnable command, once its arguments and settings are checked. -/
def Command.perform (defaults : Options) (s : Session) (c : Command) (p : Parsed) : Step :=
  let path := p.args.headD ""
  match c with
  | .analyze => .read path (reportOn defaults s path (listingText s))
  | .dot => .read path (reportOn defaults s path fun _ lv => .ok lv.toDot)
  | .help => .done (helpTopic p.args)
  | .shell sh =>
    let bare := ((p.get? "no-descriptions").bind readBool).getD false
    .done (printed (completionScript "regflow" (!bare) sh))
  | _ => .done (printed "")

/-- Run command `c` on the arguments `args` left by `Command.find`. -/
def Command.execute (defaults : Options) (c : Command) (args : List String) : Step :=
  match parse c.flags args with
  | .error m => .done (refused m)
  | .ok p =>
    let help := ((p.get? "help").bind readBool).getD false
    if help ∨ !c.runnable then .done (printed c.helpText)
    else match c.checkArgs p.args with
      | some m => .done (refused m)
      | none =>
        match Session.ofFlags p with
        | .error m => .done (refused m)
        | .ok s => c.perform defaults s p

/-- Run the command that the command line `argv` names. -/
def findAndExecute (defaults : Options) (argv : List String) : Step :=
  match Command.find argv with
  | .error u => .done { exit := 1, stderr := "Error: " ++ u.message ++ "\nRun 'regflow --help' for usage.\n" }
  | .ok (c, args) => c.execute defaults args

/-- Answer a completion request for the words `request`, which must not be empty. -/
def completionRequest (descriptions : Bool) (request : List String) : Outcome :=
  if request.isEmpty then refused "requires at least 1 arg(s), only received 0"
  else
    let (out, err) := completionOutput descriptions request
    { exit := 0, stdout := out, stderr := err }

/-- Start the command line `argv` with the environment variables `env`. The hidden command
`__complete` (or `__completeNoDesc`) answers a completion script; it reads no flags, and takes
every word after it as the command line to complete. -/
def start (env : List (String × String)) (argv : List String) : Step :=
  match environmentDefaults env with
  | .error m => .done (aborted m)
  | .ok defaults =>
    match commandWords argv with
    | w :: _ =>
      if w = "__complete" ∨ w = "__completeNoDesc" then .done (completionRequest (w = "__complete") (withoutWord w argv))
      else findAndExecute defaults argv
    | [] => findAndExecute defaults argv

/-- Run the command line `argv` in a working directory holding the files of `w`, with the
environment variables `env`. -/
def run (w : Workspace) (env : List (String × String)) (argv : List String) : Outcome :=
  let o := (start env argv).finish w.read
  { o with stdout := Text.readable o.stdout, stderr := Text.readable o.stderr }

end Cli

end RegisterLiveness
