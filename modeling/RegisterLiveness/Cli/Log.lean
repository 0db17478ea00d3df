import RegisterLiveness.Analysis.Query
import RegisterLiveness.Text.Quoted

/-!
# Progress log

The command line reports the progress of an analysis on the error stream, one line per event,
when its log level lets debug events through. A line gives the level, the message and the
fields sorted by key, each as `key=value`; a value is written bare if it is made only of
letters, digits and the characters `-._/@^+`, and quoted otherwise.

An analysis reports each full sweep, with its number and whether it changed a live-in set, and
then its convergence, with the block count, the operand count, the schedule and the work done.
-/

namespace RegisterLiveness

namespace Cli

/-- The levels of the log, from the most to the least severe. -/
inductive LogLevel where
  | panic
  | fatal
  | error
  | warn
  | info
  | debug
  | trace
  deriving Repr, DecidableEq, Inhabited

namespace LogLevel

/-- The rank of a level: a level lets through the events of its rank and below. -/
def rank : LogLevel → Nat
  | .panic => 0
  | .fatal => 1
  | .error => 2
  | .warn => 3
  | .info => 4
  | .debug => 5
  | .trace => 6

/-- The level a name denotes, ignoring case; `warn` and `warning` are the same level. -/
def parse? (s : String) : Option LogLevel :=
  match s.toLower with
  | "panic" => some .panic
  | "fatal" => some .fatal
  | "error" => some .error
  | "warn" | "warning" => some .warn
  | "info" => some .info
  | "debug" => some .debug
  | "trace" => some .trace
  | _ => none

/-- Whether the level lets debug events through. -/
def showsDebug (l : LogLevel) : Bool := l.rank ≥ LogLevel.debug.rank

end LogLevel

/-- Whether a character may stand in a log value without quotes. -/
def bareLogChar (c : Char) : Bool :=
  c.isAlphanum || c == '-' || c == '.' || c == '_' || c == '/' || c == '@' || c == '^' || c == '+'

/-- A log value as it is written: bare, or quoted if any character needs it. -/
def logValue (v : String) : String := if v.all bareLogChar then v else Text.quote v

/-- A debug event: its message and its fields. -/
structure LogEvent where
  message : String
  fields : List (String × String)
  deriving Repr, Inhabited

/-- The line of a debug event, fields sorted by key. -/
def LogEvent.line (e : LogEvent) : String :=
  let fields := e.fields.mergeSort fun a b => a.1 ≤ b.1
  "level=debug msg=" ++ logValue e.message ++
    String.join (fields.map fun (k, v) => " " ++ k ++ "=" ++ logValue v) ++ "\n"

/-- The events of a converged analysis: one per sweep, then its convergence. -/
def analysisEvents (lv : Liveness) : List LogEvent :=
  let sweeps := lv.flow.sweeps.zipIdx.map fun (changed, i) =>
    { message := "liveness: sweep", fields := [("sweep", toString (i + 1)), ("changed", toString changed)] }
  sweeps ++ [{ message := "liveness: converged", fields := [
    ("blocks", toString lv.blockCount), ("operands", toString lv.n),
    ("schedule", lv.schedule.name), ("sweeps", toString lv.sweeps), ("visits", toString lv.visits)] }]

end Cli

end RegisterLiveness
