import RegisterLiveness.Failure

/-!
# Options of an analysis

An analysis is configured by a list of settings applied in order to default options. A setting is
checked when it is made, before any analysis runs: a negative operand count, a negative
always-live operand, a schedule number that names no schedule and an absent logger abort at that
point, the first bad setting of the list winning.

The operand count has no default: an analysis without one is refused. Always-live operands
accumulate over settings; the schedule and the verification flag take the last value given.
-/

namespace RegisterLiveness

/-- How the fixpoint visits the blocks. Every schedule reaches the same result; they differ in the
work done. -/
inductive Schedule where
  /-- Repeat full sweeps over every block in backward order until one changes nothing. -/
  | sweep
  /-- Revisit only the predecessors of blocks whose live-in set grew. -/
  | worklist
  /-- Solve strongly connected components one at a time, sinks first, then sweep. -/
  | scc
  deriving Repr, DecidableEq, Inhabited

namespace Schedule

/-- The schedules by number. -/
def all : List Schedule := [.sweep, .worklist, .scc]

/-- The number of a schedule. -/
def code : Schedule → Nat
  | .sweep => 0
  | .worklist => 1
  | .scc => 2

/-- The name of a schedule. -/
def name : Schedule → String
  | .sweep => "sweep"
  | .worklist => "worklist"
  | .scc => "scc"

/-- The schedule with a given number. -/
def ofCode? (c : Nat) : Option Schedule := all[c]?

/-- The schedule with a given name. -/
def parse? (s : String) : Option Schedule := all.find? (·.name == s)

/-- The name of the schedule with number `c`, or `schedule(?)` when there is none. -/
def nameOfCode (c : Nat) : String :=
  match ofCode? c with
  | some s => s.name
  | none => "schedule(?)"

end Schedule

/-- The options an analysis runs with. -/
structure Options where
  /-- The size of the operand universe; an analysis without it is refused. -/
  operandCount : Option Nat := none
  /-- Operands live at every point whatever the flow says. -/
  alwaysLive : List Nat := []
  schedule : Schedule := .sweep
  /-- Whether to recheck every data-flow equation once the fixpoint is reached. -/
  verify : Bool := false
  deriving Repr, Inhabited

/-- One setting of an analysis, as a caller makes it. -/
inductive Setting where
  | operandCount (n : Int)
  | alwaysLive (rs : List Int)
  | schedule (c : Nat)
  | verify (b : Bool)
  /-- A logger for progress reports; `present := false` stands for a missing one. -/
  | logger (present : Bool)
  deriving Repr, Inhabited

namespace Setting

/-- Check a setting, returning what it does to the options. -/
def check : Setting → Except Abort (Options → Options)
  | .operandCount n =>
    if n < 0 then .error (.message s!"regflow: invalid operand count: {n}")
    else .ok fun o => { o with operandCount := some n.toNat }
  | .alwaysLive rs =>
    match rs.find? (· < 0) with
    | some r => .error (.message s!"regflow: invalid always-live operand: {r}")
    | none => .ok fun o => { o with alwaysLive := o.alwaysLive ++ rs.map Int.toNat }
  | .schedule c =>
    match Schedule.ofCode? c with
    | some s => .ok fun o => { o with schedule := s }
    | none => .error (.message s!"regflow: invalid schedule: {c}")
  | .verify b => .ok fun o => { o with verify := b }
  | .logger present => if present then .ok id else .error (.message "regflow: nil logger")

end Setting

/-- Check every setting in order, then apply them all to `defaults`. -/
def Options.configure (defaults : Options) (settings : List Setting) : Except Abort Options := do
  let fs ← settings.mapM Setting.check
  return fs.foldl (fun o f => f o) defaults

end RegisterLiveness
