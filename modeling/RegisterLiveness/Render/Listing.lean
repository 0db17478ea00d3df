import RegisterLiveness.Analysis.Query
import RegisterLiveness.Machine.Program
import RegisterLiveness.Text.Table
import RegisterLiveness.Text.Json

/-!
# Liveness listings

A listing reports a converged liveness of a program instruction by instruction: its offset, the
label naming it if it is a branch target, how it is written, the operands live right before it
and the operands it kills. A header gives the size of the operand universe, the always-live
operands, the block count, the schedule and the work the fixpoint did.

A listing is written either as text, one aligned row per instruction below the header line, sets
written as `[0 1]`; or as a JSON object with two-space indentation, the label left out where
there is none.
-/

namespace RegisterLiveness

/-- One row of a listing. -/
structure ListingRow where
  pc : Nat
  /-- The label of the offset; empty if no branch targets it. -/
  label : String
  instr : String
  live : List Nat
  kills : List Nat
  deriving Repr, Inhabited

/-- A liveness listing of a program. -/
structure Listing where
  operands : Nat
  alwaysLive : List Nat
  blocks : Nat
  schedule : String
  sweeps : Nat
  visits : Nat
  rows : List ListingRow
  deriving Repr, Inhabited

namespace Listing

/-- The listing of a program analysed by `lv`. -/
def ofLiveness (p : Program) (lv : Liveness) : Except Abort Listing := do
  let t := lv.tables
  let refs := p.labels
  let rows ← (List.range p.size).mapM fun pc => do
    let instr ← p.disassemble pc
    return {
      pc := pc
      label := Program.labelName refs pc
      instr := instr
      live := (t.live.getD pc .empty).indices
      kills := (t.kills.getD pc .empty).indices }
  return {
    operands := lv.n
    alwaysLive := lv.alwaysLive.indices
    blocks := lv.blockCount
    schedule := lv.schedule.name
    sweeps := lv.sweeps
    visits := lv.visits
    rows := rows }

/-- A set of operands as text: `[0 1 5]`. -/
def setText (rs : List Nat) : String := "[" ++ " ".intercalate (rs.map toString) ++ "]"

/-- The listing as text: the header line, then the rows, their fields separated by tabs, laid
out in columns two spaces apart. Labels and instructions are written as they are, so tabs and
line breaks in them end cells and lines. -/
def toText (l : Listing) : String :=
  let al := setText l.alwaysLive
  let header := s!"; operands={l.operands} always_live={al} blocks={l.blocks} " ++
    s!"schedule={l.schedule} sweeps={l.sweeps} visits={l.visits}\n"
  let row (fields : List String) : String := "\t".intercalate fields ++ "\n"
  let rows := l.rows.map fun r => row [toString r.pc, r.label, r.instr, setText r.live, setText r.kills]
  Text.tabulate 2 (header ++ row ["PC", "LABEL", "INSTRUCTION", "LIVE", "KILLS"] ++ String.join rows)

/-- A list of operands as JSON. -/
def setJson (rs : List Nat) : Text.JsonValue := .arr (rs.map fun r => .num (Int.ofNat r))

/-- One row as JSON. -/
def rowJson (r : ListingRow) : Text.JsonValue :=
  .obj ([("pc", .num (Int.ofNat r.pc))] ++ (if r.label.isEmpty then [] else [("label", .str r.label)]) ++
    [("instr", .str r.instr), ("live", setJson r.live), ("kills", setJson r.kills)])

/-- The listing as indented JSON, ending with a newline. -/
def toJson (l : Listing) : String :=
  Text.JsonValue.render (.obj [
    ("operands", .num l.operands),
    ("always_live", setJson l.alwaysLive),
    ("blocks", .num l.blocks),
    ("schedule", .str l.schedule),
    ("sweeps", .num l.sweeps),
    ("visits", .num l.visits),
    ("code", .arr (l.rows.map rowJson))])

end Listing

end RegisterLiveness
