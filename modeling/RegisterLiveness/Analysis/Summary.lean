import RegisterLiveness.OperandSet
import RegisterLiveness.FlowGraph.Validate
import RegisterLiveness.Analysis.Options

/-!
# Instruction effects and block summaries

Liveness runs backward: the operands live before an instruction are those live after it, less the
ones it defines, plus the ones it uses. Always-live operands are never removed by a definition.
Composing these instruction transfers over a block, from its last instruction to its first,
gives a block transfer of the same shape, `X ↦ (X \ defs) ∪ uses`, which `Summary` records.

`Problem.prepare` checks everything an analysis needs before any fixpoint work, in this order,
the first failure winning: an operand count is given; the graph is well formed; every
always-live operand lies in the universe; every decoded operand lies in the universe, instructions
taken block by block and, within a block, from the last to the first, definitions before uses.
Every error but the first is reported under the note `liveness`.
-/

namespace RegisterLiveness

/-- The operands one instruction defines and uses, as a decoder reports them. -/
structure Access where
  defs : List Int := []
  uses : List Int := []
  deriving Repr, Inhabited, DecidableEq

/-- Reports the access of the instruction at an offset; decoding may abort. -/
abbrev Decoder := Nat → Except Abort Access

/-- The operands one instruction defines and uses, all in the universe `[0, n)`. -/
structure Effect (n : Nat) where
  defs : List (Fin n)
  uses : List (Fin n)

namespace Effect

variable {n : Nat}

/-- The operands live before the instruction, from those live after it. -/
def transfer (al : OperandSet n) (e : Effect n) (after : OperandSet n) : OperandSet n :=
  let kept := e.defs.foldl (fun s r => if r ∈ al then s else s.erase r) after
  e.uses.foldl OperandSet.insert kept

end Effect

/-- A block transfer `X ↦ (X \ defs) ∪ uses`. -/
structure Summary (n : Nat) where
  defs : OperandSet n
  uses : OperandSet n

namespace Summary

variable {n : Nat}

/-- The transfer that does nothing. -/
def id : Summary n := ⟨.empty, .empty⟩

/-- Put an instruction in front of the instructions summarized so far. -/
def prepend (al : OperandSet n) (s : Summary n) (e : Effect n) : Summary n :=
  let (d, u) := e.defs.foldl
    (fun (acc : OperandSet n × OperandSet n) r =>
      if r ∈ al then acc else (acc.1.insert r, acc.2.erase r)) (s.defs, s.uses)
  ⟨d, e.uses.foldl OperandSet.insert u⟩

/-- Apply the block transfer. -/
def apply (s : Summary n) (x : OperandSet n) : OperandSet n := (x \ s.defs) ∪ s.uses

end Summary

/-- An analysis ready for its fixpoint: a checked graph, the operand universe `[0, n)`, and the
effect of every instruction and the summary of every block. -/
structure Problem where
  n : Nat
  graph : FlowGraph
  alwaysLive : OperandSet n
  /-- The effect of the instruction at each offset. -/
  effects : Array (Effect n)
  /-- The summary of each block. -/
  summaries : Array (Summary n)
  schedule : Schedule
  verify : Bool

namespace Problem

/-- The operand `r` of the universe `[0, n)`, or an error naming it. -/
def operand (n : Nat) (r : Int) : Except Error (Fin n) :=
  if h : 0 ≤ r ∧ r.toNat < n then .ok ⟨r.toNat, h.2⟩ else .error (.outOfRange "operand" r n)

/-- Check the access decoded at `pc`: definitions first, then uses. -/
def checkAccess (n : Nat) (pc : Nat) (a : Access) : Except Error (Effect n) := do
  let defs ← a.defs.mapM fun r =>
    (operand n r).mapError (.context s!"definition at instruction {pc}")
  let uses ← a.uses.mapM fun r =>
    (operand n r).mapError (.context s!"usage at instruction {pc}")
  return ⟨defs, uses⟩

/-- Decode the instructions of one block from the last to the first, recording each effect and
building the block's summary. -/
def summarize (n : Nat) (al : OperandSet n) (decode : Decoder) :
    List Nat → Array (Effect n) × Summary n → Except Failure (Array (Effect n) × Summary n)
  | [], acc => .ok acc
  | pc :: pcs, (effects, s) => do
    let a ← Failure.ofAbort (decode pc)
    let e ← Failure.ofError ((checkAccess n pc a).mapError (.context "liveness"))
    summarize n al decode pcs (effects.setIfInBounds pc e, s.prepend al e)

/-- The offsets of a block, from the last to the first. -/
def offsetsDown (b : Block) : List Nat := (List.range' b.start b.size).reverse

/-- Check an analysis and build its summaries. -/
def prepare (g : RawGraph) (decode : Decoder) (o : Options) : Except Failure Problem := do
  let some n := o.operandCount
    | throw (.error (.plain "liveness: operand count is not specified"))
  let g ← Failure.ofError (g.validate.mapError (.context "liveness"))
  let mut al : OperandSet n := .empty
  for r in o.alwaysLive do
    if h : r < n then al := al.insert ⟨r, h⟩
    else throw (.error (.context "liveness" (.outOfRange "always-live operand" r n)))
  let mut effects : Array (Effect n) := Array.replicate g.instrCount ⟨[], []⟩
  let mut summaries : Array (Summary n) := #[]
  for b in g.blocks do
    let (es, s) ← summarize n al decode (offsetsDown b) (effects, .id)
    effects := es
    summaries := summaries.push s
  return ⟨n, g, al, effects, summaries, o.schedule, o.verify⟩

/-- The transfer of the instruction at `pc`. -/
def step (p : Problem) (pc : Nat) (after : OperandSet p.n) : OperandSet p.n :=
  (p.effects.getD pc ⟨[], []⟩).transfer p.alwaysLive after

end Problem

end RegisterLiveness
