import RegisterLiveness.Analysis.Schedule

/-!
# Questions to a converged liveness

A converged liveness answers per block (live-in, live-out) and per instruction. The operands live
right before the instruction at `pc` come from replaying the owning block backward, from its
live-out set down to `pc`. `FullLiveness` does that replay once per block and keeps the set before
every instruction; `Kills` keeps, for every instruction, the operands live before it and dead
after it.

An index outside its range is an `outOfRange` error naming what it indexes: a block, an offset or
an operand. A question about an operand at an offset checks the operand first.
-/

namespace RegisterLiveness

namespace Liveness

/-- The size of the operand universe. -/
abbrev n (lv : Liveness) : Nat := lv.problem.n

/-- The graph analysed. -/
def graph (lv : Liveness) : FlowGraph := lv.problem.graph

/-- The number of instructions the graph covers. -/
def instrCount (lv : Liveness) : Nat := lv.graph.instrCount

/-- The number of blocks. -/
def blockCount (lv : Liveness) : Nat := lv.graph.blockCount

/-- The always-live operands. -/
def alwaysLive (lv : Liveness) : OperandSet lv.n := lv.problem.alwaysLive

/-- The schedule the fixpoint ran with. -/
def schedule (lv : Liveness) : Schedule := lv.problem.schedule

/-- The number of full sweeps the fixpoint made. -/
def sweeps (lv : Liveness) : Nat := lv.flow.sweeps.length

/-- The number of block updates the fixpoint made. -/
def visits (lv : Liveness) : Nat := lv.flow.visits

/-- The block `bb`, checked against the block count. -/
def blockIndex (lv : Liveness) (bb : Int) : Except Error Nat :=
  if 0 ≤ bb ∧ bb < lv.blockCount then .ok bb.toNat else .error (.outOfRange "block" bb lv.blockCount)

/-- The operand `r`, checked against the universe. -/
def operand (lv : Liveness) (r : Int) : Except Error (Fin lv.n) :=
  if h : 0 ≤ r ∧ r.toNat < lv.n then .ok ⟨r.toNat, h.2⟩ else .error (.outOfRange "operand" r lv.n)

/-- The operands live at the entry of block `bb`. -/
def liveIn (lv : Liveness) (bb : Int) : Except Error (OperandSet lv.n) := do
  let bb ← lv.blockIndex bb
  return lv.flow.ins.getD bb .empty

/-- The operands live at the exit of block `bb`. -/
def liveOut (lv : Liveness) (bb : Int) : Except Error (OperandSet lv.n) := do
  let bb ← lv.blockIndex bb
  return lv.flow.outs.getD bb .empty

/-- Replay the instructions of `[lo, hi)` backward, from the operands live after `hi - 1`. -/
def replay (lv : Liveness) (lo hi : Nat) (after : OperandSet lv.n) : OperandSet lv.n :=
  (List.range' lo (hi - lo)).reverse.foldl (fun live pc => lv.problem.step pc live) after

/-- The operands live right before the instruction at `pc`. -/
def liveSetAt (lv : Liveness) (pc : Int) : Except Error (OperandSet lv.n) :=
  match lv.graph.owner? pc with
  | none => .error (.outOfRange "offset" pc lv.instrCount)
  | some bb =>
    let b := lv.graph.block bb
    .ok (lv.replay pc.toNat b.stop (lv.flow.outs.getD bb .empty))

/-- Whether operand `r` is live right before the instruction at `pc`. -/
def operandIsLiveAt (lv : Liveness) (r pc : Int) : Except Error Bool := do
  let r ← lv.operand r
  let live ← lv.liveSetAt pc
  return decide (r ∈ live)

/-- For every instruction, the operands live before it and the operands it kills. -/
structure Tables (n : Nat) where
  live : Array (OperandSet n)
  kills : Array (OperandSet n)

/-- Record, at `pc`, the set `before` the instruction and what it kills given the set `after`. -/
def Tables.record {n : Nat} (t : Tables n) (pc : Nat) (before after : OperandSet n) : Tables n :=
  ⟨t.live.setIfInBounds pc before, t.kills.setIfInBounds pc (before \ after)⟩

/-- Replay `[lo, hi)` backward from the operands live after `hi - 1`, recording every instruction;
also returns the operands live before `lo`. -/
def recordRange (lv : Liveness) (lo hi : Nat) (t : Tables lv.n) (after : OperandSet lv.n) :
    Tables lv.n × OperandSet lv.n :=
  (List.range' lo (hi - lo)).reverse.foldl
    (fun (acc : Tables lv.n × OperandSet lv.n) pc =>
      let before := lv.problem.step pc acc.2
      (acc.1.record pc before acc.2, before))
    (t, after)

/-- Replay block `bb` backward from its live-out set, recording every instruction. -/
def recordBlock (lv : Liveness) (t : Tables lv.n) (bb : Nat) : Tables lv.n :=
  (lv.recordRange (lv.graph.block bb).start (lv.graph.block bb).stop t
    (lv.flow.outs.getD bb .empty)).1

/-- Replay every block once, recording the set before each instruction and what it kills. -/
def tables (lv : Liveness) : Tables lv.n :=
  let empty := Array.replicate lv.instrCount (OperandSet.empty : OperandSet lv.n)
  (List.range lv.blockCount).foldl lv.recordBlock ⟨empty, empty⟩

/-- The live set before every instruction. -/
def fullLiveness (lv : Liveness) : Array (OperandSet lv.n) := lv.tables.live

/-- The kill set of every instruction. -/
def kills (lv : Liveness) : Array (OperandSet lv.n) := lv.tables.kills

/-- The entry of a per-instruction table at `pc`, checked against the table's length. -/
def entryAt {α : Type} [Inhabited α] (t : Array α) (pc : Int) : Except Error α :=
  if 0 ≤ pc ∧ pc < t.size then .ok (t.getD pc.toNat default) else .error (.outOfRange "offset" pc t.size)

/-- A question to a converged liveness. -/
inductive Query where
  | liveSetAt (pc : Int)
  | operandIsLiveAt (r pc : Int)
  | liveIn (bb : Int)
  | liveOut (bb : Int)
  | liveAt (pc : Int)
  | operandIsLive (r pc : Int)
  | killedAt (pc : Int)
  | operandIsKilledAt (r pc : Int)
  | forEachKilledAt (pc : Int)
  deriving Repr, Inhabited

/-- An answer: a set of operands, a truth value, or operands listed in the order visited. -/
inductive Answer where
  | set (rs : List Nat)
  | bool (b : Bool)
  | list (rs : List Nat)
  deriving Repr, DecidableEq, Inhabited

instance {n : Nat} : Inhabited (OperandSet n) := ⟨.empty⟩

/-- Answer a question, with the per-instruction tables already computed. -/
def ask (lv : Liveness) (t : Tables lv.n) : Query → Except Error Answer
  | .liveSetAt pc => return .set (← lv.liveSetAt pc).indices
  | .operandIsLiveAt r pc => return .bool (← lv.operandIsLiveAt r pc)
  | .liveIn bb => return .set (← lv.liveIn bb).indices
  | .liveOut bb => return .set (← lv.liveOut bb).indices
  | .liveAt pc => return .set (← entryAt t.live pc).indices
  | .operandIsLive r pc => do
    let r ← lv.operand r
    let s ← entryAt t.live pc
    return .bool (decide (r ∈ s))
  | .killedAt pc => return .set (← entryAt t.kills pc).indices
  | .operandIsKilledAt r pc => do
    let r ← lv.operand r
    let s ← entryAt t.kills pc
    return .bool (decide (r ∈ s))
  | .forEachKilledAt pc => return .list (← entryAt t.kills pc).indices

/-- How many live sets at single offsets a question computes: one for `liveSetAt` and
`operandIsLiveAt` when they succeed, none otherwise. -/
def pointLookups (lv : Liveness) : Query → Nat
  | .liveSetAt pc => if (lv.liveSetAt pc).toOption.isSome then 1 else 0
  | .operandIsLiveAt r pc => if (lv.operandIsLiveAt r pc).toOption.isSome then 1 else 0
  | _ => 0

end Liveness

/-- The engine's running totals over all analyses: the analyses completed, the full sweeps they
made and the block updates they made. -/
structure EngineStats where
  analyses : Nat := 0
  sweeps : Nat := 0
  blockVisits : Nat := 0
  deriving Repr, DecidableEq, Inhabited

/-- Add the work of one converged analysis to the totals. -/
def EngineStats.record (s : EngineStats) (lv : Liveness) : EngineStats :=
  ⟨s.analyses + 1, s.sweeps + lv.sweeps, s.blockVisits + lv.visits⟩

/-- `analyze` with the engine's totals as a state that outlives a failure: the totals take the
work of the analysis once the fixpoint has converged and passed its check. -/
def Liveness.analyzeCounting (g : RawGraph) (decode : Decoder) (o : Options) :
    EStateM Failure EngineStats Liveness := do
  let p ← liftExcept (Problem.prepare g decode o)
  let flow := p.solve
  if p.verify then liftExcept (Failure.ofAbort (p.check flow))
  let lv : Liveness := ⟨p, flow⟩
  modify (·.record lv)
  return lv

end RegisterLiveness
