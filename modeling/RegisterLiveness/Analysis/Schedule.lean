import RegisterLiveness.Analysis.Summary
import RegisterLiveness.FlowGraph.Order
import RegisterLiveness.FlowGraph.Components

/-!
# The fixpoint and its schedules

Every block carries a live-in and a live-out set, both starting as the always-live set. Updating a
block `B` first adds the live-in sets of its successors to its live-out set, then adds
`(out \ defs) ∪ uses` to its live-in set, and reports whether live-in gained a member. Sets only
grow, and each is bounded by the operand universe, so every schedule stops: each update that
reports a change adds a member somewhere, and there are at most `blockCount * n` members to add.
The fuel arguments below are that bound, made explicit.

The schedules visit blocks in different orders and so do different amounts of work, recorded as
the number of block updates (`visits`) and the outcome of every full sweep (`sweeps`):

* `sweep` updates all blocks in backward order (reverse postorder, reversed), sweep after sweep,
  until a sweep changes nothing; that last sweep is counted;
* `worklist` starts from a queue of all blocks in backward order; a block whose live-in grew puts
  its predecessors that are not already queued at the back of the queue; it makes no sweep;
* `scc` settles each strongly connected component in turn, sinks first, updating its blocks by
  decreasing index until a pass changes nothing, and then sweeps as `sweep` does. The split into
  components is a parameter of `solveWith` and `Liveness.analyzeWith`; `solve` and
  `Liveness.analyze` use `FlowGraph.components`.
-/

namespace RegisterLiveness

/-- The state of the fixpoint: live-in and live-out of every block, and the work done so far. -/
structure Flow (n : Nat) where
  ins : Array (OperandSet n)
  outs : Array (OperandSet n)
  /-- The number of block updates made. -/
  visits : Nat := 0
  /-- For every full sweep made, in order, whether it changed a live-in set. -/
  sweeps : List Bool := []

namespace Problem

/-- The starting state: every set is the always-live set. -/
def start (p : Problem) : Flow p.n :=
  let nb := p.graph.blockCount
  ⟨Array.replicate nb p.alwaysLive, Array.replicate nb p.alwaysLive, 0, []⟩

/-- Update block `bb`, reporting whether its live-in set grew. -/
def update (p : Problem) (st : Flow p.n) (bb : Nat) : Bool × Flow p.n :=
  let cur := st.ins.getD bb .empty
  let out := (p.graph.succs bb).foldl (fun acc s => acc ∪ st.ins.getD s .empty) (st.outs.getD bb .empty)
  let grown := cur ∪ (p.summaries.getD bb .id).apply out
  (grown.card != cur.card,
    { st with ins := st.ins.setIfInBounds bb grown, outs := st.outs.setIfInBounds bb out,
              visits := st.visits + 1 })

/-- Update the listed blocks in order, reporting whether any live-in set grew. -/
def pass (p : Problem) (bbs : List Nat) (st : Flow p.n) : Bool × Flow p.n :=
  bbs.foldl (fun (acc : Bool × Flow p.n) bb =>
    let (c, st) := p.update acc.2 bb
    (acc.1 || c, st)) (false, st)

/-- One full sweep over `order`, recorded in `sweeps`. -/
def sweep (p : Problem) (order : List Nat) (st : Flow p.n) : Bool × Flow p.n :=
  let (c, st) := p.pass order st
  (c, { st with sweeps := st.sweeps ++ [c] })

/-- Sweep until a sweep changes nothing, for at most `fuel` sweeps. -/
def sweepAll (p : Problem) (order : List Nat) : (fuel : Nat) → Flow p.n → Flow p.n
  | 0, st => st
  | fuel + 1, st =>
    let (c, st) := p.sweep order st
    if c then p.sweepAll order fuel st else st

/-- Repeat passes over one component until a pass changes nothing, for at most `fuel` passes. -/
def settle (p : Problem) (bbs : List Nat) : (fuel : Nat) → Flow p.n → Flow p.n
  | 0, st => st
  | fuel + 1, st =>
    let (c, st) := p.pass bbs st
    if c then p.settle bbs fuel st else st

/-- Put the predecessors of `bb` that are not queued at the back of the queue. -/
def enqueuePreds (p : Problem) (bb : Nat) (q : List Nat) (queued : Array Bool) :
    List Nat × Array Bool :=
  (p.graph.preds bb).foldl (fun (acc : List Nat × Array Bool) pr =>
    if acc.2.getD pr true then acc else (acc.1 ++ [pr], acc.2.setIfInBounds pr true)) (q, queued)

/-- Update blocks from the front of the queue until it is empty, for at most `fuel` updates. -/
def drain (p : Problem) : (fuel : Nat) → List Nat → Array Bool → Flow p.n → Flow p.n
  | 0, _, _, st => st
  | _ + 1, [], _, st => st
  | fuel + 1, bb :: q, queued, st =>
    let queued := queued.setIfInBounds bb false
    let (c, st) := p.update st bb
    if c then
      let (q, queued) := p.enqueuePreds bb q queued
      p.drain fuel q queued st
    else p.drain fuel q queued st

/-- The backward order: reverse postorder of the forward graph, reversed. -/
def backwardOrder (p : Problem) : List Nat := p.graph.reversePostorder.reverse

/-- An upper bound on the number of live-in growths: members that can still be added. -/
def growthBound (p : Problem) : Nat := p.graph.blockCount * p.n + 1

/-- A component's blocks by decreasing index: the order its loop updates them in. -/
def descending (c : List Nat) : List Nat := c.mergeSort fun a b => b ≤ a

/-- Run the fixpoint with the problem's schedule. With `scc`, `sccs` splits the graph into its
strongly connected components; what the schedule relies on is that they come sinks first. -/
def solveWith (p : Problem) (sccs : FlowGraph → List (List Nat)) : Flow p.n :=
  let order := p.backwardOrder
  let bound := p.growthBound
  match p.schedule with
  | .sweep => p.sweepAll order (bound + 1) p.start
  | .worklist =>
    let nb := p.graph.blockCount
    let predCount := p.graph.blocks.foldl (fun m b => m + b.preds.length) 0
    p.drain ((bound + 1) * (nb + predCount + 1)) order (Array.replicate nb true) p.start
  | .scc =>
    let st := (sccs p.graph).foldl (fun st c => p.settle (descending c) (bound + 1) st) p.start
    p.sweepAll order (bound + 1) st

/-- Run the fixpoint, splitting the graph with `FlowGraph.components`. -/
def solve (p : Problem) : Flow p.n := p.solveWith FlowGraph.components

/-- Recheck every data-flow equation of a solved state, aborting at the first block where one
does not hold. -/
def check (p : Problem) (st : Flow p.n) : Except Abort Unit := do
  for bb in List.range p.graph.blockCount do
    let out := (p.graph.succs bb).foldl (fun acc s => acc ∪ st.ins.getD s .empty) p.alwaysLive
    let inn := (p.summaries.getD bb .id).apply out ∪ p.alwaysLive
    let curOut := st.outs.getD bb .empty
    let curIn := st.ins.getD bb .empty
    if curOut.indices != out.indices then
      let got := curOut.render
      let want := out.render
      throw (.message s!"liveness: live-out of bb_{bb} did not converge: {got} != {want}")
    if curIn.indices != inn.indices then
      let got := curIn.render
      let want := inn.render
      throw (.message s!"liveness: live-in of bb_{bb} did not converge: {got} != {want}")

end Problem

/-- The converged liveness of one graph. -/
structure Liveness where
  problem : Problem
  flow : Flow problem.n

/-- Check, solve and, if asked, verify an analysis of graph `g` with decoder `decode`, splitting
the graph into strongly connected components with `sccs`. -/
def Liveness.analyzeWith (sccs : FlowGraph → List (List Nat)) (g : RawGraph) (decode : Decoder)
    (o : Options) : Except Failure Liveness := do
  let p ← Problem.prepare g decode o
  let flow := p.solveWith sccs
  if p.verify then Failure.ofAbort (p.check flow)
  return ⟨p, flow⟩

/-- The analysis, splitting the graph with `FlowGraph.components`. -/
def Liveness.analyze (g : RawGraph) (decode : Decoder) (o : Options) : Except Failure Liveness :=
  Liveness.analyzeWith FlowGraph.components g decode o

end RegisterLiveness
