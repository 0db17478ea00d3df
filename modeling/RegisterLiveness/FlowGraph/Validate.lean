import RegisterLiveness.Failure
import RegisterLiveness.FlowGraph.Basic

/-!
# Checking a described graph

`Cfg.validate` turns a graph into a `FlowGraph`, or reports the first way in which it is
malformed. The checks run in a fixed order, and the first failing one names the error:

1. the block count is not negative, and then neither is the instruction count;
2. each block's range lies within the instructions, blocks taken by index;
3. the non-empty ranges, taken by increasing start (ties by index), cover every instruction once:
   a range starting before the covered prefix ends overlaps, one starting after it leaves a gap;
4. the covered prefix reaches the instruction count;
5. every successor and predecessor names a block, blocks by index, successors first;
6. every successor edge is listed as a predecessor edge, and then the other way round.

Empty blocks may sit anywhere, and duplicated or reordered edges are allowed. A described graph
(`RawGraph`) is checked as the graph of the blocks it lists.
-/

namespace RegisterLiveness

namespace RawGraph

/-- A non-empty range owned by a block, as the coverage check sees it. -/
structure Span where
  block : Nat
  start : Int
  stop : Int
  deriving Repr

/-- Check each block's range in index order, collecting the non-empty ones. -/
def checkBounds (ni : Int) : List (Nat × RawBlock) → Except Error (List Span)
  | [] => .ok []
  | (bb, b) :: rest =>
    let start := b.start
    let stop := b.stop
    if start < 0 ∨ stop < start ∨ ni < stop then
      .error (.block bb s!"invalid instruction range [{start}, {stop}) of {ni} instructions")
    else do
      let spans ← checkBounds ni rest
      return if stop = start then spans else ⟨bb, start, stop⟩ :: spans

/-- Walk the spans by increasing start: each must begin exactly where the covered prefix `pc`
ends, and the last must end at the instruction count `ni`. -/
def checkCoverage (ni : Int) : Int → List Span → Except Error Unit
  | pc, [] =>
    if pc = ni then .ok () else .error (.graph s!"instruction {pc} does not belong to any block")
  | pc, s :: rest =>
    let start := s.start
    if start < pc then .error (.block s.block s!"instruction {start} belongs to more than one block")
    else if pc < start then .error (.graph s!"instruction {pc} does not belong to any block")
    else checkCoverage ni s.stop rest

/-- Check that every successor and predecessor names one of the `nb` blocks. -/
def checkEnds (nb : Nat) : List (Nat × RawBlock) → Except Error Unit
  | [] => .ok ()
  | (bb, b) :: rest => do
    for dst in b.succs do
      if dst < 0 ∨ nb ≤ dst then throw (.edge bb dst "successor does not exist")
    for fr in b.preds do
      if fr < 0 ∨ nb ≤ fr then throw (.edge fr bb "predecessor does not exist")
    checkEnds nb rest

/-- The edges the successor lists describe, as pairs (from, to), blocks by index. -/
def succEdges (bs : List (Nat × RawBlock)) : List (Int × Int) :=
  bs.flatMap fun (bb, b) => b.succs.map fun dst => ((bb : Int), dst)

/-- The edges the predecessor lists describe, as pairs (from, to), blocks by index. -/
def predEdges (bs : List (Nat × RawBlock)) : List (Int × Int) :=
  bs.flatMap fun (bb, b) => b.preds.map fun fr => (fr, (bb : Int))

/-- Check that both kinds of lists describe the same edges. -/
def checkMirror (bs : List (Nat × RawBlock)) : Except Error Unit := do
  let se := succEdges bs
  let pe := predEdges bs
  match se.find? (fun e => !pe.contains e) with
  | some (fr, dst) => throw (.edge fr dst "successor edge without matching predecessor")
  | none => pure ()
  match pe.find? (fun e => !se.contains e) with
  | some (fr, dst) => throw (.edge fr dst "predecessor edge without matching successor")
  | none => pure ()

/-- The checked form of a block whose bounds and edges passed the checks. -/
def blockOf (b : RawBlock) : Block :=
  ⟨b.start.toNat, b.stop.toNat, b.succs.map Int.toNat, b.preds.map Int.toNat⟩

end RawGraph

namespace Cfg

open RawGraph

/-- Check a graph, returning it as a `FlowGraph`, or the first error found. -/
def validate (g : Cfg) : Except Error FlowGraph := do
  let nb := g.blockCount
  let ni := g.instrCount
  if nb < 0 then throw (.graph s!"negative block count {nb}")
  if ni < 0 then throw (.graph s!"negative instruction count {ni}")
  let bs := g.blocks.toList.zipIdx.map fun (b, i) => (i, b)
  let spans ← checkBounds ni bs
  checkCoverage ni 0 (spans.mergeSort fun s t => s.start ≤ t.start)
  checkEnds nb.toNat bs
  checkMirror bs
  return ⟨g.blocks.map blockOf, ni.toNat⟩

end Cfg

/-- Check a described graph: the graph of the blocks it lists. -/
def RawGraph.validate (g : RawGraph) : Except Error FlowGraph := g.toCfg.validate

end RegisterLiveness
