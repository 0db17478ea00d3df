import RegisterLiveness.FlowGraph.Validate

/-!
# Assembling a graph block by block

A `GraphBuilder` collects blocks and edges and keeps the successor and predecessor lists mirror
images of each other: an edge is recorded once, at the end of both lists, however often it is
added. Adding an edge between blocks that do not exist aborts and records nothing.

`GraphBuilder.build` covers the instructions up to the largest block end (none when there is no
block) and checks the result, so it can only fail on the ranges, never on the edges.
-/

namespace RegisterLiveness

/-- Blocks and edges collected so far. -/
structure GraphBuilder where
  blocks : Array RawBlock := #[]
  deriving Inhabited

namespace GraphBuilder

/-- Append a block owning `[start, stop)`, with no edges. -/
def addBlock (b : GraphBuilder) (start stop : Int) : GraphBuilder :=
  ⟨b.blocks.push ⟨start, stop, [], []⟩⟩

/-- Record the edge from block `fr` to block `to`, unless it is already recorded. -/
def addEdge (b : GraphBuilder) (fr dst : Int) : Except Abort GraphBuilder :=
  let nb := b.blocks.size
  if fr < 0 ∨ nb ≤ fr ∨ dst < 0 ∨ nb ≤ dst then .error (.message "flowgraph: edge between non-existing blocks")
  else
    let src := b.blocks.getD fr.toNat default
    if src.succs.contains dst then .ok b
    else
      let blocks := b.blocks.modify fr.toNat fun x => { x with succs := x.succs ++ [dst] }
      let blocks := blocks.modify dst.toNat fun x => { x with preds := x.preds ++ [fr] }
      .ok ⟨blocks⟩

/-- Append the listed blocks, in order. -/
def addBlocks (b : GraphBuilder) (blocks : List (Int × Int)) : GraphBuilder :=
  blocks.foldl (fun b x => b.addBlock x.1 x.2) b

/-- Record the listed edges, in order; the first between blocks that do not exist aborts. -/
def addEdges (b : GraphBuilder) (edges : List (Int × Int)) : Except Abort GraphBuilder :=
  edges.foldlM (fun b e => b.addEdge e.1 e.2) b

/-- The described graph: the blocks, covering instructions up to the largest end. -/
def toRaw (b : GraphBuilder) : RawGraph :=
  ⟨b.blocks, b.blocks.foldl (fun m x => max m x.stop) 0⟩

/-- Check the collected graph. -/
def build (b : GraphBuilder) : Except Error FlowGraph := b.toRaw.validate

/-- Add the listed blocks, then the listed edges, then check the graph. -/
def assemble (blocks : List (Int × Int)) (edges : List (Int × Int)) : Except Failure FlowGraph := do
  let b ← Failure.ofAbort ((addBlocks {} blocks).addEdges edges)
  Failure.ofError b.build

end GraphBuilder

end RegisterLiveness
