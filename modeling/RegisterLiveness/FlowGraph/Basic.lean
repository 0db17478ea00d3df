/-!
# Control-flow graphs

A control-flow graph splits a stream of instructions, numbered from 0, into basic blocks. Each
block owns a half-open range `[start, stop)` of instructions and lists its successor and
predecessor blocks by index; block 0 is the entry.

Graphs come in three forms. A `Cfg` is a graph as the checks read it: a block count, which may
be any integer, a negative one included, an instruction count, and the range and edges of each
block below the block count. A `RawGraph` is a caller's list of described blocks, any integers and
any lists, with as many blocks as it lists (`RawGraph.toCfg`). A `FlowGraph` is one that passed
`Cfg.validate` (module `FlowGraph.Validate`): its ranges partition the instructions, its edges name
existing blocks, and successor and predecessor lists describe the same edges. Only a `FlowGraph`
is analysed.
-/

namespace RegisterLiveness

/-- A block as a caller describes it: bounds and edges not yet checked. -/
structure RawBlock where
  start : Int
  stop : Int
  succs : List Int := []
  preds : List Int := []
  deriving Repr, Inhabited, DecidableEq

/-- A graph as a caller describes it: blocks, and the number of instructions they cover. -/
structure RawGraph where
  blocks : Array RawBlock
  instrCount : Int
  deriving Repr, Inhabited

/-- A graph as the checks read it: a block count, any integer; an instruction count; and the range
and edges of each block below the block count, none when it is negative. -/
structure Cfg where
  blockCount : Int
  instrCount : Int
  blocks : Array RawBlock
  size_blocks : blocks.size = blockCount.toNat

/-- A described graph has as many blocks as it lists. -/
def RawGraph.toCfg (g : RawGraph) : Cfg := ⟨g.blocks.size, g.instrCount, g.blocks, rfl⟩

/-- A block of a checked graph. -/
structure Block where
  start : Nat
  stop : Nat
  succs : List Nat
  preds : List Nat
  deriving Repr, Inhabited, DecidableEq

namespace Block

/-- The number of instructions the block owns. -/
def size (b : Block) : Nat := b.stop - b.start

/-- Whether the block owns no instruction. -/
def isEmpty (b : Block) : Bool := b.stop ≤ b.start

/-- The same block, described as a caller would. -/
def toRaw (b : Block) : RawBlock :=
  ⟨b.start, b.stop, b.succs.map Int.ofNat, b.preds.map Int.ofNat⟩

end Block

/-- A checked control-flow graph. -/
structure FlowGraph where
  blocks : Array Block
  instrCount : Nat
  deriving Repr, Inhabited

namespace FlowGraph

/-- The number of blocks. -/
def blockCount (g : FlowGraph) : Nat := g.blocks.size

/-- The block numbered `bb`, or an empty block without edges if there is none. -/
def block (g : FlowGraph) (bb : Nat) : Block := g.blocks.getD bb ⟨0, 0, [], []⟩

/-- The successors of block `bb`, in the order they are listed. -/
def succs (g : FlowGraph) (bb : Nat) : List Nat := (g.block bb).succs

/-- The predecessors of block `bb`, in the order they are listed. -/
def preds (g : FlowGraph) (bb : Nat) : List Nat := (g.block bb).preds

/-- The same graph, described as a caller would. -/
def toRaw (g : FlowGraph) : RawGraph := ⟨g.blocks.map Block.toRaw, g.instrCount⟩

end FlowGraph

end RegisterLiveness
