import RegisterLiveness.Machine.Program
import RegisterLiveness.FlowGraph.Builder

/-!
# Basic blocks of a program

`Program.toGraph` cuts a program into basic blocks. Leaders are the first instruction, every branch
target, every instruction after a terminator, and any extra pinned offset inside the program.
Blocks run from one leader to the next and are numbered by their start. The last instruction of a
block decides its successors: the blocks at its targets, in order, then the next block when it
falls through. A branch target outside the program is an error, reported before anything is
built.
-/

namespace RegisterLiveness

namespace Program

/-- Check that every branch target lies in the program; the first offending one is reported. -/
def checkTargets (p : Program) : Except Error Unit :=
  p.instrs.toList.zipIdx.forM fun (i, pc) => i.targets.forM fun t =>
    if 0 ≤ t ∧ t < p.size then pure ()
    else throw (.graph s!"branch at {pc} targets {t}, which is not within [0, {p.size})")

/-- The leaders of the program's blocks with extra pinned offsets, by increasing offset. -/
def leaders (p : Program) (pins : List Int) : List Nat :=
  let np := p.size
  let entry : List Int := if np = 0 then [] else [0]
  let fromCode : List Int := p.instrs.toList.zipIdx.flatMap fun (i, pc) =>
    i.targets ++ (if i.isTerminator && pc + 1 < np then [((pc + 1 : Nat) : Int)] else [])
  ((entry ++ fromCode ++ pins).filter fun (pc : Int) => 0 ≤ pc ∧ pc < (np : Int)).map Int.toNat
    |>.eraseDups |>.mergeSort

/-- The range of every block: from each leader to the next, the last one to the end. -/
def spans (p : Program) (ls : List Nat) : List (Nat × Nat) := ls.zip (ls.drop 1 ++ [p.size])

/-- The block a leader starts, by its position among the leaders; `-1` for any other offset. -/
def blockAt (ls : List Nat) (pc : Nat) : Int := ((ls.idxOf? pc).map Int.ofNat).getD (-1)

/-- The edges out of block `bb`, which ends before `e`: to the blocks at the targets of its last
instruction, in order, then to the next block when that instruction falls through. -/
def exitEdges (p : Program) (ls : List Nat) (bb e : Nat) : List (Int × Int) :=
  let last := p.instrs.getD (e - 1) default
  let jumps := last.targets.map fun t => ((bb : Int), blockAt ls t.toNat)
  jumps ++ (if last.fallsThrough && e < p.size then [((bb : Int), blockAt ls e)] else [])

/-- The edges of every block, block by block. -/
def edges (p : Program) (ls : List Nat) : List (Int × Int) :=
  (p.spans ls).zipIdx.flatMap fun x => p.exitEdges ls x.2 x.1.2

/-- The basic blocks of the program, with `pins` as extra leaders. -/
def toGraph (p : Program) (pins : List Int) : Except Failure FlowGraph := do
  Failure.ofError p.checkTargets
  let ls := p.leaders pins
  let blocks := (p.spans ls).map fun x => ((x.1 : Int), (x.2 : Int))
  let b ← Failure.ofAbort ((GraphBuilder.addBlocks {} blocks).addEdges (p.edges ls))
  Failure.ofError b.build

end Program

end RegisterLiveness
