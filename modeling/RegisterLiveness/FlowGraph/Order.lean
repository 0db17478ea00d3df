import RegisterLiveness.FlowGraph.Basic

/-!
# Orders and reachability on a checked graph

* `FlowGraph.reversePostorder` lists every block: the reverse of the postorder of a depth-first
  search from block 0, followed by the blocks the search never reached, by increasing index. The
  search keeps an explicit stack of frames, each a block and the position in its successor list
  where it resumes; it marks a block when it pushes it, pushes at most one child per round, and
  appends a block to the postorder when it pops it.
* `FlowGraph.reachable` marks the blocks reachable from block 0, found round by round from the
  blocks reached in the round before; each round but the last reaches a new block.
* `FlowGraph.owner?` is the block that owns an instruction: among the non-empty blocks, the one
  with the last start at or before it, provided that block's range contains it.
-/

namespace RegisterLiveness

namespace FlowGraph

/-- A block on the search's stack, with the position in its successor list where the search
resumes it. -/
structure Frame where
  bb : Nat
  next : Nat
  deriving Repr, DecidableEq

/-- Scan successors from position `next` on, `rest` being those not yet scanned: the first one not
marked, with the position after it. A number that is no block counts as marked. -/
def scanFrom (vis : Array Bool) : List Nat → Nat → Option (Nat × Nat)
  | [], _ => none
  | s :: rest, next => if vis.getD s true then scanFrom vis rest (next + 1) else some (s, next + 1)

/-- The scan stops only at an unmarked block. -/
theorem getD_eq_false_of_scanFrom {vis : Array Bool} :
    ∀ {l : List Nat} {next bb next' : Nat}, scanFrom vis l next = some (bb, next') →
      vis.getD bb true = false
  | [], _, _, _, h => by cases h
  | s :: rest, next, bb, next', h => by
    simp only [scanFrom] at h
    split at h
    · exact getD_eq_false_of_scanFrom h
    · rename_i hs
      cases h
      simpa using hs

/-- Marking an unmarked entry leaves one unmarked entry fewer. -/
theorem count_false_mark {vis : Array Bool} {bb : Nat} (h : vis.getD bb true = false) :
    (vis.setIfInBounds bb true).toList.count false + 1 = vis.toList.count false := by
  have hlt : bb < vis.size := by
    rcases Nat.lt_or_ge bb vis.size with hlt | hge
    · exact hlt
    · simp [Array.getD_eq_getD_getElem?, Array.getElem?_eq_none hge] at h
  have hlt' : bb < vis.toList.length := by simpa using hlt
  have hget : vis.toList[bb] = false := by
    simpa [Array.getD_eq_getD_getElem?, Array.getElem?_eq_getElem hlt] using h
  have hpos : 0 < vis.toList.count false :=
    List.count_pos_iff.mpr (hget ▸ List.getElem_mem hlt')
  rw [Array.toList_setIfInBounds, List.count_set hlt', hget]
  simp only [BEq.rfl, if_true, Bool.true_beq, Bool.false_eq_true, if_false, Nat.add_zero]
  omega

/-- The search loop. The frame on top of the stack resumes the scan of its block's successors: the
first unmarked one is marked and pushed, one child at a time, and a frame with none left is popped
and its block appended to the postorder. Each round marks a block or pops a frame, so twice the
unmarked count plus the height of the stack falls. -/
def depthFirstLoop (g : FlowGraph) (stack : List Frame) (vis : Array Bool) (po : Array Nat) :
    Array Bool × Array Nat :=
  match stack with
  | [] => (vis, po)
  | top :: below =>
    match _hscan : scanFrom vis ((g.succs top.bb).drop top.next) top.next with
    | some (bb, next) =>
      g.depthFirstLoop (⟨bb, 0⟩ :: { top with next } :: below) (vis.setIfInBounds bb true) po
    | none => g.depthFirstLoop below vis (po.push top.bb)
termination_by 2 * vis.toList.count false + stack.length
decreasing_by
  · have := count_false_mark (getD_eq_false_of_scanFrom _hscan)
    simp only [List.length_cons]
    omega
  · simp only [List.length_cons]
    omega

/-- Blocks in reverse postorder of the depth-first search from block 0, marked when pushed, then
the blocks it never marked, by increasing index. The postorder is reversed in place. -/
def reversePostorder (g : FlowGraph) : List Nat :=
  let nb := g.blockCount
  if nb = 0 then []
  else
    let r := g.depthFirstLoop [⟨0, 0⟩] ((Array.replicate nb false).setIfInBounds 0 true) #[]
    r.2.reverse.toList ++ (List.range nb).filter fun bb => !r.1.getD bb true

/-- Grow the set of reached blocks from the frontier reached last, for at most `rounds` rounds. -/
def spread (g : FlowGraph) : (rounds : Nat) → Array Bool → List Nat → Array Bool
  | 0, seen, _ => seen
  | _, seen, [] => seen
  | rounds + 1, seen, frontier =>
    let (seen, next) := frontier.foldl (fun (acc : Array Bool × List Nat) bb =>
      (g.succs bb).foldl (fun (acc : Array Bool × List Nat) s =>
        if acc.1.getD s true then acc else (acc.1.setIfInBounds s true, acc.2 ++ [s])) acc)
      (seen, [])
    g.spread rounds seen next

/-- For every block, whether a path of successor edges leads to it from block 0. -/
def reachable (g : FlowGraph) : Array Bool :=
  let nb := g.blockCount
  if nb = 0 then #[]
  else g.spread nb ((Array.replicate nb false).setIfInBounds 0 true) [0]

/-- The non-empty blocks by increasing start, with their numbers. -/
def spans (g : FlowGraph) : List (Nat × Block) :=
  ((g.blocks.toList.zipIdx.map fun (b, i) => (i, b)).filter fun (_, b) => b.start < b.stop).mergeSort
    fun a b => a.2.start ≤ b.2.start

/-- The block owning instruction `pc`, if any: an empty block owns nothing. -/
def owner? (g : FlowGraph) (pc : Int) : Option Nat :=
  match (g.spans.filter fun (_, b) => (b.start : Int) ≤ pc).getLast? with
  | some (bb, b) => if pc < b.stop then some bb else none
  | none => none

end FlowGraph

end RegisterLiveness
