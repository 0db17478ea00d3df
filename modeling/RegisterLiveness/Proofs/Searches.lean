import RegisterLiveness.Proofs.DepthFirst

/-!
# Breadth-first and depth-first search agree

`FlowGraph.reachable` marks blocks round by round from block 0, the way a breadth-first search
does with its queue, and `FlowGraph.reversePostorder` lists the blocks a depth-first search from
block 0 finishes, then the others by increasing index. On a graph whose edges name existing
blocks both find the blocks reachable from block 0: the marks of `reachable` are exactly the
reachable blocks (`reachable_getD_iff`), and so are the blocks `reversePostorder` lists before its
trailing run (`reversePostorder_eq_reached_append`). Self-loops, repeated edges and cycles change
neither, since each search marks a block when it first meets it and never again.
-/

namespace RegisterLiveness

namespace FlowGraph

variable {g : FlowGraph}

/-- A graph without blocks marks nothing. -/
theorem reachable_of_blockCount_eq_zero (h : g.blockCount = 0) : g.reachable = #[] := by
  simp [reachable, h]

/-- A graph with blocks marks what spreading from block 0 marks. -/
theorem reachable_eq_reachFrom (h : 0 < g.blockCount) : g.reachable = g.reachFrom 0 := by
  simp [reachable, reachFrom, Nat.pos_iff_ne_zero.mp h]

section InRange

variable (hr : g.SuccsInRange)
include hr

/-- There is one mark per block. -/
theorem size_reachable : g.reachable.size = g.blockCount := by
  by_cases h : g.blockCount = 0
  · simp [reachable_of_blockCount_eq_zero h, h]
  · rw [reachable_eq_reachFrom (Nat.pos_of_ne_zero h)]
    exact (spreading_reachFrom hr (Nat.pos_of_ne_zero h)).size

/-- The breadth-first marks are the blocks block 0 reaches. -/
theorem reachable_getD_iff {b : Nat} (hb : b < g.blockCount) :
    g.reachable.getD b false = true ↔ g.Reaches 0 b := by
  have h0 : 0 < g.blockCount := Nat.lt_of_le_of_lt (Nat.zero_le b) hb
  have hsize : b < g.reachable.size := (size_reachable hr).symm ▸ hb
  -- inside the array the default of `getD` is never read
  have hdefault : g.reachable.getD b false = g.reachable.getD b true := by
    simp [Array.getD_eq_getD_getElem?, hsize]
  rw [hdefault, reachable_eq_reachFrom h0]
  exact reachFrom_iff hr h0 hb

/-- Reverse postorder lists the blocks the breadth-first search marks, then the others by
increasing index. -/
theorem reversePostorder_eq_reached_append :
    ∃ pre, g.reversePostorder =
        pre ++ (List.range g.blockCount).filter (fun b => !g.reachable.getD b false) ∧
      ∀ b, b ∈ pre ↔ b < g.blockCount ∧ g.reachable.getD b false = true := by
  obtain ⟨seen, post, h⟩ := depthFirst_entry (g := g)
  -- the depth-first search marks the blocks it finishes, which are the reachable ones
  have hseen : ∀ b, b ∈ seen ↔ b < g.blockCount ∧ g.reachable.getD b false = true := by
    intro b
    rw [h.mem_iff_reaches]
    constructor
    · rintro ⟨hb, hreach⟩
      exact ⟨hb, (reachable_getD_iff hr hb).mpr hreach⟩
    · rintro ⟨hb, hmark⟩
      exact ⟨hb, (reachable_getD_iff hr hb).mp hmark⟩
  refine ⟨post.reverse, ?_, fun b => ?_⟩
  · rw [reversePostorder_eq_of_depthFirst h]
    congr 1
    apply List.filter_congr
    intro b hb
    have hb' : b < g.blockCount := List.mem_range.mp hb
    by_cases hmark : g.reachable.getD b false = true
    · simp [(hseen b).mpr ⟨hb', hmark⟩, hmark]
    · have hnot : b ∉ seen := fun hs => hmark ((hseen b).mp hs).2
      simp [hnot, hmark]
  · rw [List.mem_reverse, ← hseen b, h.marks_eq]
    simp

/-- Breadth-first reachability, and its agreement with the depth-first order. On a graph whose
successors all name existing blocks, the breadth-first search gives one mark per block, none when
there is no block, and marks exactly the blocks a path of successor edges from block 0 reaches;
reverse postorder lists exactly the marked blocks before its trailing run of the unmarked ones,
by increasing index. -/
theorem reachable_agrees_with_reversePostorder :
    g.reachable.size = g.blockCount ∧ (g.blockCount = 0 → g.reachable = #[]) ∧
      (∀ b < g.blockCount, g.reachable.getD b false = true ↔ g.Reaches 0 b) ∧
      ∃ pre, g.reversePostorder =
          pre ++ (List.range g.blockCount).filter (fun b => !g.reachable.getD b false) ∧
        ∀ b, b ∈ pre ↔ b < g.blockCount ∧ g.reachable.getD b false = true :=
  ⟨size_reachable hr, reachable_of_blockCount_eq_zero, fun _ hb => reachable_getD_iff hr hb,
    reversePostorder_eq_reached_append hr⟩

end InRange

end FlowGraph

example : loopsGraph.reachable = #[true, true, true, false, false] := by decide

theorem reachable_agrees_with_reversePostorder_loops : loopsGraph.SuccsInRange ∧
    loopsGraph.reachable.size = loopsGraph.blockCount ∧
    (loopsGraph.blockCount = 0 → loopsGraph.reachable = #[]) ∧
    (∀ b < loopsGraph.blockCount, loopsGraph.reachable.getD b false = true ↔
      loopsGraph.Reaches 0 b) ∧
    ∃ pre, loopsGraph.reversePostorder =
        pre ++ (List.range loopsGraph.blockCount).filter
          (fun b => !loopsGraph.reachable.getD b false) ∧
      ∀ b, b ∈ pre ↔ b < loopsGraph.blockCount ∧ loopsGraph.reachable.getD b false = true := by
  have hr : loopsGraph.SuccsInRange := by
    unfold FlowGraph.SuccsInRange
    decide
  exact ⟨hr, FlowGraph.reachable_agrees_with_reversePostorder hr⟩

end RegisterLiveness
