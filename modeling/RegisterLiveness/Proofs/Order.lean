import Mathlib.Data.Finset.Card
import RegisterLiveness.FlowGraph.Order

/-!
# The explicit-stack search is the recursive depth-first search

`FlowGraph.DepthFirst` is the textbook recursive search, stated as a relation. From a list of
roots, in order: a root that is marked, or is no block, is skipped; any other is marked, searched
from its successors in list order, and then finished. The relation is deterministic
(`DepthFirst.det`), searching from a list is searching from each of its parts in turn
(`DepthFirst.append`), and it finishes each block it marks exactly once (`DepthFirst.nodup`).

`FlowGraph.depthFirstLoop` runs the search with an explicit stack. A stack of frames stands for
the work the recursive search has left (`Frames`): from the top, each frame searches from the
successors it has not scanned yet and then finishes its block. A round of the loop keeps that
work: a push splits the top frame's remaining successors into those it passes over, all marked,
the child it enters and the rest, and a pop finishes a frame whose remaining successors are all
marked (`depthFirstLoop_frames`). So the loop from block 0 is the recursive search from block 0
(`depthFirstLoop_start`), and `reversePostorder` is the reverse of that search's postorder
followed by the blocks it never marks (`reversePostorder_eq_of_depthFirst`): every block, once
(`reversePostorder_perm`).
-/

namespace RegisterLiveness

/-- Reading an array after writing one of its entries. -/
theorem getD_setIfInBounds {α : Type} {xs : Array α} {i j : Nat} {a d : α} :
    (xs.setIfInBounds i a).getD j d = if i = j ∧ i < xs.size then a else xs.getD j d := by
  simp only [Array.getD_eq_getD_getElem?, Array.getElem?_setIfInBounds]
  by_cases hij : i = j
  · subst hij
    by_cases hi : i < xs.size <;> simp [hi]
  · simp [hij]

namespace FlowGraph

variable {g : FlowGraph}

/-! ### The recursive search -/

variable (g) in
/-- The recursive depth-first search. From the roots in order, with the blocks of `seen` marked:
a root that is marked, or is no block, is skipped; any other is marked, searched from its
successors in list order, and finished. The search ends with the blocks of `seen'` marked, having
finished those of `post` in this order. -/
inductive DepthFirst : Finset Nat → List Nat → Finset Nat → List Nat → Prop
  | nil {seen : Finset Nat} : DepthFirst seen [] seen []
  | skip {seen seen' : Finset Nat} {b : Nat} {roots post : List Nat}
      (hb : b < g.blockCount → b ∈ seen) (rest : DepthFirst seen roots seen' post) :
      DepthFirst seen (b :: roots) seen' post
  | enter {seen seen₁ seen' : Finset Nat} {b : Nat} {roots post₁ post : List Nat}
      (hb : b < g.blockCount) (hfresh : b ∉ seen)
      (succs : DepthFirst (insert b seen) (g.succs b) seen₁ post₁)
      (rest : DepthFirst seen₁ roots seen' post) :
      DepthFirst seen (b :: roots) seen' (post₁ ++ b :: post)

namespace DepthFirst

variable {seen seen' : Finset Nat} {roots post : List Nat}

/-- The search has one outcome. -/
theorem det {seen₂ : Finset Nat} {post₂ : List Nat} (h₁ : g.DepthFirst seen roots seen' post)
    (h₂ : g.DepthFirst seen roots seen₂ post₂) : seen' = seen₂ ∧ post = post₂ := by
  induction h₁ generalizing seen₂ post₂ with
  | nil =>
    cases h₂
    exact ⟨rfl, rfl⟩
  | skip hb _ ih =>
    cases h₂ with
    | skip _ h₂ => exact ih h₂
    | enter hb' hfresh _ _ => exact absurd (hb hb') hfresh
  | enter hb hfresh _ _ ih₁ ih₂ =>
    cases h₂ with
    | skip hb' _ => exact absurd (hb' hb) hfresh
    | enter _ _ hs₂ hr₂ =>
      obtain ⟨rfl, rfl⟩ := ih₁ hs₂
      obtain ⟨rfl, rfl⟩ := ih₂ hr₂
      exact ⟨rfl, rfl⟩

/-- Searching from two lists of roots, one after the other, is searching from the two together. -/
theorem append {seen₂ : Finset Nat} {roots₂ post₂ : List Nat}
    (h₁ : g.DepthFirst seen roots seen' post) (h₂ : g.DepthFirst seen' roots₂ seen₂ post₂) :
    g.DepthFirst seen (roots ++ roots₂) seen₂ (post ++ post₂) := by
  induction h₁ with
  | nil => exact h₂
  | skip hb _ ih => exact .skip hb (ih h₂)
  | enter hb hfresh hs _ _ ih =>
    rw [List.append_assoc, List.cons_append]
    exact .enter hb hfresh hs (ih h₂)

/-- Roots that are all marked, or no blocks, are all skipped. -/
theorem of_marked {l : List Nat} (hl : ∀ s ∈ l, s < g.blockCount → s ∈ seen) :
    g.DepthFirst seen l seen [] := by
  induction l with
  | nil => exact .nil
  | cons s l ih =>
    exact .skip (hl s List.mem_cons_self) (ih fun t ht => hl t (List.mem_cons_of_mem s ht))

/-- The search marks the blocks it finishes and nothing else. -/
theorem marks_eq (h : g.DepthFirst seen roots seen' post) : seen' = seen ∪ post.toFinset := by
  induction h with
  | nil => simp
  | skip _ _ ih => exact ih
  | enter _ _ _ _ ih₁ ih₂ =>
    rw [ih₂, ih₁]
    ext x
    simp only [Finset.mem_union, Finset.mem_insert, List.mem_toFinset, List.mem_append,
      List.mem_cons]
    tauto

theorem subset (h : g.DepthFirst seen roots seen' post) : seen ⊆ seen' :=
  h.marks_eq ▸ Finset.subset_union_left

/-- The search finishes blocks only. -/
theorem lt_of_mem (h : g.DepthFirst seen roots seen' post) : ∀ b ∈ post, b < g.blockCount := by
  induction h with
  | nil => simp
  | skip _ _ ih => exact ih
  | enter hb _ _ _ ih₁ ih₂ =>
    intro x hx
    rcases List.mem_append.mp hx with hx | hx
    · exact ih₁ x hx
    · rcases List.mem_cons.mp hx with rfl | hx
      · exact hb
      · exact ih₂ x hx

/-- The search finishes each block it marks once, and none marked before it began. -/
theorem nodup (h : g.DepthFirst seen roots seen' post) : post.Nodup ∧ ∀ b ∈ post, b ∉ seen := by
  induction h with
  | nil => simp
  | skip _ _ ih => exact ih
  | @enter seen seen₁ _ b _ post₁ post _ hfresh hs _ ih₁ ih₂ =>
    obtain ⟨hn₁, hout₁⟩ := ih₁
    obtain ⟨hn₂, hout₂⟩ := ih₂
    -- what the successors' search finished is marked before the rest of the roots are searched
    have hin₁ : ∀ x ∈ post₁, x ∈ seen₁ := fun x hx => by
      rw [hs.marks_eq]
      simp [hx]
    have hb₁ : b ∈ seen₁ := hs.subset (Finset.mem_insert_self b seen)
    have hseen₁ : seen ⊆ seen₁ := fun x hx => hs.subset (Finset.mem_insert_of_mem hx)
    refine ⟨List.nodup_append.mpr ⟨hn₁, List.nodup_cons.mpr ⟨fun hb => hout₂ b hb hb₁, hn₂⟩, ?_⟩,
      fun x hx hxs => ?_⟩
    · intro x hx y hy hxy
      subst hxy
      rcases List.mem_cons.mp hy with rfl | hy
      · exact hout₁ x hx (Finset.mem_insert_self x seen)
      · exact hout₂ x hy (hin₁ x hx)
    · rcases List.mem_append.mp hx with hx | hx
      · exact hout₁ x hx (Finset.mem_insert_of_mem hxs)
      · rcases List.mem_cons.mp hx with rfl | hx
        · exact hfresh hxs
        · exact hout₂ x hx (hseen₁ hxs)

end DepthFirst

/-! ### Marks kept in an array -/

/-- The entries an array of marks has marked, among those it holds. -/
def marks (vis : Array Bool) : Finset Nat :=
  (Finset.range vis.size).filter fun b => vis.getD b true = true

theorem mem_marks {vis : Array Bool} {b : Nat} :
    b ∈ marks vis ↔ b < vis.size ∧ vis.getD b true = true := by
  simp [marks]

/-- Marking an entry the array holds adds exactly that entry. -/
theorem marks_mark {vis : Array Bool} {bb : Nat} (hbb : bb < vis.size) :
    marks (vis.setIfInBounds bb true) = insert bb (marks vis) := by
  ext b
  simp only [mem_marks, Array.size_setIfInBounds, getD_setIfInBounds, Finset.mem_insert]
  by_cases hb : bb = b
  · subst hb
    simp [hbb]
  · simp [hb, Ne.symm hb]

theorem marks_replicate (n : Nat) : marks (Array.replicate n false) = ∅ := by
  ext b
  simp only [mem_marks, Array.size_replicate, Finset.notMem_empty, iff_false, not_and]
  intro hb
  simp [Array.getD_eq_getD_getElem?, hb]

/-- An entry that reads as unmarked is held and not marked. -/
theorem not_mem_marks_of_getD {vis : Array Bool} {b : Nat} (h : vis.getD b true = false) :
    b < vis.size ∧ b ∉ marks vis := by
  have hlt : b < vis.size := by
    rcases Nat.lt_or_ge b vis.size with hlt | hge
    · exact hlt
    · simp [Array.getD_eq_getD_getElem?, Array.getElem?_eq_none hge] at h
  exact ⟨hlt, fun hm => by simp [(mem_marks.mp hm).2] at h⟩

/-- With an entry per block, an entry that reads as marked is a marked block or no block. -/
theorem mem_marks_of_getD {vis : Array Bool} (hsize : vis.size = g.blockCount) {s : Nat}
    (h : vis.getD s true = true) : s < g.blockCount → s ∈ marks vis :=
  fun hs => mem_marks.mpr ⟨hsize ▸ hs, h⟩

/-! ### The scan of a frame -/

/-- A scan that finds nothing passes over marked entries only. -/
theorem scanFrom_eq_none {vis : Array Bool} :
    ∀ {l : List Nat} {next : Nat}, scanFrom vis l next = none → ∀ s ∈ l, vis.getD s true = true
  | [], _, _ => by simp
  | s :: rest, next, h => by
    simp only [scanFrom] at h
    split at h
    · intro t ht
      rcases List.mem_cons.mp ht with rfl | ht
      · assumption
      · exact scanFrom_eq_none h t ht
    · cases h

/-- A scan that finds `bb` passes over marked entries up to it and resumes right after it. -/
theorem scanFrom_eq_some {vis : Array Bool} :
    ∀ {l : List Nat} {next bb next' : Nat}, scanFrom vis l next = some (bb, next') →
      ∃ pre rest, l = pre ++ bb :: rest ∧ next' = next + (pre.length + 1) ∧
        ∀ s ∈ pre, vis.getD s true = true
  | [], _, _, _, h => by cases h
  | s :: l, next, bb, next', h => by
    simp only [scanFrom] at h
    split at h
    · obtain ⟨pre, rest, rfl, rfl, hpre⟩ := scanFrom_eq_some h
      refine ⟨s :: pre, rest, rfl, by simp only [List.length_cons]; omega, ?_⟩
      intro t ht
      rcases List.mem_cons.mp ht with rfl | ht
      · assumption
      · exact hpre t ht
    · cases h
      exact ⟨[], l, rfl, rfl, by simp⟩

/-! ### The stack -/

variable (g) in
/-- The work left on a stack of frames, from the marks `seen`: each frame, from the top, searches
from the successors it has not scanned yet and then finishes its block. The work ends with the
marks `seen'`, having finished the blocks of `post` in this order. -/
inductive Frames : Finset Nat → List Frame → Finset Nat → List Nat → Prop
  | nil {seen : Finset Nat} : Frames seen [] seen []
  | cons {seen seen₁ seen' : Finset Nat} {f : Frame} {stack : List Frame} {post₁ post : List Nat}
      (succs : g.DepthFirst seen ((g.succs f.bb).drop f.next) seen₁ post₁)
      (rest : Frames seen₁ stack seen' post) :
      Frames seen (f :: stack) seen' (post₁ ++ f.bb :: post)

/-- The loop does the work its stack stands for: it ends with the marks of that work, having
appended its postorder, and keeps an entry per block. -/
theorem depthFirstLoop_frames (stack : List Frame) (vis : Array Bool) (po : Array Nat)
    (hsize : vis.size = g.blockCount) :
    ∃ post, g.Frames (marks vis) stack (marks (g.depthFirstLoop stack vis po).1) post ∧
      (g.depthFirstLoop stack vis po).2.toList = po.toList ++ post ∧
      (g.depthFirstLoop stack vis po).1.size = g.blockCount := by
  fun_induction g.depthFirstLoop stack vis po with
  | case1 vis po => exact ⟨[], .nil, by simp, hsize⟩
  | case2 vis po top below bb next hscan ih =>
    -- a push: the scan passed over `pre`, all marked, and entered `bb`, left with `rest`
    obtain ⟨pre, rest, hl, hnext, hpre⟩ := scanFrom_eq_some hscan
    obtain ⟨hbb, hfresh⟩ := not_mem_marks_of_getD (getD_eq_false_of_scanFrom hscan)
    obtain ⟨post, hfr, hpo, hsz⟩ := ih (by simpa using hsize)
    rcases hfr with _ | ⟨hsucc, hrest⟩
    rcases hrest with _ | ⟨hrest₁, hrest₂⟩
    rw [marks_mark hbb, List.drop_zero] at hsucc
    have hdrop : (g.succs top.bb).drop next = rest := by
      rw [hnext, ← List.drop_drop, hl]
      simp
    rw [hdrop] at hrest₁
    have hskip : g.DepthFirst (marks vis) pre (marks vis) [] :=
      .of_marked fun s hs => mem_marks_of_getD hsize (hpre s hs)
    refine ⟨_, .cons (hl ▸ hskip.append (.enter (hsize ▸ hbb) hfresh hsucc hrest₁)) hrest₂,
      by simp [hpo], hsz⟩
  | case3 vis po top below hscan ih =>
    -- a pop: every successor left to scan is marked, so the frame finishes its block
    obtain ⟨post, hfr, hpo, hsz⟩ := ih hsize
    have hdone : g.DepthFirst (marks vis) ((g.succs top.bb).drop top.next) (marks vis) [] :=
      .of_marked fun s hs => mem_marks_of_getD hsize (scanFrom_eq_none hscan s hs)
    exact ⟨_, .cons hdone hfr, by simp [hpo], hsz⟩

variable (g) in
/-- The marks the search starts from: block 0, pushed first. -/
def startMarks : Array Bool := (Array.replicate g.blockCount false).setIfInBounds 0 true

/-- From block 0, the loop is the recursive search from block 0. -/
theorem depthFirstLoop_start (hnb : 0 < g.blockCount) :
    g.DepthFirst ∅ [0] (marks (g.depthFirstLoop [⟨0, 0⟩] g.startMarks #[]).1)
        (g.depthFirstLoop [⟨0, 0⟩] g.startMarks #[]).2.toList ∧
      (g.depthFirstLoop [⟨0, 0⟩] g.startMarks #[]).1.size = g.blockCount := by
  have hsize : g.startMarks.size = g.blockCount := by simp [startMarks]
  have hm₀ : marks g.startMarks = insert 0 ∅ := by
    rw [startMarks, marks_mark (by simpa using hnb), marks_replicate]
  obtain ⟨post, hfr, hpo, hsz⟩ := depthFirstLoop_frames [⟨0, 0⟩] g.startMarks #[] hsize
  rcases hfr with _ | ⟨hsucc, hrest⟩
  rcases hrest with _ | _
  rw [hm₀, List.drop_zero] at hsucc
  refine ⟨?_, hsz⟩
  rw [hpo, Array.toList_empty, List.nil_append]
  exact .enter hnb (Finset.notMem_empty 0) hsucc .nil

/-! ### Reverse postorder -/

/-- The search from block 0 has an outcome. -/
theorem depthFirst_entry : ∃ seen post, g.DepthFirst ∅ [0] seen post := by
  by_cases hnb : g.blockCount = 0
  · exact ⟨∅, [], .skip (fun h => absurd h (by omega)) .nil⟩
  · exact ⟨_, _, (depthFirstLoop_start (Nat.pos_of_ne_zero hnb)).1⟩

/-- Reverse postorder is the reverse of the postorder of the search from block 0, followed by the
blocks the search never marks, in increasing order. -/
theorem reversePostorder_eq_of_depthFirst {seen : Finset Nat} {post : List Nat}
    (h : g.DepthFirst ∅ [0] seen post) :
    g.reversePostorder = post.reverse ++ (List.range g.blockCount).filter (· ∉ seen) := by
  simp only [reversePostorder]
  by_cases hnb : g.blockCount = 0
  · -- block 0 is no block, so the search skips it
    cases h with
    | skip _ hrest =>
      cases hrest
      simp [hnb]
    | enter hb _ _ _ => omega
  · simp only [hnb, if_false]
    obtain ⟨hd, hsize⟩ := depthFirstLoop_start (Nat.pos_of_ne_zero hnb)
    obtain ⟨rfl, rfl⟩ := hd.det h
    rw [← startMarks, Array.toList_reverse]
    congr 1
    apply List.filter_congr
    intro b hb
    have hb' : b < g.blockCount := List.mem_range.mp hb
    simp only [mem_marks, hsize, hb', true_and, decide_not]
    cases (g.depthFirstLoop [⟨0, 0⟩] g.startMarks #[]).1.getD b true <;> rfl

/-- Reverse postorder lists every block exactly once. -/
theorem reversePostorder_perm (g : FlowGraph) :
    g.reversePostorder.Perm (List.range g.blockCount) := by
  obtain ⟨seen, post, h⟩ := g.depthFirst_entry
  rw [reversePostorder_eq_of_depthFirst h]
  obtain ⟨hnd, -⟩ := h.nodup
  -- the search marks exactly what it finishes
  have hseen : ∀ b, b ∈ seen ↔ b ∈ post := fun b => by
    rw [h.marks_eq]
    simp
  apply (List.perm_ext_iff_of_nodup _ List.nodup_range).mpr
  · intro b
    rw [List.mem_append, List.mem_reverse, List.mem_filter, List.mem_range, decide_eq_true_iff,
      hseen]
    constructor
    · rintro (hb | ⟨hb, -⟩)
      · exact h.lt_of_mem b hb
      · exact hb
    · intro hb
      by_cases hp : b ∈ post
      · exact .inl hp
      · exact .inr ⟨hb, hp⟩
  · refine List.nodup_append.mpr ⟨List.nodup_reverse.mpr hnd, List.nodup_range.filter _, ?_⟩
    intro a ha b hb hab
    subst hab
    have hout := (List.mem_filter.mp hb).2
    rw [decide_eq_true_iff, hseen] at hout
    exact hout (List.mem_reverse.mp ha)

end FlowGraph

end RegisterLiveness
