import RegisterLiveness.Proofs.Reach

/-!
# What the depth-first search reaches, and reverse postorder

`reversePostorder` is the reverse of the postorder of the recursive search from block 0
(`FlowGraph.DepthFirst`, which the explicit-stack loop computes: module `Proofs.Order`), followed
by the blocks it never marks. Three facts about the search carry over to the order. It marks
exactly the blocks block 0 reaches (`DepthFirst.mem_iff_reaches`). Each block it finishes is
reached from a root. A block finishes after each of its successors, unless that successor was
marked before the search began or reaches back to it (`DepthFirst.succ_before`). Hence reverse
postorder lists every block once, starts with block 0, and lists a reachable block before every
successor that cannot reach back to it (`reversePostorder_spec`).
-/

namespace RegisterLiveness

namespace FlowGraph

variable {g : FlowGraph}

/-- Only a block has successors. -/
theorem lt_of_mem_succs {b s : Nat} (h : s ∈ g.succs b) : b < g.blockCount := by
  by_contra hb
  simp [succs, block, Array.getD_eq_getD_getElem?, Array.getElem?_eq_none (Nat.le_of_not_lt hb)] at h

/-! ### What the search reaches -/

namespace DepthFirst

variable {seen seen' : Finset Nat} {roots post : List Nat}

/-- Every root that is a block ends up marked. -/
theorem root_mem (h : g.DepthFirst seen roots seen' post) :
    ∀ r ∈ roots, r < g.blockCount → r ∈ seen' := by
  induction h with
  | nil => simp
  | skip hb hrest ih =>
    intro r hr hlt
    rcases List.mem_cons.mp hr with rfl | hr
    · exact hrest.subset (hb hlt)
    · exact ih r hr hlt
  | enter _ _ hs hrest _ ih₂ =>
    intro r hr hlt
    rcases List.mem_cons.mp hr with rfl | hr
    · exact hrest.subset (hs.subset (Finset.mem_insert_self _ _))
    · exact ih₂ r hr hlt

/-- Every block the search finishes is a block reached from one of the roots. -/
theorem reached (h : g.DepthFirst seen roots seen' post) :
    ∀ b ∈ post, b < g.blockCount ∧ ∃ r ∈ roots, g.Reaches r b := by
  induction h with
  | nil => simp
  | skip _ _ ih =>
    intro b hb
    obtain ⟨hlt, r, hr, hrb⟩ := ih b hb
    exact ⟨hlt, r, List.mem_cons_of_mem _ hr, hrb⟩
  | @enter _ _ _ a _ _ _ ha _ _ _ ih₁ ih₂ =>
    intro b hb
    rcases List.mem_append.mp hb with hb | hb
    · -- finished while searching from a successor of the root
      obtain ⟨hlt, s, hs, hsb⟩ := ih₁ b hb
      exact ⟨hlt, a, List.mem_cons_self, Relation.ReflTransGen.head hs hsb⟩
    · rcases List.mem_cons.mp hb with rfl | hb
      · exact ⟨ha, b, List.mem_cons_self, .refl⟩
      · obtain ⟨hlt, r, hr, hrb⟩ := ih₂ b hb
        exact ⟨hlt, r, List.mem_cons_of_mem _ hr, hrb⟩

/-- A finished block has all its successors marked. -/
theorem succ_mem (h : g.DepthFirst seen roots seen' post) :
    ∀ u ∈ post, ∀ s ∈ g.succs u, s < g.blockCount → s ∈ seen' := by
  induction h with
  | nil => simp
  | skip _ _ ih => exact ih
  | enter _ _ hs hrest ih₁ ih₂ =>
    intro u hu s hsu hlt
    rcases List.mem_append.mp hu with hu | hu
    · exact hrest.subset (ih₁ u hu s hsu hlt)
    · rcases List.mem_cons.mp hu with rfl | hu
      · exact hrest.subset (hs.root_mem s hsu hlt)
      · exact ih₂ u hu s hsu hlt

/-- A finished block comes after each of its successors, unless that successor was marked before
the search began or reaches back to it. -/
theorem succ_before (h : g.DepthFirst seen roots seen' post) :
    ∀ u ∈ post, ∀ s ∈ g.succs u, s < g.blockCount →
      s ∈ seen ∨ g.Reaches s u ∨ [s, u].Sublist post := by
  induction h with
  | nil => simp
  | skip _ _ ih => exact ih
  | @enter seen seen₁ _ a _ post₁ post _ _ hs _ ih₁ ih₂ =>
    -- the successors' search marks what it finishes, so `seen₁` is `a`, `seen` and `post₁`
    have hseen₁ : ∀ x, x ∈ seen₁ ↔ x = a ∨ x ∈ seen ∨ x ∈ post₁ := by
      intro x
      rw [hs.marks_eq]
      simp
    have hbefore : ∀ {x y : Nat}, x ∈ post₁ → y ∈ a :: post → [x, y].Sublist (post₁ ++ a :: post) :=
      fun hx hy => List.Sublist.append (List.singleton_sublist.mpr hx) (List.singleton_sublist.mpr hy)
    intro u hmem s hsu hlt
    rcases List.mem_append.mp hmem with hu₁ | hu₂
    · -- `u` was finished below `a`, which reaches it: a successor that is `a` reaches back
      rcases ih₁ u hu₁ s hsu hlt with hsa | hreach | hsub
      · rcases Finset.mem_insert.mp hsa with rfl | hseen
        · obtain ⟨-, r, hr, hru⟩ := hs.reached u hu₁
          exact .inr (.inl (Relation.ReflTransGen.head hr hru))
        · exact .inl hseen
      · exact .inr (.inl hreach)
      · exact .inr (.inr (hsub.trans (List.sublist_append_left _ _)))
    · rcases List.mem_cons.mp hu₂ with rfl | hu
      · -- `u` is the root: its successors were searched before it finished
        rcases (hseen₁ s).mp (hs.root_mem s hsu hlt) with rfl | hseen | hpost
        · exact .inr (.inl .refl)
        · exact .inl hseen
        · exact .inr (.inr (hbefore hpost List.mem_cons_self))
      · rcases ih₂ u hu s hsu hlt with hs₁ | hreach | hsub
        · rcases (hseen₁ s).mp hs₁ with rfl | hseen | hpost
          · have hsub : [s, u].Sublist (s :: post) :=
              List.cons_sublist_cons.mpr (List.singleton_sublist.mpr hu)
            exact .inr (.inr (hsub.trans (List.sublist_append_right _ _)))
          · exact .inl hseen
          · exact .inr (.inr (hbefore hpost (List.mem_cons_of_mem _ hu)))
        · exact .inr (.inl hreach)
        · exact .inr (.inr (hsub.trans ((List.sublist_cons_self a post).trans
            (List.sublist_append_right _ _))))

/-- The search from block 0 marks exactly the blocks block 0 reaches. -/
theorem mem_iff_reaches (h : g.DepthFirst ∅ [0] seen' post) (b : Nat) :
    b ∈ seen' ↔ b < g.blockCount ∧ g.Reaches 0 b := by
  have hpost : ∀ x, x ∈ seen' ↔ x ∈ post := by
    intro x
    rw [h.marks_eq]
    simp
  constructor
  · intro hb
    obtain ⟨hlt, r, hr, hrb⟩ := h.reached b ((hpost b).mp hb)
    rw [List.mem_singleton.mp hr] at hrb
    exact ⟨hlt, hrb⟩
  · rintro ⟨hlt, hreach⟩
    induction hreach with
    | refl => exact h.root_mem 0 List.mem_cons_self hlt
    | @tail a c hac hedge ih =>
      have ha : a < g.blockCount := lt_of_mem_succs hedge
      exact h.succ_mem a ((hpost a).mp (ih ha)) c hedge hlt

end DepthFirst

/-! ### Reverse postorder -/

/-- The search starts from block 0, so reverse postorder does too. -/
theorem reversePostorder_head? (hpos : 0 < g.blockCount) : g.reversePostorder.head? = some 0 := by
  obtain ⟨seen, post, h⟩ := depthFirst_entry (g := g)
  rw [reversePostorder_eq_of_depthFirst h]
  cases h with
  | skip hb _ => simp at hb; omega
  | enter _ _ _ hrest =>
    cases hrest
    simp

/-- A block reachable from block 0 comes before each successor that cannot reach back to it. -/
theorem reversePostorder_before (hr : g.SuccsInRange) {u v : Nat} (hu : g.Reaches 0 u)
    (hv : v ∈ g.succs u) (hback : ¬ g.Reaches v u) : [u, v].Sublist g.reversePostorder := by
  obtain ⟨seen, post, h⟩ := depthFirst_entry (g := g)
  have hult := lt_of_mem_succs hv
  -- the search from block 0 finished `u`, and `v` before it
  have hpost : u ∈ post := by
    have hseen := (h.mem_iff_reaches u).mpr ⟨hult, hu⟩
    rw [h.marks_eq] at hseen
    simpa using hseen
  rcases h.succ_before u hpost v hv (hr u hult v hv) with hv₀ | hreach | hsub
  · simp at hv₀
  · exact absurd hreach hback
  · rw [reversePostorder_eq_of_depthFirst h]
    exact (List.reverse_sublist.mpr hsub).trans (List.sublist_append_left _ _)

/-- Reverse postorder is the recursive depth-first search from block 0 read backward, followed by
the blocks that search never reaches, by increasing index; that search marks exactly the blocks
block 0 reaches. So reverse postorder lists every block once, starts with block 0, and lists a
block reachable from block 0 before each successor that cannot reach back to it. -/
theorem reversePostorder_spec (hr : g.SuccsInRange) :
    (∃ seen post, g.DepthFirst ∅ [0] seen post) ∧
    (∀ seen post, g.DepthFirst ∅ [0] seen post →
      g.reversePostorder = post.reverse ++ (List.range g.blockCount).filter (· ∉ seen) ∧
        ∀ b, b ∈ seen ↔ b < g.blockCount ∧ g.Reaches 0 b) ∧
    g.reversePostorder.Perm (List.range g.blockCount) ∧
    (0 < g.blockCount → g.reversePostorder.head? = some 0) ∧
    ∀ u v, g.Reaches 0 u → v ∈ g.succs u → ¬ g.Reaches v u →
      [u, v].Sublist g.reversePostorder :=
  ⟨depthFirst_entry, fun _ _ h => ⟨reversePostorder_eq_of_depthFirst h, h.mem_iff_reaches⟩,
    g.reversePostorder_perm, reversePostorder_head?,
    fun _ _ hu hv hback => reversePostorder_before hr hu hv hback⟩

end FlowGraph

/-- Five blocks: block 0 enters a loop through block 1, which also loops on itself and goes on
to block 2; block 2 jumps back to block 1, and block 4, unreachable like block 3, jumps to
block 2. -/
def loopsGraph : FlowGraph :=
  ⟨#[⟨0, 1, [1], []⟩, ⟨1, 2, [1, 2], [0, 1, 2]⟩, ⟨2, 3, [1], [1, 4]⟩, ⟨3, 4, [], []⟩,
    ⟨4, 5, [2], []⟩], 5⟩

theorem reversePostorder_spec_loops : loopsGraph.SuccsInRange ∧
    (∃ seen post, loopsGraph.DepthFirst ∅ [0] seen post) ∧
    (∀ seen post, loopsGraph.DepthFirst ∅ [0] seen post →
      loopsGraph.reversePostorder =
          post.reverse ++ (List.range loopsGraph.blockCount).filter (· ∉ seen) ∧
        ∀ b, b ∈ seen ↔ b < loopsGraph.blockCount ∧ loopsGraph.Reaches 0 b) ∧
    loopsGraph.reversePostorder.Perm (List.range loopsGraph.blockCount) ∧
    (0 < loopsGraph.blockCount → loopsGraph.reversePostorder.head? = some 0) ∧
    ∀ u v, loopsGraph.Reaches 0 u → v ∈ loopsGraph.succs u → ¬ loopsGraph.Reaches v u →
      [u, v].Sublist loopsGraph.reversePostorder := by
  have hr : loopsGraph.SuccsInRange := by
    unfold FlowGraph.SuccsInRange
    decide
  exact ⟨hr, FlowGraph.reversePostorder_spec hr⟩

example : loopsGraph.reversePostorder = [0, 1, 2, 3, 4] := by decide +kernel

end RegisterLiveness
