import Mathlib.Logic.Relation
import Mathlib.Data.Finset.Card
import RegisterLiveness.Proofs.Order
import RegisterLiveness.Proofs.Validate
import RegisterLiveness.FlowGraph.Components

/-!
# Reachability along successor edges

`FlowGraph.Reaches u v` says that a path of successor edges leads from block `u` to block `v`.
`FlowGraph.spread` grows a set of marks round by round: each round marks the unmarked successors
of the blocks marked in the round before. From one marked block, with as many rounds as there
are blocks, it marks exactly the blocks that block reaches (`reachFrom_iff`).

The invariant `Spreading` carries the argument: every mark is reachable, and a marked block
outside the last round's frontier has its successors marked. A round either marks a new block or
leaves an empty frontier, so the blocks left `unmarked` measure the rounds still needed.
-/

namespace RegisterLiveness

namespace FlowGraph

variable (g : FlowGraph)

/-- Block `v` is a successor of block `u`. -/
def Edge (u v : Nat) : Prop := v ∈ g.succs u

/-- A path of successor edges leads from block `u` to block `v`; every block reaches itself. -/
def Reaches (u v : Nat) : Prop := Relation.ReflTransGen g.Edge u v

/-- Every successor a block lists is a block of the graph. -/
def SuccsInRange : Prop := ∀ bb < g.blockCount, ∀ s ∈ g.succs bb, s < g.blockCount

variable {g}

theorem WellFormed.succsInRange (wf : g.WellFormed) : g.SuccsInRange := wf.succ_lt

/-- Paths from a block of the graph stay among its blocks. -/
theorem Reaches.lt (hr : g.SuccsInRange) {u v : Nat} (h : g.Reaches u v) (hu : u < g.blockCount) :
    v < g.blockCount := by
  induction h with
  | refl => exact hu
  | tail _ hbc ih => exact hr _ ih _ hbc

end FlowGraph

/-! ### Marks -/

/-- The entries a set of marks leaves off; an entry beyond its size counts as marked. -/
def unmarked (seen : Array Bool) : Finset Nat :=
  (Finset.range seen.size).filter fun b => seen.getD b true = false

theorem getD_true_of_size_le {seen : Array Bool} {b : Nat} (h : seen.size ≤ b) :
    seen.getD b true = true := by
  simp [Array.getD_eq_getD_getElem?, Array.getElem?_eq_none h]

theorem mem_unmarked {seen : Array Bool} {b : Nat} :
    b ∈ unmarked seen ↔ seen.getD b true = false := by
  simp only [unmarked, Finset.mem_filter, Finset.mem_range, and_iff_right_iff_imp]
  intro h
  by_contra hge
  rw [getD_true_of_size_le (Nat.le_of_not_lt hge)] at h
  cases h

theorem card_unmarked_le (seen : Array Bool) : (unmarked seen).card ≤ seen.size :=
  (Finset.card_filter_le _ _).trans (Finset.card_range _).le

/-- Marking an entry takes it out of the unmarked ones. -/
theorem unmarked_mark (seen : Array Bool) (b : Nat) :
    unmarked (seen.setIfInBounds b true) = (unmarked seen).erase b := by
  ext u
  simp only [mem_unmarked, Finset.mem_erase, getD_setIfInBounds]
  by_cases hbu : b = u
  · subst hbu
    by_cases hb : b < seen.size
    · simp [hb]
    · simp [hb, getD_true_of_size_le (Nat.le_of_not_lt hb)]
  · simp [hbu, Ne.symm hbu]

namespace FlowGraph

variable {g : FlowGraph}

/-- Mark block `s` if it is not marked yet, listing it among the blocks newly marked. -/
def markNew (acc : Array Bool × List Nat) (s : Nat) : Array Bool × List Nat :=
  if acc.1.getD s true then acc else (acc.1.setIfInBounds s true, acc.2 ++ [s])

/-- What marking the blocks of `L` in turn does to the marks `seen`: it gives `seen'`, whose
newly marked blocks are `added`, each once, all from `L`; every block of `L` ends marked. -/
structure NewMarks (L : List Nat) (seen seen' : Array Bool) (added : List Nat) : Prop where
  size : seen'.size = seen.size
  nodup : added.Nodup
  marked_iff : ∀ u, seen'.getD u true = true ↔ seen.getD u true = true ∨ u ∈ added
  fresh : ∀ u ∈ added, seen.getD u true = false ∧ u ∈ L
  covers : ∀ u ∈ L, seen'.getD u true = true

theorem foldl_markNew (L : List Nat) : ∀ (seen : Array Bool) (next : List Nat),
    ∃ added, (L.foldl markNew (seen, next)).2 = next ++ added ∧
      NewMarks L seen (L.foldl markNew (seen, next)).1 added := by
  induction L with
  | nil => intro seen next; exact ⟨[], by simp, ⟨rfl, .nil, by simp, by simp, by simp⟩⟩
  | cons s L ih =>
    intro seen next
    by_cases hs : seen.getD s true = true
    · -- already marked: `s` is skipped
      have hstep : markNew (seen, next) s = (seen, next) := by simp [markNew, hs]
      obtain ⟨added, hq, hm⟩ := ih seen next
      rw [List.foldl_cons, hstep]
      refine ⟨added, hq, ⟨hm.size, hm.nodup, hm.marked_iff, fun u hu => ?_, fun u hu => ?_⟩⟩
      · exact ⟨(hm.fresh u hu).1, List.mem_cons_of_mem _ (hm.fresh u hu).2⟩
      · rcases List.mem_cons.mp hu with rfl | hu
        · exact (hm.marked_iff u).mpr (.inl hs)
        · exact hm.covers u hu
    · -- newly marked: `s` joins the list and is not added again
      have hs' : seen.getD s true = false := by simpa using hs
      have hlt : s < seen.size := by
        by_contra hge
        exact hs (getD_true_of_size_le (Nat.le_of_not_lt hge))
      have hstep : markNew (seen, next) s = (seen.setIfInBounds s true, next ++ [s]) := by
        simp [markNew, hs']
      have hmark : ∀ u, (seen.setIfInBounds s true).getD u true = true ↔
          u = s ∨ seen.getD u true = true := by
        intro u
        rw [getD_setIfInBounds]
        by_cases hsu : s = u
        · subst hsu; simp [hlt]
        · simp [hsu, Ne.symm hsu]
      obtain ⟨added, hq, hm⟩ := ih (seen.setIfInBounds s true) (next ++ [s])
      rw [List.foldl_cons, hstep]
      refine ⟨s :: added, by rw [hq]; simp, ⟨by rw [hm.size]; simp, ?_, fun u => ?_,
        fun u hu => ?_, fun u hu => ?_⟩⟩
      · refine List.nodup_cons.mpr ⟨fun h => ?_, hm.nodup⟩
        have := (hm.fresh s h).1
        rw [(hmark s).mpr (.inl rfl)] at this
        cases this
      · rw [hm.marked_iff, hmark, List.mem_cons]
        tauto
      · rcases List.mem_cons.mp hu with rfl | hu
        · exact ⟨hs', List.mem_cons_self⟩
        · obtain ⟨hf, hL⟩ := hm.fresh u hu
          refine ⟨?_, List.mem_cons_of_mem _ hL⟩
          by_contra hu'
          have := (hmark u).mpr (.inr (by simpa using hu'))
          rw [hf] at this
          cases this
      · rcases List.mem_cons.mp hu with rfl | hu
        · exact (hm.marked_iff u).mpr (.inl ((hmark u).mpr (.inl rfl)))
        · exact hm.covers u hu

/-- The newly marked blocks are exactly the ones no longer unmarked. -/
theorem NewMarks.card {L : List Nat} {seen seen' : Array Bool} {added : List Nat}
    (h : NewMarks L seen seen' added) :
    (unmarked seen').card + added.length = (unmarked seen).card := by
  have heq : unmarked seen' = unmarked seen \ added.toFinset := by
    ext u
    simp only [Finset.mem_sdiff, mem_unmarked, List.mem_toFinset]
    have := h.marked_iff u
    constructor
    · intro hu
      rw [hu] at this
      simp only [Bool.false_eq_true, false_iff, not_or] at this
      exact ⟨by simpa using this.1, this.2⟩
    · rintro ⟨hu, hna⟩
      rw [hu] at this
      simpa [hna] using this
  have hsub : added.toFinset ⊆ unmarked seen := fun u hu =>
    mem_unmarked.mpr (h.fresh u (List.mem_toFinset.mp hu)).1
  rw [heq, Finset.card_sdiff_of_subset hsub, List.toFinset_card_of_nodup h.nodup]
  have := Finset.card_le_card hsub
  rw [List.toFinset_card_of_nodup h.nodup] at this
  omega

/-- One round of spreading marks the unmarked successors of the frontier, the next frontier. -/
theorem spread_cons (rounds : Nat) (seen : Array Bool) (bb : Nat) (fr : List Nat) :
    g.spread (rounds + 1) seen (bb :: fr) =
      g.spread rounds (((bb :: fr).flatMap g.succs).foldl markNew (seen, [])).1
        (((bb :: fr).flatMap g.succs).foldl markNew (seen, [])).2 := by
  rw [spread, List.foldl_flatMap]
  · rfl
  · simp

variable (g) in
/-- The invariant of spreading from block `v`: every mark is a block `v` reaches, the frontier
is marked, and a marked block off the frontier has its successors marked. -/
structure Spreading (v : Nat) (seen : Array Bool) (frontier : List Nat) : Prop where
  size : seen.size = g.blockCount
  start : seen.getD v true = true
  sound : ∀ u < g.blockCount, seen.getD u true = true → g.Reaches v u
  frontier_lt : ∀ u ∈ frontier, u < g.blockCount
  frontier_marked : ∀ u ∈ frontier, seen.getD u true = true
  closed : ∀ u < g.blockCount, seen.getD u true = true → u ∉ frontier →
    ∀ s ∈ g.succs u, seen.getD s true = true

/-- A round keeps the invariant, with the newly marked blocks as the next frontier. -/
theorem Spreading.round (hr : g.SuccsInRange) {v : Nat} {seen : Array Bool} {frontier : List Nat}
    (h : g.Spreading v seen frontier) :
    ∃ added, ((frontier.flatMap g.succs).foldl markNew (seen, [])).2 = added ∧
      g.Spreading v ((frontier.flatMap g.succs).foldl markNew (seen, [])).1 added ∧
      (unmarked ((frontier.flatMap g.succs).foldl markNew (seen, [])).1).card + added.length =
        (unmarked seen).card := by
  obtain ⟨added, hq, hm⟩ := foldl_markNew (frontier.flatMap g.succs) seen []
  rw [List.nil_append] at hq
  -- a newly marked block is a successor of a block of the frontier
  have hfrom : ∀ u ∈ added, ∃ bb ∈ frontier, u ∈ g.succs bb := fun u hu =>
    List.mem_flatMap.mp (hm.fresh u hu).2
  refine ⟨added, hq, ⟨by rw [hm.size, h.size], (hm.marked_iff v).mpr (.inl h.start),
    fun u hu hm' => ?_, fun u hu => ?_, fun u hu => (hm.marked_iff u).mpr (.inr hu),
    fun u hu hm' hna s hs => ?_⟩, hm.card⟩
  · rcases (hm.marked_iff u).mp hm' with hm' | hadd
    · exact h.sound u hu hm'
    · obtain ⟨bb, hbb, hs⟩ := hfrom u hadd
      exact .tail (h.sound bb (h.frontier_lt bb hbb) (h.frontier_marked bb hbb)) hs
  · obtain ⟨bb, hbb, hs⟩ := hfrom u hu
    exact hr bb (h.frontier_lt bb hbb) u hs
  · -- a block marked before: on the frontier its successors were just marked, off it they
    -- already were
    have hold : seen.getD u true = true := ((hm.marked_iff u).mp hm').resolve_right hna
    by_cases hf : u ∈ frontier
    · exact hm.covers s (List.mem_flatMap.mpr ⟨u, hf, hs⟩)
    · exact (hm.marked_iff s).mpr (.inl (h.closed u hu hold hf s hs))

/-- With an empty frontier the marks are exactly the blocks `v` reaches. -/
theorem Spreading.marked_iff (hr : g.SuccsInRange) {v : Nat} {seen : Array Bool}
    (h : g.Spreading v seen []) (hv : v < g.blockCount) {u : Nat} (hu : u < g.blockCount) :
    seen.getD u true = true ↔ g.Reaches v u := by
  refine ⟨h.sound u hu, fun hvu => ?_⟩
  induction hvu with
  | refl => exact h.start
  | @tail a b hva hab ih =>
    have ha : a < g.blockCount := Reaches.lt hr hva hv
    exact h.closed a ha (ih ha) List.not_mem_nil b hab

/-- Spreading with more rounds than unmarked blocks, while the frontier is not empty, ends with
an empty frontier. -/
theorem spreading_spread (hr : g.SuccsInRange) {v : Nat} :
    ∀ rounds (seen : Array Bool) (frontier : List Nat), g.Spreading v seen frontier →
      (frontier ≠ [] → (unmarked seen).card < rounds) →
      g.Spreading v (g.spread rounds seen frontier) [] := by
  intro rounds
  induction rounds with
  | zero =>
    intro seen frontier h hfuel
    have hnil : frontier = [] := by
      by_contra hne
      have := hfuel hne
      omega
    subst hnil
    exact h
  | succ rounds ih =>
    intro seen frontier h hfuel
    cases frontier with
    | nil => exact h
    | cons bb fr =>
      obtain ⟨added, hq, h', hcard⟩ := h.round hr
      have hlt := hfuel (List.cons_ne_nil bb fr)
      rw [spread_cons, hq]
      refine ih _ added h' fun hne => ?_
      -- the round marked a new block, so one round fewer is enough
      have : added.length ≠ 0 := fun h0 => hne (List.eq_nil_of_length_eq_zero h0)
      omega

/-- Spreading from block `v` alone, with as many rounds as blocks, ends with an empty frontier. -/
theorem spreading_reachFrom (hr : g.SuccsInRange) {v : Nat} (hv : v < g.blockCount) :
    g.Spreading v (g.reachFrom v) [] := by
  let seen₀ := (Array.replicate g.blockCount false).setIfInBounds v true
  have hm : ∀ w, seen₀.getD w true = true ↔ w = v ∨ g.blockCount ≤ w := by
    intro w
    simp only [seen₀]
    rw [getD_setIfInBounds]
    by_cases hvw : v = w
    · subst hvw; simp [hv]
    · simp only [hvw, false_and, if_false, Array.size_replicate]
      by_cases hw : w < g.blockCount
      · simp [Array.getD_eq_getD_getElem?, hw, Ne.symm hvw, Nat.not_le.mpr hw]
      · have hsize : (Array.replicate g.blockCount false).size ≤ w := by
          simpa using Nat.le_of_not_lt hw
        simp [getD_true_of_size_le hsize, Nat.le_of_not_lt hw]
  have hstart : g.Spreading v seen₀ [v] := by
    refine ⟨by simp [seen₀], (hm v).mpr (.inl rfl), fun w hw hmw => ?_, by simpa using hv,
      fun w hw => (hm w).mpr (.inl (List.mem_singleton.mp hw)), fun w hw hmw hnf => ?_⟩
    · rcases (hm w).mp hmw with rfl | hge
      · exact .refl
      · omega
    · rcases (hm w).mp hmw with rfl | hge
      · exact absurd (List.mem_singleton_self _) hnf
      · omega
  -- only `v` is marked, so fewer blocks than rounds are unmarked
  have hcard : (unmarked seen₀).card < g.blockCount := by
    simp only [seen₀]
    rw [unmarked_mark]
    calc ((unmarked (Array.replicate g.blockCount false)).erase v).card
        < (unmarked (Array.replicate g.blockCount false)).card := by
          apply Finset.card_erase_lt_of_mem
          simp [mem_unmarked, Array.getD_eq_getD_getElem?, hv]
      _ ≤ (Array.replicate g.blockCount false).size := card_unmarked_le _
      _ = g.blockCount := Array.size_replicate
  exact spreading_spread hr g.blockCount seen₀ [v] hstart fun _ => hcard

/-- The marks `reachFrom v` sets are exactly the blocks `v` reaches. -/
theorem reachFrom_iff (hr : g.SuccsInRange) {v u : Nat} (hv : v < g.blockCount)
    (hu : u < g.blockCount) :
    (g.reachFrom v).getD u true = true ↔ g.Reaches v u :=
  (spreading_reachFrom hr hv).marked_iff hr hv hu

end FlowGraph

end RegisterLiveness
