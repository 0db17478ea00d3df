import Mathlib
import RegisterLiveness.Proofs.Prepare
import RegisterLiveness.Analysis.Query

/-!
# The fixpoint reaches the least solution

The liveness equations of a graph, for always-live operands `al` and block transfers `F`, are
`out B = al ∪ ⋃ {in S | S ∈ succs B}` and `in B = al ∪ F B (out B)`. `Closed` is their inclusion
form, and a closed family included in every closed family is the least solution.

Every schedule of `Problem.solve` is chaotic iteration: it updates one block at a time. An update
keeps the state below every closed family (`Approx`), and an update that reports no change leaves
the equations of its block holding (`Holds`). The weight, the total size of the live-in sets, is
at most `blockCount * n` and grows with every update that reports a change, so the fuel of every
schedule suffices. Sweeps stop at a sweep that changes nothing. The worklist stops with an empty
queue, and every block out of the queue keeps its equations, since the predecessors of a block
whose live-in set grew are queued again. The final state is closed and below every closed family,
hence the least solution whatever the schedule, and the verification pass accepts it.
-/

namespace RegisterLiveness

namespace FlowGraph

variable (g : FlowGraph) (al : Set ℕ) (F : ℕ → Set ℕ → Set ℕ) (I O : ℕ → Set ℕ)

/-- Live-in sets `I` and live-out sets `O` hold everything the liveness equations of `g` put in
them, with always-live operands `al` and block transfers `F`. -/
structure Closed : Prop where
  al_out : ∀ bb < g.blockCount, al ⊆ O bb
  succ_out : ∀ bb < g.blockCount, ∀ s ∈ g.succs bb, I s ⊆ O bb
  al_in : ∀ bb < g.blockCount, al ⊆ I bb
  transfer_in : ∀ bb < g.blockCount, F bb (O bb) ⊆ I bb

/-- Live-in sets `I` and live-out sets `O` solve the liveness equations of `g`:
`O B = al ∪ ⋃ {I S | S ∈ succs B}` and `I B = al ∪ F B (O B)`. -/
structure Solves : Prop where
  out_eq : ∀ bb < g.blockCount, O bb = al ∪ {r | ∃ s ∈ g.succs bb, r ∈ I s}
  in_eq : ∀ bb < g.blockCount, I bb = al ∪ F bb (O bb)

/-- `(I, O)` is the least solution of the liveness equations: a solution included, block by
block, in every solution. -/
def IsLeastSolution : Prop :=
  g.Solves al F I O ∧
    ∀ I' O', g.Solves al F I' O' → ∀ bb < g.blockCount, I bb ⊆ I' bb ∧ O bb ⊆ O' bb

variable {g al F I O}

theorem Solves.closed (h : g.Solves al F I O) : g.Closed al F I O where
  al_out bb hbb := by rw [h.out_eq bb hbb]; exact Set.subset_union_left
  succ_out bb hbb s hs := by
    rw [h.out_eq bb hbb]
    exact fun r hr => .inr ⟨s, hs, hr⟩
  al_in bb hbb := by rw [h.in_eq bb hbb]; exact Set.subset_union_left
  transfer_in bb hbb := by rw [h.in_eq bb hbb]; exact Set.subset_union_right

/-- Solving depends on the transfers of existing blocks only. -/
theorem solves_congr {F' : ℕ → Set ℕ → Set ℕ} (hF : ∀ bb < g.blockCount, F bb = F' bb) :
    g.Solves al F I O ↔ g.Solves al F' I O := by
  constructor
  · intro h
    exact ⟨h.out_eq, fun bb hbb => (h.in_eq bb hbb).trans (by rw [hF bb hbb])⟩
  · intro h
    exact ⟨h.out_eq, fun bb hbb => (h.in_eq bb hbb).trans (by rw [hF bb hbb])⟩

theorem isLeastSolution_congr {F' : ℕ → Set ℕ → Set ℕ}
    (hF : ∀ bb < g.blockCount, F bb = F' bb) :
    g.IsLeastSolution al F I O ↔ g.IsLeastSolution al F' I O := by
  simp only [IsLeastSolution, solves_congr hF]

/-- A closed family included in every closed family is the least solution: closing it once more
gives a closed family that it includes, hence equal to it (the Knaster–Tarski argument). -/
theorem isLeastSolution_of_least
    (hsucc : ∀ bb < g.blockCount, ∀ s ∈ g.succs bb, s < g.blockCount)
    (hmono : ∀ bb X Y, X ⊆ Y → F bb X ⊆ F bb Y) (hc : g.Closed al F I O)
    (hleast : ∀ I' O', g.Closed al F I' O' →
      ∀ bb < g.blockCount, I bb ⊆ I' bb ∧ O bb ⊆ O' bb) :
    g.IsLeastSolution al F I O := by
  -- one more round of the equations from `(I, O)`
  let O' : ℕ → Set ℕ := fun bb => al ∪ {r | ∃ s ∈ g.succs bb, r ∈ I s}
  let I' : ℕ → Set ℕ := fun bb => al ∪ F bb (O' bb)
  have hO' : ∀ bb < g.blockCount, O' bb ⊆ O bb := fun bb hbb =>
    Set.union_subset (hc.al_out bb hbb) fun r ⟨s, hs, hr⟩ => hc.succ_out bb hbb s hs hr
  have hI' : ∀ bb < g.blockCount, I' bb ⊆ I bb := fun bb hbb =>
    Set.union_subset (hc.al_in bb hbb) ((hmono bb _ _ (hO' bb hbb)).trans (hc.transfer_in bb hbb))
  have hc' : g.Closed al F I' O' :=
    ⟨fun _ _ => Set.subset_union_left,
      fun bb hbb s hs r hr => .inr ⟨s, hs, hI' s (hsucc bb hbb s hs) hr⟩,
      fun _ _ => Set.subset_union_left, fun _ _ => Set.subset_union_right⟩
  have hI : ∀ bb < g.blockCount, I bb = I' bb := fun bb hbb =>
    Set.Subset.antisymm (hleast I' O' hc' bb hbb).1 (hI' bb hbb)
  have hO : ∀ bb < g.blockCount, O bb = O' bb := fun bb hbb =>
    Set.Subset.antisymm (hleast I' O' hc' bb hbb).2 (hO' bb hbb)
  refine ⟨⟨fun bb hbb => ?_, fun bb hbb => ?_⟩, fun I'' O'' hs => hleast I'' O'' hs.closed⟩
  · rw [hO bb hbb]
  · rw [hI bb hbb, hO bb hbb]

/-- Two least solutions agree on every block. -/
theorem IsLeastSolution.eq {I' O' : ℕ → Set ℕ} (h : g.IsLeastSolution al F I O)
    (h' : g.IsLeastSolution al F I' O') : ∀ bb < g.blockCount, I bb = I' bb ∧ O bb = O' bb :=
  fun bb hbb =>
    ⟨(h.2 I' O' h'.1 bb hbb).1.antisymm (h'.2 I O h.1 bb hbb).1,
      (h.2 I' O' h'.1 bb hbb).2.antisymm (h'.2 I O h.1 bb hbb).2⟩

variable (g) in
/-- The transfer of block `bb` that decoder `d` defines: the instruction transfers of the block,
composed from its last instruction down to its first. -/
def blockTransfer (d : Decoder) (al : Set ℕ) (bb : Nat) : Set ℕ → Set ℕ :=
  d.transferRange al (g.block bb).start (g.block bb).stop

/-- No block has more predecessors than all blocks together. -/
theorem length_preds_le {bb : Nat} (hbb : bb < g.blockCount) :
    (g.preds bb).length ≤ g.blocks.foldl (fun m b => m + b.preds.length) 0 := by
  have key : ∀ (L : List Block) (a : Nat), a ≤ L.foldl (fun m b => m + b.preds.length) a ∧
      ∀ b ∈ L, b.preds.length ≤ L.foldl (fun m b => m + b.preds.length) a := by
    intro L
    induction L with
    | nil => simp
    | cons x L ih =>
      intro a
      obtain ⟨h₁, h₂⟩ := ih (a + x.preds.length)
      refine ⟨by simp only [List.foldl_cons]; omega, fun b hb => ?_⟩
      rcases List.mem_cons.mp hb with rfl | hb
      · simp only [List.foldl_cons]; omega
      · exact h₂ b hb
  have hmem : g.block bb ∈ g.blocks.toList := by
    have hlt : bb < g.blocks.size := hbb
    simp [block, Array.getD_eq_getD_getElem?, hlt]
  rw [← Array.foldl_toList]
  exact (key _ 0).2 _ hmem

end FlowGraph

namespace Flow

variable {n : Nat}

/-- The live-in set of block `bb`, as indices. -/
def liveIn (st : Flow n) (bb : Nat) : Set ℕ := (st.ins.getD bb .empty).toSet

/-- The live-out set of block `bb`, as indices. -/
def liveOut (st : Flow n) (bb : Nat) : Set ℕ := (st.outs.getD bb .empty).toSet

end Flow

namespace Problem

variable (p : Problem)

/-- The block transfer of the problem, on sets of indices. -/
def transfer (bb : Nat) (X : Set ℕ) : Set ℕ := (p.summaries.getD bb .id).applySet X

theorem transfer_mono (bb : Nat) {X Y : Set ℕ} (h : X ⊆ Y) :
    p.transfer bb X ⊆ p.transfer bb Y :=
  Summary.applySet_mono _ h

/-- What an update of block `bb` puts in its live-out set: what is there, and the live-in sets
of its successors. -/
def gathered (st : Flow p.n) (bb : Nat) : Set ℕ :=
  st.liveOut bb ∪ {r | ∃ s ∈ p.graph.succs bb, r ∈ st.liveIn s}

theorem toSet_foldl_union (st : Flow p.n) (l : List Nat) (acc : OperandSet p.n) :
    (l.foldl (fun acc s => acc ∪ st.ins.getD s .empty) acc).toSet =
      acc.toSet ∪ {r | ∃ s ∈ l, r ∈ st.liveIn s} := by
  induction l generalizing acc with
  | nil => simp
  | cons s l ih =>
    rw [List.foldl_cons, ih, OperandSet.toSet_union]
    ext r
    simp only [Set.mem_union, Set.mem_ofPred_eq, List.mem_cons, Flow.liveIn]
    constructor
    · rintro ((h | h) | ⟨t, ht, hr⟩)
      · exact .inl h
      · exact .inr ⟨s, .inl rfl, h⟩
      · exact .inr ⟨t, .inr ht, hr⟩
    · rintro (h | ⟨t, rfl | ht, hr⟩)
      · exact .inl (.inl h)
      · exact .inl (.inr hr)
      · exact .inr ⟨t, ht, hr⟩

variable {p} {st : Flow p.n} {bb : Nat}

/-! ### One update -/

theorem liveIn_update (b : Nat) : (p.update st bb).2.liveIn b =
    if bb = b ∧ bb < st.ins.size then st.liveIn bb ∪ p.transfer bb (p.gathered st bb)
    else st.liveIn b := by
  simp only [update, Flow.liveIn, getD_setIfInBounds]
  split
  · rename_i h
    obtain ⟨rfl, -⟩ := h
    rw [OperandSet.toSet_union, Summary.toSet_apply, toSet_foldl_union]
    rfl
  · rfl

theorem liveOut_update (b : Nat) : (p.update st bb).2.liveOut b =
    if bb = b ∧ bb < st.outs.size then p.gathered st bb else st.liveOut b := by
  simp only [update, Flow.liveOut, getD_setIfInBounds]
  split
  · rename_i h
    obtain ⟨rfl, -⟩ := h
    rw [toSet_foldl_union]
    rfl
  · rfl

@[simp] theorem ins_size_update : (p.update st bb).2.ins.size = st.ins.size := by
  simp [update]

@[simp] theorem outs_size_update : (p.update st bb).2.outs.size = st.outs.size := by
  simp [update]

/-- An update reports a change exactly when the transfer of the gathered live-out set adds to
the live-in set. -/
theorem update_fst_iff :
    (p.update st bb).1 = true ↔ ¬ p.transfer bb (p.gathered st bb) ⊆ st.liveIn bb := by
  simp only [update, bne_iff_ne, ne_eq, OperandSet.card_union_eq_iff, Summary.toSet_apply,
    toSet_foldl_union]
  rfl

theorem liveIn_subset_update (b : Nat) : st.liveIn b ⊆ (p.update st bb).2.liveIn b := by
  rw [liveIn_update]
  split
  · rename_i h
    rw [← h.1]
    exact Set.subset_union_left
  · exact le_rfl

theorem liveOut_subset_gathered : st.liveOut bb ⊆ p.gathered st bb := Set.subset_union_left

theorem liveOut_subset_update (b : Nat) : st.liveOut b ⊆ (p.update st bb).2.liveOut b := by
  rw [liveOut_update]
  split
  · rename_i h
    rw [← h.1]
    exact liveOut_subset_gathered
  · exact le_rfl

/-- An update that reports no change leaves every live-in set as it was. -/
theorem liveIn_update_of_not_fst (hc : (p.update st bb).1 = false) (b : Nat) :
    (p.update st bb).2.liveIn b = st.liveIn b := by
  have hsub : p.transfer bb (p.gathered st bb) ⊆ st.liveIn bb := by
    have hn : ¬ (p.update st bb).1 = true := by simp [hc]
    rwa [update_fst_iff, not_not] at hn
  rw [liveIn_update]
  split
  · rename_i h
    rw [← h.1]
    exact Set.union_eq_self_of_subset_right hsub
  · rfl

/-! ### The equations of one block -/

variable (p) in
/-- The equations of block `bb` hold in `st`, as inclusions: its live-out set holds the live-in
sets of its successors, and its live-in set holds the transfer of its live-out set. -/
structure Holds (st : Flow p.n) (bb : Nat) : Prop where
  succ_out : ∀ s ∈ p.graph.succs bb, st.liveIn s ⊆ st.liveOut bb
  transfer_in : p.transfer bb (st.liveOut bb) ⊆ st.liveIn bb

/-- After an update the equations of the block updated hold, unless its live-in set grew and it is
its own successor. -/
theorem holds_update_self (hi : bb < st.ins.size) (ho : bb < st.outs.size)
    (h : bb ∉ p.graph.succs bb ∨ (p.update st bb).1 = false) :
    Holds p (p.update st bb).2 bb := by
  have hin : (p.update st bb).2.liveIn bb = st.liveIn bb ∪ p.transfer bb (p.gathered st bb) := by
    simp [liveIn_update, hi]
  have hout : (p.update st bb).2.liveOut bb = p.gathered st bb := by
    simp [liveOut_update, ho]
  constructor
  · intro s hs
    rw [hout]
    by_cases hsb : s = bb
    · subst hsb
      have hc : (p.update st s).1 = false := h.resolve_left (not_not.mpr hs)
      rw [liveIn_update_of_not_fst hc]
      exact fun r hr => .inr ⟨s, hs, hr⟩
    · rw [liveIn_update, if_neg (fun h => hsb h.1.symm)]
      exact fun r hr => .inr ⟨s, hs, hr⟩
  · rw [hin, hout]
    exact Set.subset_union_right

/-- An update keeps the equations of every other block, unless its live-in set grew and the
block updated is a successor of that block. -/
theorem holds_update_other {b : Nat} (hb : b ≠ bb) (hh : Holds p st b)
    (h : bb ∉ p.graph.succs b ∨ (p.update st bb).1 = false) : Holds p (p.update st bb).2 b := by
  have hout : (p.update st bb).2.liveOut b = st.liveOut b := by
    rw [liveOut_update, if_neg (fun h => hb h.1.symm)]
  constructor
  · intro s hs
    rw [hout]
    by_cases hsb : s = bb
    · subst hsb
      rw [liveIn_update_of_not_fst (h.resolve_left (not_not.mpr hs))]
      exact hh.succ_out s hs
    · rw [liveIn_update, if_neg (fun h => hsb h.1.symm)]
      exact hh.succ_out s hs
  · rw [hout]
    exact hh.transfer_in.trans (liveIn_subset_update b)

/-! ### Below every closed family -/

variable (p) in
/-- The invariant of every schedule: the sets have one entry per block, hold the always-live
operands, and are included in the corresponding sets of every closed family. -/
structure Approx (st : Flow p.n) : Prop where
  ins_size : st.ins.size = p.graph.blockCount
  outs_size : st.outs.size = p.graph.blockCount
  al_in : ∀ bb < p.graph.blockCount, p.alwaysLive.toSet ⊆ st.liveIn bb
  al_out : ∀ bb < p.graph.blockCount, p.alwaysLive.toSet ⊆ st.liveOut bb
  below : ∀ I O, p.graph.Closed p.alwaysLive.toSet p.transfer I O →
    ∀ bb < p.graph.blockCount, st.liveIn bb ⊆ I bb ∧ st.liveOut bb ⊆ O bb

theorem liveIn_start {b : Nat} (hb : b < p.graph.blockCount) :
    p.start.liveIn b = p.alwaysLive.toSet := by
  simp [start, Flow.liveIn, hb]

theorem liveOut_start {b : Nat} (hb : b < p.graph.blockCount) :
    p.start.liveOut b = p.alwaysLive.toSet := by
  simp [start, Flow.liveOut, hb]

theorem approx_start : Approx p p.start where
  ins_size := by simp [start]
  outs_size := by simp [start]
  al_in bb hbb := (liveIn_start hbb).ge
  al_out bb hbb := (liveOut_start hbb).ge
  below I O hc bb hbb := by
    rw [liveIn_start hbb, liveOut_start hbb]
    exact ⟨hc.al_in bb hbb, hc.al_out bb hbb⟩

/-- An update gathers only what every closed family holds: chaotic iteration stays below the
least solution. -/
theorem approx_update (hwf : p.graph.WellFormed) (ha : Approx p st) (bb : Nat) :
    Approx p (p.update st bb).2 where
  ins_size := by rw [ins_size_update, ha.ins_size]
  outs_size := by rw [outs_size_update, ha.outs_size]
  al_in b hb := (ha.al_in b hb).trans (liveIn_subset_update b)
  al_out b hb := (ha.al_out b hb).trans (liveOut_subset_update b)
  below I O hc b hb := by
    have hg : bb < p.graph.blockCount → p.gathered st bb ⊆ O bb := fun hbb =>
      Set.union_subset (ha.below I O hc bb hbb).2 fun r ⟨s, hs, hr⟩ =>
        hc.succ_out bb hbb s hs ((ha.below I O hc s (hwf.succ_lt bb hbb s hs)).1 hr)
    rw [liveIn_update, liveOut_update, ha.ins_size, ha.outs_size]
    constructor
    · split
      · rename_i h
        obtain ⟨rfl, hbb⟩ := h
        refine Set.union_subset (ha.below I O hc bb hbb).1 ?_
        exact (p.transfer_mono bb (hg hbb)).trans (hc.transfer_in bb hbb)
      · exact (ha.below I O hc b hb).1
    · split
      · rename_i h
        obtain ⟨rfl, hbb⟩ := h
        exact hg hbb
      · exact (ha.below I O hc b hb).2

/-- A state where every equation holds and that lies below every closed family is the least
solution. -/
theorem isLeastSolution_of_approx (hwf : p.graph.WellFormed) (ha : Approx p st)
    (hh : ∀ bb < p.graph.blockCount, Holds p st bb) :
    p.graph.IsLeastSolution p.alwaysLive.toSet p.transfer st.liveIn st.liveOut := by
  apply FlowGraph.isLeastSolution_of_least hwf.succ_lt (fun bb _ _ h => p.transfer_mono bb h)
  · exact ⟨ha.al_out, fun bb hbb => (hh bb hbb).succ_out, ha.al_in,
      fun bb hbb => (hh bb hbb).transfer_in⟩
  · exact ha.below

/-! ### Progress -/

variable (p) in
/-- The number of members of all live-in sets: it grows with every update that reports a change,
and no set outgrows the universe. -/
def weight (st : Flow p.n) : Nat :=
  ∑ bb ∈ Finset.range p.graph.blockCount, (st.ins.getD bb .empty).card

theorem weight_le (st : Flow p.n) : weight p st ≤ p.graph.blockCount * p.n := by
  have h := Finset.sum_le_card_nsmul (Finset.range p.graph.blockCount)
    (fun bb => (st.ins.getD bb .empty).card) p.n (fun bb _ => OperandSet.card_le _)
  simpa [weight] using h

theorem card_le_update (b : Nat) :
    (st.ins.getD b .empty).card ≤ ((p.update st bb).2.ins.getD b .empty).card := by
  simp only [update, getD_setIfInBounds]
  split
  · rename_i h
    rw [← h.1]
    exact OperandSet.card_le_card (by simp)
  · exact le_rfl

theorem card_lt_update (hi : bb < st.ins.size) (hc : (p.update st bb).1 = true) :
    (st.ins.getD bb .empty).card < ((p.update st bb).2.ins.getD bb .empty).card := by
  have hle : (st.ins.getD bb .empty).card ≤ ((p.update st bb).2.ins.getD bb .empty).card :=
    card_le_update bb
  have hne : ((p.update st bb).2.ins.getD bb .empty).card ≠ (st.ins.getD bb .empty).card := by
    simp only [update, getD_setIfInBounds, hi, and_self, if_true] at hc ⊢
    simpa using hc
  omega

theorem weight_le_update : weight p st ≤ weight p (p.update st bb).2 :=
  Finset.sum_le_sum fun b _ => card_le_update b

theorem weight_lt_update (hbb : bb < p.graph.blockCount) (hi : bb < st.ins.size)
    (hc : (p.update st bb).1 = true) : weight p st < weight p (p.update st bb).2 :=
  Finset.sum_lt_sum (fun b _ => card_le_update b)
    ⟨bb, Finset.mem_range.mpr hbb, card_lt_update hi hc⟩

/-! ### Passes -/

theorem pass_nil (st : Flow p.n) : p.pass [] st = (false, st) := rfl

/-- A pass as a fold that or-s the reports of its updates. -/
theorem pass_eq (l : List Nat) (st : Flow p.n) : p.pass l st =
    l.foldl (fun (acc : Bool × Flow p.n) bb =>
      (acc.1 || (p.update acc.2 bb).1, (p.update acc.2 bb).2)) (false, st) := rfl

/-- A pass reports a change when its first update does or the rest of the pass does. -/
theorem pass_cons (bb : Nat) (l : List Nat) (st : Flow p.n) :
    p.pass (bb :: l) st =
      ((p.update st bb).1 || (p.pass l (p.update st bb).2).1, (p.pass l (p.update st bb).2).2) := by
  -- the flag carried along the fold is or-ed into the result
  have key : ∀ (l : List Nat) (c : Bool) (st : Flow p.n),
      l.foldl (fun (acc : Bool × Flow p.n) bb =>
        (acc.1 || (p.update acc.2 bb).1, (p.update acc.2 bb).2)) (c, st) =
        (c || (p.pass l st).1, (p.pass l st).2) := by
    intro l
    induction l with
    | nil => intro c st; simp [pass_eq]
    | cons x l ih =>
      intro c st
      simp only [pass_eq, List.foldl_cons, Bool.false_or] at ih ⊢
      rw [ih, ih (p.update st x).1]
      simp [Bool.or_assoc]
  rw [pass_eq, List.foldl_cons, Bool.false_or]
  exact key l _ _

theorem approx_pass (hwf : p.graph.WellFormed) (l : List Nat) :
    ∀ {st : Flow p.n}, Approx p st → Approx p (p.pass l st).2 := by
  induction l with
  | nil => intro st ha; exact ha
  | cons bb l ih =>
    intro st ha
    rw [pass_cons]
    exact ih (approx_update hwf ha bb)

theorem weight_le_pass (l : List Nat) :
    ∀ st : Flow p.n, weight p st ≤ weight p (p.pass l st).2 := by
  induction l with
  | nil => intro st; exact le_rfl
  | cons bb l ih =>
    intro st
    rw [pass_cons]
    exact weight_le_update.trans (ih _)

section Pass

variable (hwf : p.graph.WellFormed) {l : List Nat} (hl : ∀ b ∈ l, b < p.graph.blockCount)
include hwf hl

/-- A pass over existing blocks that reports a change adds a member somewhere. -/
theorem weight_lt_pass : ∀ {st : Flow p.n}, Approx p st → (p.pass l st).1 = true →
    weight p st < weight p (p.pass l st).2 := by
  induction l with
  | nil => intro st _ hc; simp [pass_nil] at hc
  | cons bb l ih =>
    intro st ha hc
    have hbb := hl bb (List.mem_cons_self ..)
    have hl' : ∀ b ∈ l, b < p.graph.blockCount := fun b hb => hl b (List.mem_cons_of_mem _ hb)
    rw [pass_cons] at hc ⊢
    rcases Bool.or_eq_true_iff.mp hc with hc | hc
    · calc weight p st < weight p (p.update st bb).2 :=
            weight_lt_update hbb (ha.ins_size ▸ hbb) hc
        _ ≤ _ := weight_le_pass l _
    · exact weight_le_update.trans_lt (ih hl' (approx_update hwf ha bb) hc)

/-- After a pass that reports no change the equations of every block of the pass hold, and those
that held before still do. -/
theorem holds_pass : ∀ {st : Flow p.n}, Approx p st → (p.pass l st).1 = false →
    ∀ b, b ∈ l ∨ Holds p st b → Holds p (p.pass l st).2 b := by
  induction l with
  | nil =>
    intro st _ _ b hb
    simpa [pass_nil] using hb
  | cons bb l ih =>
    intro st ha hc b hb
    have hbb := hl bb (List.mem_cons_self ..)
    have hl' : ∀ b ∈ l, b < p.graph.blockCount := fun b hb => hl b (List.mem_cons_of_mem _ hb)
    rw [pass_cons] at hc ⊢
    obtain ⟨hc₁, hc₂⟩ := Bool.or_eq_false_iff.mp hc
    apply ih hl' (approx_update hwf ha bb) hc₂ b
    by_cases hb' : b ∈ l
    · exact .inl hb'
    · right
      by_cases hbe : b = bb
      · subst hbe
        exact holds_update_self (ha.ins_size ▸ hbb) (ha.outs_size ▸ hbb) (.inr hc₁)
      · have hh : Holds p st b := by simpa [hbe, hb'] using hb
        exact holds_update_other hbe hh (.inr hc₁)

end Pass

/-! ### Sweeps -/

/-- A sweep is a pass, recorded. -/
theorem sweep_fst (order : List Nat) (st : Flow p.n) : (p.sweep order st).1 = (p.pass order st).1 :=
  rfl

theorem approx_sweep {order : List Nat} (ha : Approx p (p.pass order st).2) :
    Approx p (p.sweep order st).2 :=
  ⟨ha.ins_size, ha.outs_size, ha.al_in, ha.al_out, ha.below⟩

theorem holds_sweep {order : List Nat} (h : Holds p (p.pass order st).2 bb) :
    Holds p (p.sweep order st).2 bb :=
  ⟨h.succ_out, h.transfer_in⟩

theorem weight_sweep (order : List Nat) (st : Flow p.n) :
    weight p (p.sweep order st).2 = weight p (p.pass order st).2 := rfl

theorem sweepAll_succ (order : List Nat) (fuel : Nat) (st : Flow p.n) :
    p.sweepAll order (fuel + 1) st =
      if (p.sweep order st).1 then p.sweepAll order fuel (p.sweep order st).2
      else (p.sweep order st).2 := rfl

theorem mem_backwardOrder {b : Nat} : b ∈ p.backwardOrder ↔ b < p.graph.blockCount := by
  rw [backwardOrder, List.mem_reverse, p.graph.reversePostorder_perm.mem_iff, List.mem_range]

theorem length_backwardOrder : p.backwardOrder.length = p.graph.blockCount := by
  rw [backwardOrder, List.length_reverse, p.graph.reversePostorder_perm.length_eq,
    List.length_range]

/-- Sweeping over every block, with fuel for one more sweep than the members still missing,
reaches a state where every equation holds. -/
theorem sweepAll_spec (hwf : p.graph.WellFormed) {order : List Nat}
    (horder : ∀ b, b ∈ order ↔ b < p.graph.blockCount) :
    ∀ fuel (st : Flow p.n), Approx p st → p.graph.blockCount * p.n < fuel + weight p st →
      Approx p (p.sweepAll order fuel st) ∧
        ∀ bb < p.graph.blockCount, Holds p (p.sweepAll order fuel st) bb := by
  have hl : ∀ b ∈ order, b < p.graph.blockCount := fun b hb => (horder b).mp hb
  intro fuel
  induction fuel with
  | zero =>
    intro st _ hw
    have := weight_le st
    omega
  | succ fuel ih =>
    intro st ha hw
    have ha' := approx_sweep (approx_pass hwf order ha)
    rw [sweepAll_succ, sweep_fst]
    by_cases hc : (p.pass order st).1 = true
    · rw [if_pos hc]
      have hlt := weight_lt_pass hwf hl ha hc
      exact ih _ ha' (by rw [weight_sweep]; omega)
    · -- a sweep that changed nothing: every block has just been updated without effect
      rw [if_neg hc]
      refine ⟨ha', fun bb hbb => holds_sweep ?_⟩
      exact holds_pass hwf hl ha (by simpa using hc) bb (.inl ((horder bb).mpr hbb))

theorem approx_settle (hwf : p.graph.WellFormed) (bbs : List Nat) :
    ∀ fuel {st : Flow p.n}, Approx p st → Approx p (p.settle bbs fuel st) := by
  intro fuel
  induction fuel with
  | zero => intro st ha; exact ha
  | succ fuel ih =>
    intro st ha
    simp only [settle]
    split
    · exact ih (approx_pass hwf bbs ha)
    · exact approx_pass hwf bbs ha

/-! ### The worklist -/

/-- One step of putting predecessors in the queue: a block not yet flagged goes to the back of
the queue and is flagged. -/
def enqueueStep (acc : List Nat × Array Bool) (pr : Nat) : List Nat × Array Bool :=
  if acc.2.getD pr true then acc else (acc.1 ++ [pr], acc.2.setIfInBounds pr true)

theorem enqueuePreds_eq (bb : Nat) (q : List Nat) (queued : Array Bool) :
    p.enqueuePreds bb q queued = (p.graph.preds bb).foldl enqueueStep (q, queued) := rfl

/-- What putting the blocks `L` in the queue `q` with flags `queued` gave `r`: the blocks `added`
at the back of the queue, flagged, and every block of `L` flagged. -/
structure Enqueued (L q : List Nat) (queued : Array Bool) (added : List Nat)
    (r : List Nat × Array Bool) : Prop where
  queue_eq : r.1 = q ++ added
  length_le : added.length ≤ L.length
  mem_of_added : ∀ b ∈ added, b ∈ L
  size_eq : r.2.size = queued.size
  flagged_iff : ∀ b, r.2.getD b true = true ↔ queued.getD b true = true ∨ b ∈ added
  flagged_of_mem : ∀ b ∈ L, r.2.getD b true = true

theorem enqueued_foldl (L : List Nat) :
    ∀ q queued, ∃ added, Enqueued L q queued added (L.foldl enqueueStep (q, queued)) := by
  induction L with
  | nil =>
    intro q queued
    exact ⟨[], by simp, by simp, by simp, rfl, by simp, by simp⟩
  | cons x L ih =>
    intro q queued
    by_cases hx : queued.getD x true = true
    · -- already flagged: nothing to add for `x`
      obtain ⟨added, h⟩ := ih q queued
      have hstep : enqueueStep (q, queued) x = (q, queued) := by simp [enqueueStep, hx]
      refine ⟨added, ?_, ?_, ?_, ?_, ?_, ?_⟩
      · rw [List.foldl_cons, hstep]; exact h.queue_eq
      · have := h.length_le; simp; omega
      · intro b hb; exact List.mem_cons_of_mem _ (h.mem_of_added b hb)
      · rw [List.foldl_cons, hstep]; exact h.size_eq
      · rw [List.foldl_cons, hstep]; exact h.flagged_iff
      · intro b hb
        rw [List.foldl_cons, hstep]
        rcases List.mem_cons.mp hb with rfl | hb
        · exact (h.flagged_iff b).mpr (.inl hx)
        · exact h.flagged_of_mem b hb
    · -- not flagged, hence inside the array: `x` joins the queue
      have hlt : x < queued.size := by
        by_contra hge
        simp [Array.getD_eq_getD_getElem?, Nat.not_lt.mp hge] at hx
      have hstep : enqueueStep (q, queued) x = (q ++ [x], queued.setIfInBounds x true) := by
        simp [enqueueStep, hx]
      obtain ⟨added, h⟩ := ih (q ++ [x]) (queued.setIfInBounds x true)
      have hflag : ∀ b, (queued.setIfInBounds x true).getD b true = true ↔
          queued.getD b true = true ∨ b = x := by
        intro b
        rw [getD_setIfInBounds]
        by_cases hb : b = x
        · simp [hb, hlt]
        · simp [hb, Ne.symm hb]
      refine ⟨x :: added, ?_, ?_, ?_, ?_, ?_, ?_⟩
      · rw [List.foldl_cons, hstep, h.queue_eq]; simp
      · have := h.length_le; simp; omega
      · intro b hb
        rcases List.mem_cons.mp hb with rfl | hb
        · exact List.mem_cons_self ..
        · exact List.mem_cons_of_mem _ (h.mem_of_added b hb)
      · rw [List.foldl_cons, hstep, h.size_eq]; simp
      · intro b
        rw [List.foldl_cons, hstep, h.flagged_iff, hflag, List.mem_cons]
        tauto
      · intro b hb
        rw [List.foldl_cons, hstep]
        rcases List.mem_cons.mp hb with rfl | hb
        · exact (h.flagged_iff b).mpr (.inl ((hflag b).mpr (.inr rfl)))
        · exact h.flagged_of_mem b hb

theorem enqueued_enqueuePreds (bb : Nat) (q : List Nat) (queued : Array Bool) :
    ∃ added, Enqueued (p.graph.preds bb) q queued added (p.enqueuePreds bb q queued) := by
  rw [enqueuePreds_eq]
  exact enqueued_foldl _ q queued

theorem drain_cons (fuel bb : Nat) (q : List Nat) (queued : Array Bool) (st : Flow p.n) :
    p.drain (fuel + 1) (bb :: q) queued st =
      if (p.update st bb).1 then
        p.drain fuel (p.enqueuePreds bb q (queued.setIfInBounds bb false)).1
          (p.enqueuePreds bb q (queued.setIfInBounds bb false)).2 (p.update st bb).2
      else p.drain fuel q (queued.setIfInBounds bb false) (p.update st bb).2 := rfl

variable (p) in
/-- The invariant of the worklist: every flagged block is queued, and the equations of every
block out of the queue hold. -/
structure Queue (q : List Nat) (queued : Array Bool) (st : Flow p.n) : Prop where
  approx : Approx p st
  size_eq : queued.size = p.graph.blockCount
  lt_of_mem : ∀ b ∈ q, b < p.graph.blockCount
  mem_of_flagged : ∀ b < p.graph.blockCount, queued.getD b true = true → b ∈ q
  holds : ∀ b < p.graph.blockCount, b ∉ q → Holds p st b

theorem flagged_unflag {queued : Array Bool} {b : Nat} (hb : b ≠ bb) :
    (queued.setIfInBounds bb false).getD b true = queued.getD b true := by
  rw [getD_setIfInBounds, if_neg (fun h => hb h.1.symm)]

/-- A step of the worklist whose update changed nothing: the block leaves the queue and its
equations hold. -/
theorem queue_of_not_fst (hwf : p.graph.WellFormed) {q : List Nat} {queued : Array Bool}
    (hq : Queue p (bb :: q) queued st) (hc : (p.update st bb).1 = false) :
    Queue p q (queued.setIfInBounds bb false) (p.update st bb).2 where
  approx := approx_update hwf hq.approx bb
  size_eq := by simp [hq.size_eq]
  lt_of_mem b hb := hq.lt_of_mem b (List.mem_cons_of_mem _ hb)
  mem_of_flagged b hb hf := by
    by_cases hbe : b = bb
    · subst hbe
      simp [hq.size_eq, hb] at hf
    · rw [flagged_unflag hbe] at hf
      exact (List.mem_cons.mp (hq.mem_of_flagged b hb hf)).resolve_left hbe
  holds b hb hbq := by
    have hbb := hq.lt_of_mem bb (List.mem_cons_self ..)
    by_cases hbe : b = bb
    · subst hbe
      exact holds_update_self (hq.approx.ins_size ▸ hbb) (hq.approx.outs_size ▸ hbb) (.inr hc)
    · have hh := hq.holds b hb (by simp [hbe, hbq])
      exact holds_update_other hbe hh (.inr hc)

/-- A step of the worklist whose update grew the live-in set: the predecessors, the only blocks
whose equations may have broken, are all queued afterwards. -/
theorem queue_of_fst (hwf : p.graph.WellFormed) {q : List Nat} {queued : Array Bool}
    (hq : Queue p (bb :: q) queued st) {added : List Nat}
    (he : Enqueued (p.graph.preds bb) q (queued.setIfInBounds bb false) added
      (p.enqueuePreds bb q (queued.setIfInBounds bb false))) :
    Queue p (p.enqueuePreds bb q (queued.setIfInBounds bb false)).1
      (p.enqueuePreds bb q (queued.setIfInBounds bb false)).2 (p.update st bb).2 := by
  have hbb := hq.lt_of_mem bb (List.mem_cons_self ..)
  have hflag : ∀ b < p.graph.blockCount,
      (p.enqueuePreds bb q (queued.setIfInBounds bb false)).2.getD b true = true →
        b ∈ (p.enqueuePreds bb q (queued.setIfInBounds bb false)).1 := by
    intro b hb hf
    rw [he.queue_eq, List.mem_append]
    rcases (he.flagged_iff b).mp hf with hf | hf
    · by_cases hbe : b = bb
      · subst hbe
        simp [hq.size_eq, hb] at hf
      · rw [flagged_unflag hbe] at hf
        exact .inl ((List.mem_cons.mp (hq.mem_of_flagged b hb hf)).resolve_left hbe)
    · exact .inr hf
  -- every predecessor of the block updated is queued
  have hpred : ∀ b ∈ p.graph.preds bb,
      b ∈ (p.enqueuePreds bb q (queued.setIfInBounds bb false)).1 := fun b hb =>
    hflag b (hwf.pred_lt bb hbb b hb) (he.flagged_of_mem b hb)
  refine ⟨approx_update hwf hq.approx bb, ?_, ?_, hflag, ?_⟩
  · rw [he.size_eq]; simp [hq.size_eq]
  · intro b hb
    rw [he.queue_eq, List.mem_append] at hb
    rcases hb with hb | hb
    · exact hq.lt_of_mem b (List.mem_cons_of_mem _ hb)
    · exact hwf.pred_lt bb hbb b (he.mem_of_added b hb)
  · intro b hb hbq
    have hsucc : bb ∉ p.graph.succs b := fun hs => hbq (hpred b (hwf.pred_of_succ b hb bb hs))
    by_cases hbe : b = bb
    · subst hbe
      exact holds_update_self (hq.approx.ins_size ▸ hbb) (hq.approx.outs_size ▸ hbb)
        (.inl hsucc)
    · have hbq' : b ∉ bb :: q := by
        rw [he.queue_eq, List.mem_append, not_or] at hbq
        simp [hbe, hbq.1]
      exact holds_update_other hbe (hq.holds b hb hbq') (.inl hsucc)

/-- The worklist stops with every equation holding, given fuel above the measure
`(members still missing) * K + (queue length)`, where `K` exceeds the number of predecessors of
any block: an update that changes nothing shortens the queue, and one that adds a member
lengthens it by less than `K`. -/
theorem drain_spec (hwf : p.graph.WellFormed) {K : Nat}
    (hK : ∀ bb < p.graph.blockCount, (p.graph.preds bb).length < K) :
    ∀ fuel (q : List Nat) (queued : Array Bool) (st : Flow p.n), Queue p q queued st →
      (p.graph.blockCount * p.n - weight p st) * K + q.length < fuel →
      Approx p (p.drain fuel q queued st) ∧
        ∀ bb < p.graph.blockCount, Holds p (p.drain fuel q queued st) bb := by
  intro fuel
  induction fuel with
  | zero => intro q queued st _ hm; omega
  | succ fuel ih =>
    intro q queued st hq hm
    cases q with
    | nil => exact ⟨hq.approx, fun bb hbb => hq.holds bb hbb List.not_mem_nil⟩
    | cons bb q =>
      have hbb := hq.lt_of_mem bb (List.mem_cons_self ..)
      have hw₁ := weight_le (p.update st bb).2
      rw [drain_cons]
      by_cases hc : (p.update st bb).1 = true
      · rw [if_pos hc]
        obtain ⟨added, he⟩ :=
          enqueued_enqueuePreds (p := p) bb q (queued.setIfInBounds bb false)
        have hlt := weight_lt_update hbb (hq.approx.ins_size ▸ hbb) hc
        have hadd : added.length < K := lt_of_le_of_lt he.length_le (hK bb hbb)
        -- one member fewer to add pays for the predecessors queued
        have hmul : (p.graph.blockCount * p.n - weight p (p.update st bb).2 + 1) * K ≤
            (p.graph.blockCount * p.n - weight p st) * K :=
          Nat.mul_le_mul_right K (by omega)
        apply ih _ _ _ (queue_of_fst hwf hq he)
        rw [he.queue_eq, List.length_append]
        simp only [List.length_cons, Nat.add_mul, Nat.one_mul] at hm hmul
        omega
      · rw [if_neg hc]
        have hmul : (p.graph.blockCount * p.n - weight p (p.update st bb).2) * K ≤
            (p.graph.blockCount * p.n - weight p st) * K :=
          Nat.mul_le_mul_right K (Nat.sub_le_sub_left weight_le_update _)
        apply ih _ _ _ (queue_of_not_fst hwf hq (by simpa using hc))
        simp only [List.length_cons] at hm
        omega

theorem queue_start :
    Queue p p.backwardOrder (Array.replicate p.graph.blockCount true) p.start where
  approx := approx_start
  size_eq := by simp
  lt_of_mem _ hb := mem_backwardOrder.mp hb
  mem_of_flagged _ hb _ := mem_backwardOrder.mpr hb
  holds _ hb hbq := absurd (mem_backwardOrder.mpr hb) hbq

/-- The fuel `solve` gives a loop of sweeps exceeds the members any state still misses. -/
theorem lt_growthBound_succ_add (st : Flow p.n) :
    p.graph.blockCount * p.n < p.growthBound + 1 + weight p st := by
  simp only [growthBound]
  omega

/-- No block has as many predecessors as the factor of the worklist's fuel: one more than the
blocks and the predecessor entries. -/
theorem length_preds_lt_worklist : ∀ bb < p.graph.blockCount, (p.graph.preds bb).length <
    p.graph.blockCount + p.graph.blocks.foldl (fun m b => m + b.preds.length) 0 + 1 :=
  fun bb hbb => by have := p.graph.length_preds_le hbb; omega

/-- The fuel `solve` gives the worklist exceeds the measure of `drain_spec` at the start. -/
theorem worklist_measure_lt :
    (p.graph.blockCount * p.n - weight p p.start) *
        (p.graph.blockCount + p.graph.blocks.foldl (fun m b => m + b.preds.length) 0 + 1) +
      p.backwardOrder.length <
    (p.growthBound + 1) *
      (p.graph.blockCount + p.graph.blocks.foldl (fun m b => m + b.preds.length) 0 + 1) := by
  have hmul := Nat.mul_le_mul_right
    (p.graph.blockCount + p.graph.blocks.foldl (fun m b => m + b.preds.length) 0 + 1)
    (Nat.sub_le (p.graph.blockCount * p.n) (weight p p.start))
  rw [length_backwardOrder]
  simp only [growthBound, Nat.add_mul, Nat.one_mul] at hmul ⊢
  omega

/-- Whatever the schedule, and whatever the split into components, the fixpoint stops in a state
where every equation holds, below every closed family. -/
theorem solveWith_spec (hwf : p.graph.WellFormed) (sccs : FlowGraph → List (List Nat)) :
    Approx p (p.solveWith sccs) ∧ ∀ bb < p.graph.blockCount, Holds p (p.solveWith sccs) bb := by
  have horder : ∀ b, b ∈ p.backwardOrder ↔ b < p.graph.blockCount :=
    fun _ => mem_backwardOrder
  simp only [solveWith]
  split
  · -- sweeps from the start
    exact sweepAll_spec hwf horder _ _ approx_start (lt_growthBound_succ_add _)
  · -- the worklist: `K` is one more than the number of blocks and of predecessor entries
    exact drain_spec hwf length_preds_lt_worklist _ _ _ _ queue_start worklist_measure_lt
  · -- settling the components keeps the invariant, and the sweeps finish
    have ha : ∀ cs : List (List Nat), ∀ st : Flow p.n, Approx p st →
        Approx p (cs.foldl (fun st c => p.settle (descending c) (p.growthBound + 1) st) st) := by
      intro cs
      induction cs with
      | nil => intro st ha; exact ha
      | cons c cs ih => intro st ha; exact ih _ (approx_settle hwf _ _ ha)
    exact sweepAll_spec hwf horder _ _ (ha _ _ approx_start) (lt_growthBound_succ_add _)

theorem solve_spec (hwf : p.graph.WellFormed) :
    Approx p p.solve ∧ ∀ bb < p.graph.blockCount, Holds p p.solve bb :=
  solveWith_spec hwf FlowGraph.components

/-! ### The verification pass -/

/-- A loop whose body goes on at every element runs to its end. -/
theorem forIn_unit_eq_ok {ε α : Type} (l : List α)
    (f : α → Unit → Except ε (ForInStep Unit))
    (h : ∀ x ∈ l, f x () = .ok (.yield ())) : forIn l () f = .ok () := by
  induction l with
  | nil => rfl
  | cons x l ih =>
    rw [List.forIn_cons, h x (List.mem_cons_self ..)]
    exact ih fun y hy => h y (List.mem_cons_of_mem _ hy)

/-- The verification pass accepts every solution of the equations. -/
theorem check_eq_ok
    (h : p.graph.Solves p.alwaysLive.toSet p.transfer st.liveIn st.liveOut) :
    p.check st = .ok () := by
  unfold check
  rw [forIn_unit_eq_ok]
  · rfl
  intro bb hbb
  replace hbb := List.mem_range.mp hbb
  have hout : st.outs.getD bb .empty =
      (p.graph.succs bb).foldl (fun acc s => acc ∪ st.ins.getD s .empty) p.alwaysLive := by
    apply OperandSet.eq_of_toSet_eq
    rw [toSet_foldl_union]
    exact h.out_eq bb hbb
  have hin : st.ins.getD bb .empty = (p.summaries.getD bb .id).apply
      ((p.graph.succs bb).foldl (fun acc s => acc ∪ st.ins.getD s .empty) p.alwaysLive) ∪
        p.alwaysLive := by
    apply OperandSet.eq_of_toSet_eq
    rw [OperandSet.toSet_union, Summary.toSet_apply, ← hout, Set.union_comm]
    exact h.in_eq bb hbb
  simp [hout, hin]
  rfl

/-! ### The analysis -/

theorem transfer_eq_blockTransfer (hp : p.Prepared g d) {bb : Nat} (hbb : bb < g.blockCount) :
    p.transfer bb = g.blockTransfer d p.alwaysLive.toSet bb :=
  funext fun X => hp.applySet_summary bb hbb X

/-- The fixpoint of a prepared problem is the least solution of the equations of its graph,
whatever the split into components. -/
theorem isLeastSolution_solveWith (hp : p.Prepared g d) (sccs : FlowGraph → List (List Nat)) :
    g.IsLeastSolution p.alwaysLive.toSet (g.blockTransfer d p.alwaysLive.toSet)
      (p.solveWith sccs).liveIn (p.solveWith sccs).liveOut := by
  have hwf : p.graph.WellFormed := hp.graph_eq ▸ hp.wellFormed
  obtain ⟨ha, hh⟩ := solveWith_spec hwf sccs
  have hl := isLeastSolution_of_approx hwf ha hh
  rw [hp.graph_eq] at hl
  exact (FlowGraph.isLeastSolution_congr fun bb hbb => transfer_eq_blockTransfer hp hbb).mp hl

theorem isLeastSolution_solve (hp : p.Prepared g d) :
    g.IsLeastSolution p.alwaysLive.toSet (g.blockTransfer d p.alwaysLive.toSet)
      p.solve.liveIn p.solve.liveOut :=
  isLeastSolution_solveWith hp FlowGraph.components

end Problem

namespace Liveness

variable {lv : Liveness} {bb : Nat}

theorem liveIn_eq_ok (hbb : bb < lv.blockCount) :
    lv.liveIn bb = .ok (lv.flow.ins.getD bb .empty) := by
  simp [liveIn, blockIndex, hbb]

theorem liveOut_eq_ok (hbb : bb < lv.blockCount) :
    lv.liveOut bb = .ok (lv.flow.outs.getD bb .empty) := by
  simp [liveOut, blockIndex, hbb]

variable (lv) in
/-- The live-in and live-out sets that `lv` reports for the blocks of its graph are `I` and `O`. -/
def Reports (I O : ℕ → Set ℕ) : Prop :=
  ∀ bb < lv.blockCount, (∃ X, lv.liveIn bb = .ok X ∧ X.toSet = I bb) ∧
    (∃ Y, lv.liveOut bb = .ok Y ∧ Y.toSet = O bb)

theorem reports_flow : lv.Reports lv.flow.liveIn lv.flow.liveOut :=
  fun _ hbb => ⟨⟨_, liveIn_eq_ok hbb, rfl⟩, ⟨_, liveOut_eq_ok hbb, rfl⟩⟩

end Liveness

namespace Problem

variable {rg : RawGraph} {g : FlowGraph} {d : Decoder} {o : Options} {n : Nat}

/-- Under the analysis' preconditions the analysis succeeds, whatever the split into components,
with the fixpoint of the prepared problem: the verification pass, if asked for, accepts it. -/
theorem analyzeWith_eq_ok (sccs : FlowGraph → List (List Nat)) (hg : rg.validate = .ok g)
    (hn : o.operandCount = some n) (hal : ∀ r ∈ o.alwaysLive, r < n)
    (hd : d.Decodes g.instrCount n) :
    ∃ p, p.Prepared g d ∧ p.alwaysLive.toSet = {r | r ∈ o.alwaysLive} ∧
      p.check (p.solveWith sccs) = .ok () ∧
      Liveness.analyzeWith sccs rg d o = .ok ⟨p, p.solveWith sccs⟩ := by
  obtain ⟨p, hprep, hp, -, hal', -, -⟩ := prepare_eq_ok hg hn hal hd
  have hsol := isLeastSolution_solveWith hp sccs
  have hcheck : p.check (p.solveWith sccs) = .ok () := by
    apply check_eq_ok
    rw [hp.graph_eq, FlowGraph.solves_congr fun bb hbb => transfer_eq_blockTransfer hp hbb]
    exact hsol.1
  refine ⟨p, hp, hal', hcheck, ?_⟩
  rw [Liveness.analyzeWith, hprep, except_ok_bind]
  split
  · simp only [hcheck]; rfl
  · rfl

theorem analyze_eq_ok (hg : rg.validate = .ok g) (hn : o.operandCount = some n)
    (hal : ∀ r ∈ o.alwaysLive, r < n) (hd : d.Decodes g.instrCount n) :
    ∃ p, p.Prepared g d ∧ p.alwaysLive.toSet = {r | r ∈ o.alwaysLive} ∧
      p.check p.solve = .ok () ∧ Liveness.analyze rg d o = .ok ⟨p, p.solve⟩ :=
  analyzeWith_eq_ok FlowGraph.components hg hn hal hd

end Problem


/-- The liveness of a validated graph: whatever the schedule, the analysis succeeds and reports
the least solution of the liveness equations, where a block's transfer composes the transfers
of its instructions from the last down to the first. So every schedule reports the same sets,
and the verification pass accepts them. -/
theorem analyze_least_solution {rg : RawGraph} {g : FlowGraph} {d : Decoder} {o : Options}
    {n : Nat} (hg : rg.validate = .ok g) (hn : o.operandCount = some n)
    (hal : ∀ r ∈ o.alwaysLive, r < n) (hd : d.Decodes g.instrCount n) :
    ∃ I O, g.IsLeastSolution {r | r ∈ o.alwaysLive}
        (g.blockTransfer d {r | r ∈ o.alwaysLive}) I O ∧
      ∀ s : Schedule, ∃ lv, Liveness.analyze rg d { o with schedule := s } = .ok lv ∧
        lv.graph = g ∧ lv.Reports I O ∧ lv.problem.check lv.flow = .ok () := by
  obtain ⟨p, hp, hal', -, -⟩ := Problem.analyze_eq_ok hg hn hal hd
  have hleast := Problem.isLeastSolution_solve hp
  rw [hal'] at hleast
  refine ⟨p.solve.liveIn, p.solve.liveOut, hleast, fun s => ?_⟩
  -- the analysis with schedule `s` reaches a least solution too, hence the same one
  have hn' : ({ o with schedule := s } : Options).operandCount = some n := hn
  obtain ⟨q, hq, hqal, hcheck, han⟩ := Problem.analyze_eq_ok hg hn' hal hd
  have hleast' := Problem.isLeastSolution_solve hq
  rw [hqal] at hleast'
  refine ⟨⟨q, q.solve⟩, han, hq.graph_eq, fun bb hbb => ?_, hcheck⟩
  have hbb' : bb < g.blockCount := hq.graph_eq ▸ hbb
  obtain ⟨hi, ho⟩ := hleast'.eq hleast bb hbb'
  exact ⟨⟨_, Liveness.liveIn_eq_ok hbb, hi⟩, ⟨_, Liveness.liveOut_eq_ok hbb, ho⟩⟩

/-- Two blocks in a loop, each defining the operand the other uses, as a caller describes them. -/
def swapLoop : RawGraph := ⟨#[⟨0, 1, [1], [1]⟩, ⟨1, 2, [0], [0]⟩], 2⟩

/-- The graph `swapLoop` checks to. -/
def swapLoopGraph : FlowGraph := ⟨#[⟨0, 1, [1], [1]⟩, ⟨1, 2, [0], [0]⟩], 2⟩

/-- The decoder of `swapLoop`: offset 0 defines operand 0 and uses 1, offset 1 the reverse. -/
def swapDecoder : Decoder := fun pc => if pc = 0 then .ok ⟨[0], [1]⟩ else .ok ⟨[1], [0]⟩

theorem analyze_least_solution_swapLoop :
    swapLoop.validate = .ok swapLoopGraph ∧ swapDecoder.Decodes 2 2 ∧
      ∃ I O, swapLoopGraph.IsLeastSolution ∅ (swapLoopGraph.blockTransfer swapDecoder ∅) I O ∧
        ∀ s : Schedule, ∃ lv, Liveness.analyze swapLoop swapDecoder
            { operandCount := some 2, schedule := s, verify := true } = .ok lv ∧
          lv.graph = swapLoopGraph ∧ lv.Reports I O ∧ lv.problem.check lv.flow = .ok () := by
  have hg : swapLoop.validate = .ok swapLoopGraph := by cbv
  have hd : swapDecoder.Decodes 2 2 := by
    intro pc _
    by_cases h : pc = 0 <;> simp [swapDecoder, h]
  refine ⟨hg, hd, ?_⟩
  have hn : ({ operandCount := some 2, verify := true } : Options).operandCount = some 2 := rfl
  simpa using analyze_least_solution hg hn (fun r hr => by simp at hr) hd

end RegisterLiveness
