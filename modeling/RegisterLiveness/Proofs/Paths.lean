import RegisterLiveness.Proofs.Fixpoint

/-!
# Liveness along instruction paths

The textbook definition of may-liveness: an operand is live before an instruction when it is
always live, or when some instruction path from there uses it before any instruction of the path
defines it. Inside a block an instruction is followed by the next one; after the last
instruction of a block come the first instructions of the non-empty blocks that follow it,
possibly through empty blocks (`InstrSucc`).

The path-defined sets solve the liveness equations (`solves_livePath`), and every closed family
holds them (`mem_transferRange_of_livePath`), so they are the least solution; replaying a block
of the least solution backward down to an instruction gives exactly the path-defined set there
(`transferRange_eq_livePath`). The query for the live set at an instruction does that replay.
-/

namespace RegisterLiveness

namespace Access

theorem mem_liveBefore_of_mem_al {al : Set ℕ} {a : Access} {X : Set ℕ} {r : ℕ} (hX : r ∈ X)
    (hr : r ∈ al) : r ∈ a.liveBefore al X :=
  .inl ⟨hX, .inr hr⟩

end Access

namespace Decoder

variable {d : Decoder} {al : Set ℕ}

theorem transferRange_of_le {lo hi : Nat} (h : hi ≤ lo) (X : Set ℕ) :
    d.transferRange al lo hi X = X := by
  simp [transferRange, Nat.sub_eq_zero_of_le h]

/-- A range transfers through its first instruction last. -/
theorem transferRange_of_lt {lo hi : Nat} (h : lo < hi) (X : Set ℕ) :
    d.transferRange al lo hi X =
      (d.accessAt lo).liveBefore al (d.transferRange al (lo + 1) hi X) := by
  have hr : List.range' lo (hi - lo) = lo :: List.range' (lo + 1) (hi - (lo + 1)) := by
    rw [show hi - lo = (hi - (lo + 1)) + 1 by omega, List.range'_succ]
  simp only [transferRange, hr, List.foldr_cons]

theorem transferRange_mono (lo hi : Nat) {X Y : Set ℕ} (h : X ⊆ Y) :
    d.transferRange al lo hi X ⊆ d.transferRange al lo hi Y := by
  induction h' : hi - lo generalizing lo with
  | zero => rw [transferRange_of_le (by omega), transferRange_of_le (by omega)]; exact h
  | succ k ih =>
    have hlt : lo < hi := by omega
    rw [transferRange_of_lt hlt X, transferRange_of_lt hlt Y]
    exact Access.liveBefore_mono _ _ (ih (lo + 1) (by omega))

theorem al_subset_transferRange (lo hi : Nat) {X : Set ℕ} (h : al ⊆ X) :
    al ⊆ d.transferRange al lo hi X := by
  induction h' : hi - lo generalizing lo with
  | zero => rw [transferRange_of_le (by omega)]; exact h
  | succ k ih =>
    rw [transferRange_of_lt (by omega : lo < hi)]
    exact fun r hr => Access.mem_liveBefore_of_mem_al (ih (lo + 1) (by omega) hr) hr

end Decoder

namespace FlowGraph

variable (g : FlowGraph)

/-- Block `c` follows block `b` through successor edges whose intermediate blocks are all empty:
`b → e₁ → ⋯ → eₘ → c` with `m ≥ 0`. -/
inductive EmptyReach : Nat → Nat → Prop
  | succ {b c : Nat} : b < g.blockCount → c ∈ g.succs b → EmptyReach b c
  | skip {b e c : Nat} : b < g.blockCount → e ∈ g.succs b → (g.block e).start = (g.block e).stop →
      EmptyReach e c → EmptyReach b c

/-- The instruction successors: the next instruction of the same block, and, after the last
instruction of a block, the first instruction of every non-empty block that follows it through
empty blocks. -/
inductive InstrSucc : Nat → Nat → Prop
  | next {b p : Nat} : g.Owns b p → p + 1 < (g.block b).stop → InstrSucc p (p + 1)
  | exit {b c p : Nat} : g.Owns b p → p + 1 = (g.block b).stop → g.EmptyReach b c →
      (g.block c).start < (g.block c).stop → InstrSucc p (g.block c).start

/-- Operand `r` is used on some instruction path from `p` before any instruction of the path
defines it. -/
inductive LivePath (d : Decoder) (r : Nat) : Nat → Prop
  | use {p : Nat} : (r : Int) ∈ (d.accessAt p).uses → LivePath d r p
  | step {p q : Nat} : (r : Int) ∉ (d.accessAt p).defs → g.InstrSucc p q → LivePath d r q →
      LivePath d r p

/-- The operands live after the last instruction of block `b` by the path definition: the
always-live ones, and those live on a path from the first instruction of a non-empty block that
follows `b` through empty blocks. -/
def exitLive (d : Decoder) (al : Set ℕ) (b : Nat) : Set ℕ :=
  al ∪ {r | ∃ c, g.EmptyReach b c ∧ (g.block c).start < (g.block c).stop ∧
    g.LivePath d r (g.block c).start}

variable {g} {d : Decoder} {al : Set ℕ}

/-- One instruction's transfer keeps the path definition: an operand live after `p` by a path
from one of its successors is live before `p` by a path, unless `p` defines it. -/
theorem liveBefore_subset_livePath {p : Nat} {Y : Set ℕ}
    (hY : ∀ r ∈ Y, r ∈ al ∨ ∃ q, g.InstrSucc p q ∧ g.LivePath d r q) :
    (d.accessAt p).liveBefore al Y ⊆ al ∪ {r | g.LivePath d r p} := by
  rintro r (⟨hr, hd⟩ | hu)
  · rcases hd with hd | hal
    · rcases hY r hr with hal | ⟨q, hq, hpath⟩
      · exact .inl hal
      · exact .inr (LivePath.step hd hq hpath)
    · exact .inl hal
  · exact .inr (LivePath.use hu)

/-- Replaying a block from the path-defined exit set gives at most the path-defined set. -/
theorem transferRange_exitLive_subset {b p : Nat} (hp : g.Owns b p) :
    d.transferRange al p (g.block b).stop (g.exitLive d al b) ⊆ al ∪ {r | g.LivePath d r p} := by
  induction h : (g.block b).stop - p generalizing p with
  | zero => exact absurd hp.2.2 (by omega)
  | succ k ih =>
    rw [Decoder.transferRange_of_lt hp.2.2]
    apply liveBefore_subset_livePath
    intro r hr
    by_cases hlast : p + 1 = (g.block b).stop
    · -- past the last instruction: the exit set of the block
      rw [hlast, Decoder.transferRange_of_le le_rfl] at hr
      rcases hr with hal | ⟨c, hc, hne, hpath⟩
      · exact .inl hal
      · exact .inr ⟨_, .exit hp hlast hc hne, hpath⟩
    · have hp' : g.Owns b (p + 1) := ⟨hp.1, by have := hp.2.1; omega, by have := hp.2.2; omega⟩
      rcases ih hp' (by omega) hr with hal | hpath
      · exact .inl hal
      · exact .inr ⟨_, .next hp hp'.2.2, hpath⟩

/-- The operands live before the first instruction of block `b` by the path definition; for an
empty block, those live after it. -/
def entryLive (g : FlowGraph) (d : Decoder) (al : Set ℕ) (b : Nat) : Set ℕ :=
  if (g.block b).start < (g.block b).stop then al ∪ {r | g.LivePath d r (g.block b).start}
  else g.exitLive d al b

theorem blockTransfer_eq (b : Nat) (X : Set ℕ) :
    g.blockTransfer d al b X = d.transferRange al (g.block b).start (g.block b).stop X := rfl

section Closed

variable {I O : ℕ → Set ℕ} (wf : g.WellFormed) (hc : g.Closed al (g.blockTransfer d al) I O)
include wf hc

/-- In a closed family, what enters a block reached through empty blocks leaves the block
reaching it. -/
theorem subset_of_emptyReach {b c : Nat} (h : g.EmptyReach b c) :
    c < g.blockCount ∧ I c ⊆ O b := by
  induction h with
  | succ hb hs => exact ⟨wf.succ_lt _ hb _ hs, hc.succ_out _ hb _ hs⟩
  | @skip b e c hb he hempty _ ih =>
    have hlt := wf.succ_lt _ hb _ he
    -- an empty block passes its live-out set through unchanged
    have hpass : O e ⊆ I e := by
      have := hc.transfer_in _ hlt
      rwa [blockTransfer_eq, Decoder.transferRange_of_le hempty.ge] at this
    exact ⟨ih.1, ih.2.trans (hpass.trans (hc.succ_out _ hb _ he))⟩

/-- Every closed family holds the operands live by a path: the replay of a block from its
live-out set contains them. -/
theorem mem_transferRange_of_livePath {r p : Nat} (hpath : g.LivePath d r p) :
    ∀ {b}, g.Owns b p → r ∈ d.transferRange al p (g.block b).stop (O b) := by
  induction hpath with
  | use hu =>
    intro b hb
    rw [Decoder.transferRange_of_lt hb.2.2]
    exact .inr hu
  | @step p q hd hq _ ih =>
    intro b hb
    rw [Decoder.transferRange_of_lt hb.2.2]
    refine .inl ⟨?_, .inl hd⟩
    cases hq with
    | next hb' hnext =>
      obtain rfl := wf.owner_unique hb hb'
      exact ih ⟨hb.1, by have := hb.2.1; omega, hnext⟩
    | @exit b' c _ hb' hlast hreach hne =>
      obtain rfl := wf.owner_unique hb hb'
      obtain ⟨hclt, hsub⟩ := subset_of_emptyReach wf hc hreach
      have hin : r ∈ I c := hc.transfer_in c hclt (ih ⟨hclt, le_rfl, hne⟩)
      rw [hlast, Decoder.transferRange_of_le le_rfl]
      exact hsub hin

/-- Every closed family holds the path-defined exit set of a block. -/
theorem exitLive_subset {b : Nat} (hb : b < g.blockCount) : g.exitLive d al b ⊆ O b := by
  rintro r (hal | ⟨c, hreach, hne, hpath⟩)
  · exact hc.al_out b hb hal
  · obtain ⟨hclt, hsub⟩ := subset_of_emptyReach wf hc hreach
    exact hsub (hc.transfer_in c hclt (mem_transferRange_of_livePath wf hc hpath ⟨hclt, le_rfl, hne⟩))

end Closed

theorem closed_livePath (wf : g.WellFormed) :
    g.Closed al (g.blockTransfer d al) (g.entryLive d al) (g.exitLive d al) where
  al_out _ _ := Set.subset_union_left
  succ_out b hb s hs := by
    unfold entryLive
    split
    · rintro r (hal | hpath)
      · exact .inl hal
      · exact .inr ⟨s, .succ hb hs, by assumption, hpath⟩
    · rintro r (hal | ⟨c, hreach, hne, hpath⟩)
      · exact .inl hal
      · have hempty : (g.block s).start = (g.block s).stop :=
          le_antisymm (wf.start_le_stop s (wf.succ_lt b hb s hs)) (by omega)
        exact .inr ⟨c, .skip hb hs hempty hreach, hne, hpath⟩
  al_in b _ := by
    unfold entryLive
    split
    · exact Set.subset_union_left
    · exact Set.subset_union_left
  transfer_in b hb := by
    unfold entryLive
    split
    · exact transferRange_exitLive_subset ⟨hb, le_rfl, by assumption⟩
    · rw [blockTransfer_eq, Decoder.transferRange_of_le (by omega)]

/-- The path-defined sets solve the liveness equations. -/
theorem solves_livePath (wf : g.WellFormed) :
    g.Solves al (g.blockTransfer d al) (g.entryLive d al) (g.exitLive d al) where
  out_eq b hb := by
    apply Set.Subset.antisymm
    · rintro r (hal | ⟨c, hreach, hne, hpath⟩)
      · exact .inl hal
      · -- the first block on the way from `b` to `c` is a successor of `b`
        cases hreach with
        | succ _ hs =>
          refine .inr ⟨c, hs, ?_⟩
          simp only [entryLive, if_pos hne]
          exact .inr hpath
        | @skip _ e _ _ he hempty hreach =>
          refine .inr ⟨e, he, ?_⟩
          simp only [entryLive, hempty, lt_irrefl, if_false]
          exact .inr ⟨c, hreach, hne, hpath⟩
    · exact Set.union_subset Set.subset_union_left
        fun r ⟨s, hs, hr⟩ => (closed_livePath wf).succ_out b hb s hs hr
  in_eq b hb := by
    unfold entryLive
    split
    · rename_i hne
      -- a path from the first instruction is found again by replaying the block
      have hsub : {r | g.LivePath d r (g.block b).start} ⊆
          g.blockTransfer d al b (g.exitLive d al b) := fun r hr =>
        mem_transferRange_of_livePath wf (closed_livePath wf) hr ⟨hb, le_rfl, hne⟩
      apply Set.Subset.antisymm
      · exact Set.union_subset_union_right al hsub
      · exact Set.union_subset Set.subset_union_left
          (transferRange_exitLive_subset ⟨hb, le_rfl, hne⟩)
    · rw [blockTransfer_eq, Decoder.transferRange_of_le (by omega), exitLive,
        ← Set.union_assoc, Set.union_self]

/-- The least solution, replayed backward through a block down to instruction `p`, gives exactly
the always-live operands and those live at `p` by the path definition. -/
theorem transferRange_eq_livePath (wf : g.WellFormed) {I O : ℕ → Set ℕ}
    (h : g.IsLeastSolution al (g.blockTransfer d al) I O) {b p : Nat} (hp : g.Owns b p) :
    d.transferRange al p (g.block b).stop (O b) = al ∪ {r | g.LivePath d r p} := by
  apply Set.Subset.antisymm
  · have hout : O b ⊆ g.exitLive d al b := (h.2 _ _ (solves_livePath wf) b hp.1).2
    exact (Decoder.transferRange_mono _ _ hout).trans (transferRange_exitLive_subset hp)
  · have hc := h.1.closed
    refine Set.union_subset (Decoder.al_subset_transferRange _ _ (hc.al_out b hp.1)) ?_
    exact fun r hr => mem_transferRange_of_livePath wf hc hr hp

/-- The least solution, replayed backward through a block down to just after instruction `p`,
gives the always-live operands and those live along a path from a successor of `p`. -/
theorem transferRange_succ_eq_livePath (wf : g.WellFormed) {I O : ℕ → Set ℕ}
    (h : g.IsLeastSolution al (g.blockTransfer d al) I O) {b p : Nat} (hp : g.Owns b p) :
    d.transferRange al (p + 1) (g.block b).stop (O b) =
      al ∪ {r | ∃ q, g.InstrSucc p q ∧ g.LivePath d r q} := by
  by_cases hlast : p + 1 = (g.block b).stop
  · -- after the last instruction: the block's live-out set, which is its path-defined exit set
    have hO : O b = g.exitLive d al b := Set.Subset.antisymm
      (h.2 _ _ (solves_livePath wf) b hp.1).2 (exitLive_subset wf h.1.closed hp.1)
    rw [hlast, Decoder.transferRange_of_le le_rfl, hO]
    ext r
    constructor
    · rintro (hal | ⟨c, hreach, hne, hpath⟩)
      · exact .inl hal
      · exact .inr ⟨_, .exit hp hlast hreach hne, hpath⟩
    · rintro (hal | ⟨q, hq, hpath⟩)
      · exact .inl hal
      · cases hq with
        | next hb' hnext =>
          obtain rfl := wf.owner_unique hp hb'
          omega
        | @exit b' c _ hb' _ hreach hne =>
          obtain rfl := wf.owner_unique hp hb'
          exact .inr ⟨c, hreach, hne, hpath⟩
  · have hp' : g.Owns b (p + 1) := ⟨hp.1, by have := hp.2.1; omega, by have := hp.2.2; omega⟩
    rw [transferRange_eq_livePath wf h hp']
    ext r
    constructor
    · rintro (hal | hpath)
      · exact .inl hal
      · exact .inr ⟨p + 1, .next hp hp'.2.2, hpath⟩
    · rintro (hal | ⟨q, hq, hpath⟩)
      · exact .inl hal
      · cases hq with
        | next => exact .inr hpath
        | exit hb' hlast' =>
          obtain rfl := wf.owner_unique hp hb'
          exact absurd hlast' hlast

end FlowGraph

namespace Liveness

variable {lv : Liveness}

theorem liveSetAt_eq_ok (wf : lv.graph.WellFormed) {b pc : Nat} (hp : lv.graph.Owns b pc) :
    lv.liveSetAt pc = .ok (lv.replay pc (lv.graph.block b).stop (lv.flow.outs.getD b .empty)) := by
  simp [liveSetAt, FlowGraph.owner?_eq_some wf hp]

/-- Replaying `[lo, hi)` is the last instruction's step after the replay of the rest. -/
theorem replay_of_lt {lo hi : Nat} (h : lo < hi) (X : OperandSet lv.n) :
    lv.replay lo hi X = lv.problem.step lo (lv.replay (lo + 1) hi X) := by
  have hr : List.range' lo (hi - lo) = lo :: List.range' (lo + 1) (hi - (lo + 1)) := by
    rw [show hi - lo = (hi - (lo + 1)) + 1 by omega, List.range'_succ]
  unfold replay
  rw [hr, List.reverse_cons]
  -- the types of the accumulator agree only up to unfolding `Liveness.n`
  exact List.foldl_append ..

theorem replay_of_le {lo hi : Nat} (h : hi ≤ lo) (X : OperandSet lv.n) : lv.replay lo hi X = X := by
  unfold replay
  rw [Nat.sub_eq_zero_of_le h, List.range'_zero, List.reverse_nil]
  rfl

/-- Replaying a range of instructions of a prepared problem is the composed transfer. -/
theorem toSet_replay {g : FlowGraph} {d : Decoder} (hp : lv.problem.Prepared g d) {lo hi : Nat}
    (hhi : hi ≤ g.instrCount) (X : OperandSet lv.n) :
    (lv.replay lo hi X).toSet = d.transferRange lv.alwaysLive.toSet lo hi X.toSet := by
  induction h : hi - lo generalizing lo with
  | zero => rw [replay_of_le (by omega), Decoder.transferRange_of_le (by omega)]
  | succ k ih =>
    have hlt : lo < hi := by omega
    rw [replay_of_lt hlt, Decoder.transferRange_of_lt hlt, ← ih (by omega)]
    exact hp.toSet_step lo (by omega) _

/-- The live set at an instruction of a prepared problem, as indices: its block's live-out set
replayed backward down to it. -/
theorem liveSetAt_toSet {g : FlowGraph} {d : Decoder} (hp : lv.problem.Prepared g d) {b pc : Nat}
    (hown : g.Owns b pc) : ∃ X, lv.liveSetAt pc = .ok X ∧
      X.toSet = d.transferRange lv.alwaysLive.toSet pc (g.block b).stop (lv.flow.liveOut b) := by
  have hgraph : lv.graph = g := hp.graph_eq
  subst hgraph
  exact ⟨_, liveSetAt_eq_ok hp.wellFormed hown,
    toSet_replay hp (hp.wellFormed.stop_le b hown.1) _⟩

/-- A converged analysis of the graph `g` and decoder `d`, with always-live operands `al`: its
problem is prepared and its block sets are the least solution. -/
structure Solved (lv : Liveness) (g : FlowGraph) (d : Decoder) (al : Set ℕ) : Prop where
  prepared : lv.problem.Prepared g d
  alwaysLive_eq : lv.alwaysLive.toSet = al
  least : g.IsLeastSolution al (g.blockTransfer d al) lv.flow.liveIn lv.flow.liveOut

/-- A converged analysis reports, before every instruction, the always-live operands and those
live along a path. -/
theorem Solved.liveSetAt {g : FlowGraph} {d : Decoder} {al : Set ℕ} (hs : lv.Solved g d al)
    {pc : Nat} (hpc : pc < g.instrCount) :
    ∃ X, lv.liveSetAt pc = .ok X ∧ X.toSet = al ∪ {r | g.LivePath d r pc} := by
  obtain ⟨b, hown⟩ := hs.prepared.wellFormed.covered pc hpc
  obtain ⟨X, hX, hset⟩ := liveSetAt_toSet hs.prepared hown
  refine ⟨X, hX, ?_⟩
  rw [hset, hs.alwaysLive_eq]
  exact FlowGraph.transferRange_eq_livePath hs.prepared.wellFormed hs.least hown

/-- A converged analysis answers `liveSetAt` only at instructions, with the path-defined set. -/
theorem Solved.exists_of_liveSetAt {g : FlowGraph} {d : Decoder} {al : Set ℕ}
    (hs : lv.Solved g d al) {pc : Int} {X : OperandSet lv.n} (h : lv.liveSetAt pc = .ok X) :
    ∃ n : ℕ, pc = n ∧ n < g.instrCount ∧ X.toSet = al ∪ {r | g.LivePath d r n} := by
  have hgraph : lv.graph = g := hs.prepared.graph_eq
  cases hown : lv.graph.owner? pc with
  | none =>
    rw [Liveness.liveSetAt, hown] at h
    cases h
  | some bb =>
    obtain ⟨n, rfl, hn⟩ := FlowGraph.owns_of_owner?_eq_some hown
    subst hgraph
    have hlt : n < lv.graph.instrCount :=
      Nat.lt_of_lt_of_le hn.2.2 (hs.prepared.wellFormed.stop_le bb hn.1)
    obtain ⟨Y, hY, hset⟩ := hs.liveSetAt hlt
    rw [hY] at h
    cases h
    exact ⟨n, rfl, hlt, hset⟩

/-- What holds of every operand a converged analysis reports live at `pc` holds of the
path-defined live set there, and back. -/
theorem Solved.forall_liveSetAt_iff {g : FlowGraph} {d : Decoder} {al : Set ℕ}
    (hs : lv.Solved g d al) {pc : Int} {P : ℕ → Prop} :
    (∀ X, lv.liveSetAt pc = .ok X → ∀ r ∈ X.indices, P r) ↔
      ∀ n : ℕ, pc = n → n < g.instrCount → ∀ r ∈ al ∪ {r | g.LivePath d r n}, P r := by
  constructor
  · rintro h n rfl hn r hr
    obtain ⟨X, hX, hset⟩ := hs.liveSetAt hn
    exact h X hX r (by rw [OperandSet.mem_indices, hset]; exact hr)
  · intro h X hX r hr
    obtain ⟨n, rfl, hn, hset⟩ := hs.exists_of_liveSetAt hX
    exact h n rfl hn r (by rw [← hset]; exact hr)

end Liveness

/-- An analysis of a checked graph with a decoder into the operand universe succeeds for every
schedule and converges to the least solution. -/
theorem Problem.analyze_solved {rg : RawGraph} {g : FlowGraph} {d : Decoder} {o : Options}
    {n : Nat} (hg : rg.validate = .ok g) (hn : o.operandCount = some n)
    (hal : ∀ r ∈ o.alwaysLive, r < n) (hd : d.Decodes g.instrCount n) :
    ∃ lv, Liveness.analyze rg d o = .ok lv ∧ lv.Solved g d {r | r ∈ o.alwaysLive} := by
  obtain ⟨p, hp, hal', -, han⟩ := Problem.analyze_eq_ok hg hn hal hd
  refine ⟨⟨p, p.solve⟩, han, hp, hal', ?_⟩
  rw [← hal']
  exact Problem.isLeastSolution_solve hp

/-- Liveness at an instruction is liveness along paths: for every schedule, the analysis succeeds
and the operands live before any instruction are the always-live ones and those used on some
instruction path from it before any definition. -/
theorem liveSetAt_eq_livePath {rg : RawGraph} {g : FlowGraph} {d : Decoder} {o : Options}
    {n : Nat} (hg : rg.validate = .ok g) (hn : o.operandCount = some n)
    (hal : ∀ r ∈ o.alwaysLive, r < n) (hd : d.Decodes g.instrCount n) :
    ∃ lv, Liveness.analyze rg d o = .ok lv ∧ ∀ pc < g.instrCount, ∃ X, lv.liveSetAt pc = .ok X ∧
      X.toSet = {r | r ∈ o.alwaysLive} ∪ {r | g.LivePath d r pc} := by
  obtain ⟨lv, han, hs⟩ := Problem.analyze_solved hg hn hal hd
  exact ⟨lv, han, fun pc hpc => hs.liveSetAt hpc⟩

theorem liveSetAt_eq_livePath_swapLoop :
    swapLoop.validate = .ok swapLoopGraph ∧ swapDecoder.Decodes 2 2 ∧
      ∃ lv, Liveness.analyze swapLoop swapDecoder { operandCount := some 2 } = .ok lv ∧
        ∀ pc < swapLoopGraph.instrCount, ∃ X, lv.liveSetAt pc = .ok X ∧
          X.toSet = {r | r ∈ ([] : List Nat)} ∪ {r | swapLoopGraph.LivePath swapDecoder r pc} := by
  have hg : swapLoop.validate = .ok swapLoopGraph := by cbv
  have hd : swapDecoder.Decodes 2 2 := by
    intro pc _
    by_cases h : pc = 0 <;> simp [swapDecoder, h]
  have hn : ({ operandCount := some 2 } : Options).operandCount = some 2 := rfl
  refine ⟨hg, hd, ?_⟩
  exact liveSetAt_eq_livePath hg hn (fun r hr => by simp at hr) hd

end RegisterLiveness
