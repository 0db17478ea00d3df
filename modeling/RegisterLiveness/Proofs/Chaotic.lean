import RegisterLiveness.Proofs.Preconditions

/-!
# Updates in any order

Every schedule, and any order a caller imposes, is a sequence of block updates from the starting
state. `Problem.Reaches` collects the states such sequences lead to, whatever the blocks and their
order. The invariant `Approx` holds at the start and after every update, so every reached state
holds the always-live operands and lies below the least solution of the liveness equations; an
update only adds members to the sets, and it reports a change exactly when the live-in set of its
block gained a member. This is what makes chaotic iteration safe: no order of updates can
overshoot the least solution, and the reports of change are a faithful measure of progress.
-/

namespace RegisterLiveness

namespace Problem

variable (p : Problem)

/-- The states that updating blocks one at a time, in any order, leads to from the start. -/
inductive Reaches : Flow p.n → Prop
  | start : Reaches p.start
  | update {st : Flow p.n} {bb : Nat} : Reaches st → bb < p.graph.blockCount →
      Reaches (p.update st bb).2

variable {p}

theorem Reaches.approx (hwf : p.graph.WellFormed) {st : Flow p.n} (h : p.Reaches st) :
    Approx p st := by
  induction h with
  | start => exact approx_start
  | update _ _ ih => exact approx_update hwf ih _

/-- An update of a block with a live-in set reports a change exactly when that set gains a
member. -/
theorem update_fst_iff_gains {st : Flow p.n} {bb : Nat} (hi : bb < st.ins.size) :
    (p.update st bb).1 = true ↔ ∃ r ∈ (p.update st bb).2.liveIn bb, r ∉ st.liveIn bb := by
  have hin : (p.update st bb).2.liveIn bb = st.liveIn bb ∪ p.transfer bb (p.gathered st bb) := by
    simp [liveIn_update, hi]
  rw [update_fst_iff, hin, Set.not_subset]
  constructor
  · rintro ⟨r, hr, hnot⟩
    exact ⟨r, .inr hr, hnot⟩
  · rintro ⟨r, hr | hr, hnot⟩
    · exact absurd hr hnot
    · exact ⟨r, hr, hnot⟩

/-- A least solution of the equations with the decoded block transfers is closed under the
problem's own transfers. -/
theorem closed_of_isLeastSolution {g : FlowGraph} {d : Decoder} (hp : p.Prepared g d)
    {I O : ℕ → Set ℕ}
    (h : g.IsLeastSolution p.alwaysLive.toSet (g.blockTransfer d p.alwaysLive.toSet) I O) :
    p.graph.Closed p.alwaysLive.toSet p.transfer I O := by
  rw [hp.graph_eq]
  apply FlowGraph.Solves.closed
  exact (FlowGraph.solves_congr fun bb hbb => transfer_eq_blockTransfer hp hbb).mpr h.1

end Problem

/-- Chaotic iteration stays below the least solution. For every valid input, after any sequence of
block updates in any order, every block's live-in and live-out sets hold the always-live operands
and are included in the least solution of the liveness equations; a further update never removes a
member, and it reports a change exactly when the live-in set of its block gained a member. -/
theorem updates_stay_below_least_solution {rg : RawGraph} {g : FlowGraph} {d : Decoder}
    {o : Options} {n : Nat} (hg : rg.validate = .ok g) (hn : o.operandCount = some n)
    (hal : ∀ r ∈ o.alwaysLive, r < n) (hd : d.Decodes g.instrCount n) :
    ∃ p, Problem.prepare rg d o = .ok p ∧ p.graph = g ∧
      ∃ I O, g.IsLeastSolution {r | r ∈ o.alwaysLive} (g.blockTransfer d {r | r ∈ o.alwaysLive})
        I O ∧
      ∀ st, p.Reaches st →
        (∀ B < g.blockCount, {r | r ∈ o.alwaysLive} ⊆ st.liveIn B ∧ st.liveIn B ⊆ I B ∧
          {r | r ∈ o.alwaysLive} ⊆ st.liveOut B ∧ st.liveOut B ⊆ O B) ∧
        ∀ bb < g.blockCount,
          (∀ B, st.liveIn B ⊆ (p.update st bb).2.liveIn B ∧
            st.liveOut B ⊆ (p.update st bb).2.liveOut B) ∧
          ((p.update st bb).1 = true ↔ ∃ r ∈ (p.update st bb).2.liveIn bb, r ∉ st.liveIn bb) := by
  obtain ⟨p, hprep, hp, -, hal', -, -⟩ := Problem.prepare_eq_ok hg hn hal hd
  have hwf := hp.graph_wellFormed
  have hleast := Problem.isLeastSolution_solve hp
  have hclosed := Problem.closed_of_isLeastSolution hp hleast
  rw [hal'] at hleast
  refine ⟨p, hprep, hp.graph_eq, _, _, hleast, fun st hst => ⟨fun B hB => ?_, fun bb hbb => ?_⟩⟩
  · -- the invariant, read at block `B`
    have ha := hst.approx hwf
    have hB' : B < p.graph.blockCount := hp.graph_eq ▸ hB
    obtain ⟨hin, hout⟩ := ha.below _ _ hclosed B hB'
    exact ⟨hal' ▸ ha.al_in B hB', hin, hal' ▸ ha.al_out B hB', hout⟩
  · have hi : bb < st.ins.size := by
      rw [(hst.approx hwf).ins_size, hp.graph_eq]
      exact hbb
    exact ⟨fun B => ⟨Problem.liveIn_subset_update B, Problem.liveOut_subset_update B⟩,
      Problem.update_fst_iff_gains hi⟩

theorem updates_stay_below_least_solution_swapLoop :
    ∃ p, Problem.prepare swapLoop swapDecoder { operandCount := some 2 } = .ok p ∧
      p.graph = swapLoopGraph ∧
      ∃ I O, swapLoopGraph.IsLeastSolution {r | r ∈ ([] : List Nat)}
        (swapLoopGraph.blockTransfer swapDecoder {r | r ∈ ([] : List Nat)}) I O ∧
      ∀ st, p.Reaches st →
        (∀ B < swapLoopGraph.blockCount, {r | r ∈ ([] : List Nat)} ⊆ st.liveIn B ∧
          st.liveIn B ⊆ I B ∧ {r | r ∈ ([] : List Nat)} ⊆ st.liveOut B ∧ st.liveOut B ⊆ O B) ∧
        ∀ bb < swapLoopGraph.blockCount,
          (∀ B, st.liveIn B ⊆ (p.update st bb).2.liveIn B ∧
            st.liveOut B ⊆ (p.update st bb).2.liveOut B) ∧
          ((p.update st bb).1 = true ↔ ∃ r ∈ (p.update st bb).2.liveIn bb, r ∉ st.liveIn bb) := by
  obtain ⟨hg, hd⟩ := swapLoop_valid
  exact updates_stay_below_least_solution hg rfl (fun r hr => by simp at hr) hd

end RegisterLiveness
