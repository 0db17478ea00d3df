import RegisterLiveness.Proofs.Preconditions

/-!
# Block summaries against the instruction replay

`Problem.prepare` summarizes each block in one backward pass as a transfer `X ↦ (X \ defs) ∪ uses`,
and the queries replay a block one instruction at a time with `Problem.step`. On every set of
operands, whether or not it holds the always-live operands, the two agree
(`Problem.Prepared.foldl_step_offsetsDown`): both are the composed transfer of the block's
instructions, from the last down to the first.

In a converged analysis the live-in set of a block is the always-live operands together with the
summary applied to its live-out set. The always-live operands are in the live-out set and no
instruction removes them, so the union adds nothing: the live set at the first instruction of a
non-empty block is its live-in set, and an empty block, whose summary does nothing, has equal
live-in and live-out sets.
-/

namespace RegisterLiveness

namespace Problem

variable {p : Problem} {g : FlowGraph} {d : Decoder}

/-- Stepping a prepared problem through instructions of its graph transfers liveness as the
decoder says, one instruction after the other. -/
theorem Prepared.toSet_foldl_step (hp : p.Prepared g d) {pcs : List Nat}
    (hpcs : ∀ pc ∈ pcs, pc < g.instrCount) (X : OperandSet p.n) :
    (pcs.foldl (fun X pc => p.step pc X) X).toSet =
      pcs.foldl (fun X pc => (d.accessAt pc).liveBefore p.alwaysLive.toSet X) X.toSet := by
  induction pcs generalizing X with
  | nil => rfl
  | cons pc pcs ih =>
    rw [List.foldl_cons, List.foldl_cons, ih (fun q hq => hpcs q (List.mem_cons_of_mem _ hq)),
      hp.toSet_step pc (hpcs pc List.mem_cons_self)]

/-- Replaying a block of a prepared problem backward applies the block's summary, to any set. -/
theorem Prepared.foldl_step_offsetsDown (hp : p.Prepared g d) {bb : Nat}
    (hbb : bb < g.blockCount) (X : OperandSet p.n) :
    (offsetsDown (g.block bb)).foldl (fun X pc => p.step pc X) X =
      (p.summaries.getD bb .id).apply X := by
  have hpcs : ∀ pc ∈ offsetsDown (g.block bb), pc < g.instrCount := by
    intro pc hpc
    simp only [offsetsDown, List.mem_reverse, List.mem_range'_1, Block.size] at hpc
    have := hp.wellFormed.stop_le bb hbb
    omega
  apply OperandSet.eq_of_toSet_eq
  rw [hp.toSet_foldl_step hpcs, foldl_offsetsDown, Summary.toSet_apply,
    hp.applySet_summary bb hbb]

/-- A preparation that succeeded is prepared for its own graph. -/
theorem prepared_of_prepare_eq_ok {rg : RawGraph} {o : Options} (h : prepare rg d o = .ok p) :
    p.Prepared p.graph d := by
  obtain ⟨g, n, hg, hn, hal, hd⟩ := preconditions_of_prepare_eq_ok h
  obtain ⟨p', hp', hprep, -⟩ := prepare_eq_ok hg hn hal hd
  rw [h] at hp'
  cases hp'
  rw [hprep.graph_eq]
  exact hprep

end Problem

namespace Liveness

variable {lv : Liveness} {g : FlowGraph} {d : Decoder} {al : Set ℕ}

/-- In a converged analysis the live-in set of a block is the block transfer of its live-out set:
the always-live operands that the equations add are already there, and the transfer keeps them. -/
theorem Solved.liveIn_eq_transferRange (hs : lv.Solved g d al) {bb : Nat}
    (hbb : bb < g.blockCount) :
    lv.flow.liveIn bb =
      d.transferRange al (g.block bb).start (g.block bb).stop (lv.flow.liveOut bb) := by
  have hsol := hs.least.1
  have hal : al ⊆ lv.flow.liveOut bb := hsol.closed.al_out bb hbb
  rw [hsol.in_eq bb hbb, FlowGraph.blockTransfer]
  exact Set.union_eq_self_of_subset_left (Decoder.al_subset_transferRange _ _ hal)

theorem Solved.blockCount_eq (hs : lv.Solved g d al) : lv.blockCount = g.blockCount := by
  have hgraph : lv.graph = g := hs.prepared.graph_eq
  rw [blockCount, hgraph]

/-- The live set at the first instruction of a non-empty block is the block's live-in set. -/
theorem Solved.liveSetAt_start (hs : lv.Solved g d al) {bb : Nat} (hbb : bb < g.blockCount)
    (hne : (g.block bb).start < (g.block bb).stop) :
    lv.liveSetAt (g.block bb).start = lv.liveIn bb := by
  obtain ⟨X, hX, hset⟩ := liveSetAt_toSet hs.prepared (b := bb) ⟨hbb, Nat.le_refl _, hne⟩
  rw [hX, liveIn_eq_ok (hs.blockCount_eq ▸ hbb)]
  congr 1
  apply OperandSet.eq_of_toSet_eq
  rw [hset, hs.alwaysLive_eq, ← hs.liveIn_eq_transferRange hbb]
  rfl

/-- An empty block passes its live-out set through: its live-in set is the same. -/
theorem Solved.liveIn_eq_liveOut_of_empty (hs : lv.Solved g d al) {bb : Nat}
    (hbb : bb < g.blockCount) (he : (g.block bb).stop ≤ (g.block bb).start) :
    lv.liveIn bb = lv.liveOut bb := by
  have hbb' : bb < lv.blockCount := hs.blockCount_eq ▸ hbb
  rw [liveIn_eq_ok hbb', liveOut_eq_ok hbb']
  congr 1
  apply OperandSet.eq_of_toSet_eq
  have h := hs.liveIn_eq_transferRange hbb
  rw [Decoder.transferRange_of_le he] at h
  exact h

end Liveness

/-- Block summaries agree with the instruction replay. For a preparation that succeeds, replaying
the steps of any block backward, from its last instruction down to its first, turns every set `X`
of operands into `(X \ defs) ∪ uses` for the kills and uses its summary recorded; `X` need not
hold the always-live operands. For the analysis of the same input, when it converges, the live set
at the first instruction of a non-empty block is the block's live-in set, and the live-in set of
an empty block is its live-out set. -/
theorem block_replay_eq_summary {rg : RawGraph} {d : Decoder} {o : Options} :
    (∀ p : Problem, Problem.prepare rg d o = .ok p →
      ∀ bb < p.graph.blockCount, ∀ X : OperandSet p.n,
        (Problem.offsetsDown (p.graph.block bb)).foldl (fun X pc => p.step pc X) X =
          (X \ (p.summaries.getD bb .id).defs) ∪ (p.summaries.getD bb .id).uses) ∧
    ∀ lv : Liveness, Liveness.analyze rg d o = .ok lv → ∀ bb < lv.blockCount,
      (¬ (lv.graph.block bb).isEmpty → lv.liveSetAt (lv.graph.block bb).start = lv.liveIn bb) ∧
      ((lv.graph.block bb).isEmpty → lv.liveIn bb = lv.liveOut bb) := by
  refine ⟨fun p hp bb hbb X => ?_, fun lv han bb hbb => ?_⟩
  · exact (Problem.prepared_of_prepare_eq_ok hp).foldl_step_offsetsDown hbb X
  · obtain ⟨g, -, -, -, -, hs⟩ := Liveness.solved_of_analyze_eq_ok han
    have hgraph : lv.graph = g := hs.prepared.graph_eq
    rw [hs.blockCount_eq] at hbb
    rw [hgraph]
    refine ⟨fun hne => ?_, fun he => ?_⟩
    · exact hs.liveSetAt_start hbb (by simpa [Block.isEmpty] using hne)
    · exact hs.liveIn_eq_liveOut_of_empty hbb (by simpa [Block.isEmpty] using he)

/-- A loop through an empty block: `[0, 2)`, then the empty block at 2, then `[2, 3)`, and back. -/
def emptyLoop : RawGraph := ⟨#[⟨0, 2, [1], [2]⟩, ⟨2, 2, [2], [0]⟩, ⟨2, 3, [0], [1]⟩], 3⟩

/-- The graph `emptyLoop` checks to. -/
def emptyLoopGraph : FlowGraph := ⟨#[⟨0, 2, [1], [2]⟩, ⟨2, 2, [2], [0]⟩, ⟨2, 3, [0], [1]⟩], 3⟩

/-- The decoder of `emptyLoop`: three copies around the loop, `r0 := r1`, `r2 := r0`,
`r1 := r2`. -/
def emptyLoopDecoder : Decoder := fun pc =>
  if pc = 0 then .ok ⟨[0], [1]⟩ else if pc = 1 then .ok ⟨[2], [0]⟩ else .ok ⟨[1], [2]⟩

theorem block_replay_eq_summary_emptyLoop :
    emptyLoop.validate = .ok emptyLoopGraph ∧
      (∃ p, Problem.prepare emptyLoop emptyLoopDecoder { operandCount := some 3 } = .ok p ∧
        ∀ bb < p.graph.blockCount, ∀ X : OperandSet p.n,
          (Problem.offsetsDown (p.graph.block bb)).foldl (fun X pc => p.step pc X) X =
            (X \ (p.summaries.getD bb .id).defs) ∪ (p.summaries.getD bb .id).uses) ∧
      ∃ lv, Liveness.analyze emptyLoop emptyLoopDecoder { operandCount := some 3 } = .ok lv ∧
        ∀ bb < lv.blockCount,
          (¬ (lv.graph.block bb).isEmpty → lv.liveSetAt (lv.graph.block bb).start = lv.liveIn bb) ∧
          ((lv.graph.block bb).isEmpty → lv.liveIn bb = lv.liveOut bb) := by
  have hg : emptyLoop.validate = .ok emptyLoopGraph := by cbv
  have hd : emptyLoopDecoder.Decodes 3 3 := by
    intro pc hpc
    obtain rfl | rfl | rfl : pc = 0 ∨ pc = 1 ∨ pc = 2 := by omega
    all_goals simp [emptyLoopDecoder]
  have hn : ({ operandCount := some 3 } : Options).operandCount = some 3 := rfl
  obtain ⟨p, hprep, -⟩ := Problem.prepare_eq_ok hg hn (fun r hr => by simp at hr) hd
  obtain ⟨lv, han, -⟩ := Problem.analyze_solved hg hn (fun r hr => by simp at hr) hd
  exact ⟨hg, ⟨p, hprep, block_replay_eq_summary.1 p hprep⟩,
    ⟨lv, han, block_replay_eq_summary.2 lv han⟩⟩

end RegisterLiveness
