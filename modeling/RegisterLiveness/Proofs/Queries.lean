import RegisterLiveness.Proofs.Tables
import RegisterLiveness.Proofs.Preconditions

/-!
# Point and batch queries

A converged liveness answers per instruction in two ways. `liveSetAt` finds the block owning an
offset and replays it backward from its live-out set down to the offset; the tables replay every
block once and keep the set before each instruction, and what each instruction kills. On a
well-formed graph both replay the same block from the same set, so the batch table answers
exactly as the point query at every offset, inside the instructions with the same set and
outside them with the same error (`entryAt_fullLiveness`).

What an instruction kills is recorded as the set before it less the set after it. The set after
the instruction is, through the queries, the live set at the next offset of its block or the
block's live-out set after its last instruction (`liveAfter`). Since the set before is the set
after less the definitions plus the uses, the kills are the uses that are not live after the
instruction (`Access.liveBefore_sdiff`); always-live operands are live after every instruction,
so none is ever killed.
-/

namespace RegisterLiveness

namespace Access

/-- What an instruction adds to the operands live after it are its uses that were not live. -/
theorem liveBefore_sdiff (al : Set ℕ) (a : Access) (X : Set ℕ) :
    a.liveBefore al X \ X = {r : ℕ | (r : Int) ∈ a.uses} \ X := by
  ext r
  simp only [liveBefore, Set.mem_sdiff, Set.mem_ofPred_eq]
  tauto

end Access

namespace FlowGraph

variable {g : FlowGraph}

/-- An offset a block owns is an instruction of the graph. -/
theorem WellFormed.lt_instrCount (wf : g.WellFormed) {b pc : Nat}
    (hown : g.Owns b pc) : pc < g.instrCount :=
  Nat.lt_of_lt_of_le hown.2.2 (wf.stop_le b hown.1)

/-- On a well-formed graph the index answers a block exactly for the offsets that block owns. -/
theorem WellFormed.owner?_eq_some_iff (wf : g.WellFormed) {pc : Int} {bb : Nat} :
    g.owner? pc = some bb ↔ 0 ≤ pc ∧ g.Owns bb pc.toNat := by
  constructor
  · intro h
    obtain ⟨n, rfl, hown⟩ := owns_of_owner?_eq_some h
    exact ⟨Int.natCast_nonneg n, hown⟩
  · rintro ⟨h0, hown⟩
    have h := owner?_eq_some wf hown
    rwa [Int.toNat_of_nonneg h0] at h

/-- On a well-formed graph the index answers nothing exactly outside the instructions. -/
theorem WellFormed.owner?_eq_none_iff (wf : g.WellFormed) {pc : Int} :
    g.owner? pc = none ↔ ¬ (0 ≤ pc ∧ pc < g.instrCount) := by
  constructor
  · rintro h ⟨h0, hlt⟩
    -- an instruction has an owner, and the index finds it
    obtain ⟨bb, hown⟩ := wf.covered pc.toNat (by omega)
    rw [wf.owner?_eq_some_iff.mpr ⟨h0, hown⟩] at h
    cases h
  · intro hpc
    cases h : g.owner? pc with
    | none => rfl
    | some bb =>
      obtain ⟨h0, hown⟩ := wf.owner?_eq_some_iff.mp h
      have hlt := wf.lt_instrCount hown
      exact absurd ⟨h0, by omega⟩ hpc

end FlowGraph

namespace Liveness

variable {lv : Liveness}

/-- The operands live right after the instruction at `pc` of block `b`, read through the
queries: those live before the next instruction of the block, or after its last instruction the
block's live-out set. -/
def liveAfter (lv : Liveness) (b pc : Nat) : Except Error (OperandSet lv.n) :=
  if pc + 1 < (lv.graph.block b).stop then lv.liveSetAt (pc + 1) else lv.liveOut b

/-! ### Offsets outside the instructions -/

/-- No block owns an offset outside the instructions, so the live set there is refused. -/
theorem liveSetAt_of_not_lt (wf : lv.graph.WellFormed) {pc : Int}
    (hpc : ¬ (0 ≤ pc ∧ pc < lv.instrCount)) :
    lv.liveSetAt pc = .error (.outOfRange "offset" pc lv.instrCount) := by
  simp [liveSetAt, wf.owner?_eq_none_iff.mpr hpc]

/-! ### The live-set table -/

/-- The batch table answers as the point query at every offset. -/
theorem entryAt_fullLiveness (wf : lv.graph.WellFormed) (pc : Int) :
    entryAt lv.fullLiveness pc = lv.liveSetAt pc := by
  obtain ⟨hsize, -⟩ := size_tables wf
  by_cases hpc : 0 ≤ pc ∧ pc < lv.instrCount
  · -- inside: the owning block is replayed down to `pc` by both
    obtain ⟨n, rfl⟩ := Int.eq_ofNat_of_zero_le hpc.1
    obtain ⟨b, hown⟩ := wf.covered n (Int.ofNat_lt.mp hpc.2)
    rw [liveSetAt_eq_ok wf hown]
    exact entryAt_of_getElem? (tables_at wf hown).1
  · rw [liveSetAt_of_not_lt wf hpc, fullLiveness, entryAt_of_not_lt (by rwa [hsize]), hsize]

/-- The batch and the point query of one operand agree, errors included. -/
theorem ask_operandIsLive (wf : lv.graph.WellFormed) (r pc : Int) :
    lv.ask lv.tables (.operandIsLive r pc) = (lv.operandIsLiveAt r pc).map Answer.bool := by
  have hentry : entryAt lv.tables.live pc = lv.liveSetAt pc := entryAt_fullLiveness wf pc
  simp only [ask, operandIsLiveAt, hentry]
  cases lv.operand r with
  | error e => rfl
  | ok x => cases lv.liveSetAt pc <;> rfl

/-! ### The kill table -/

/-- Through the queries, the set after an instruction is its block replayed down past it. -/
theorem liveAfter_eq_ok (wf : lv.graph.WellFormed) {b pc : Nat} (hown : lv.graph.Owns b pc) :
    lv.liveAfter b pc = .ok (lv.beforeIn b (pc + 1)) := by
  unfold liveAfter
  split
  · rename_i hnext
    exact liveSetAt_eq_ok wf ⟨hown.1, by have := hown.2.1; omega, hnext⟩
  · -- the last instruction of the block: what follows it is the live-out set
    rename_i hlast
    rw [liveOut_eq_ok hown.1, beforeIn, replay_of_le (by omega)]

/-- The set before an instruction is its transfer of the set after it. -/
theorem beforeIn_eq_step {b pc : Nat} (hown : lv.graph.Owns b pc) :
    lv.beforeIn b pc = lv.problem.step pc (lv.beforeIn b (pc + 1)) :=
  replay_of_lt hown.2.2 _

section Solved

variable {g : FlowGraph} {d : Decoder} {al : Set ℕ}

/-- Replaying a block of a converged analysis keeps the always-live operands. -/
theorem Solved.al_subset_beforeIn (hs : lv.Solved g d al) {b : Nat} (hb : b < g.blockCount)
    (pc : Nat) : al ⊆ (lv.beforeIn b pc).toSet := by
  have hgraph : lv.graph = g := hs.prepared.graph_eq
  subst hgraph
  have hout : al ⊆ lv.flow.liveOut b := by
    rw [hs.least.1.out_eq b hb]
    exact Set.subset_union_left
  rw [beforeIn, toSet_replay hs.prepared (hs.prepared.wellFormed.stop_le b hb), hs.alwaysLive_eq]
  exact Decoder.al_subset_transferRange _ _ hout

/-- What an instruction of a converged analysis kills: the set before it less the set after
it, which are the uses that are not live after it, and never an always-live operand. -/
theorem Solved.kills_at (hs : lv.Solved g d al) {a : Access} {b pc : Nat}
    (hown : lv.graph.Owns b pc) (ha : d pc = .ok a) :
    ∃ K, entryAt lv.kills pc = .ok K ∧
      K.toSet = (lv.beforeIn b pc).toSet \ (lv.beforeIn b (pc + 1)).toSet ∧
      K.toSet = {r : ℕ | (r : Int) ∈ a.uses} \ (lv.beforeIn b (pc + 1)).toSet ∧
      Disjoint K.toSet al := by
  have hgraph : lv.graph = g := hs.prepared.graph_eq
  have wf : lv.graph.WellFormed := hs.prepared.graph_wellFormed
  have hpc : pc < g.instrCount := hgraph ▸ wf.lt_instrCount hown
  have hdiff : (lv.beforeIn b pc \ lv.beforeIn b (pc + 1)).toSet =
      (lv.beforeIn b pc).toSet \ (lv.beforeIn b (pc + 1)).toSet := OperandSet.toSet_diff
  -- the set before is the decoded transfer of the set after
  have hstep : (lv.beforeIn b pc).toSet =
      a.liveBefore al (lv.beforeIn b (pc + 1)).toSet := by
    rw [beforeIn_eq_step hown, hs.prepared.toSet_step pc hpc, Decoder.accessAt_of_eq_ok ha,
      show lv.problem.alwaysLive.toSet = al from hs.alwaysLive_eq]
  have hal : al ⊆ (lv.beforeIn b (pc + 1)).toSet :=
    hs.al_subset_beforeIn (hgraph ▸ hown.1) (pc + 1)
  refine ⟨_, entryAt_of_getElem? (tables_at wf hown).2, hdiff, ?_, ?_⟩
  · rw [hdiff, hstep, Access.liveBefore_sdiff]
  · rw [hdiff, Set.disjoint_iff]
    rintro r ⟨⟨-, hafter⟩, hr⟩
    exact hafter (hal hr)

end Solved

/-- Testing an operand for a kill reads the kill table. -/
theorem ask_operandIsKilledAt (r : Fin lv.n) (pc : Int) :
    lv.ask lv.tables (.operandIsKilledAt r.val pc) =
      (entryAt lv.kills pc).map (fun K => Answer.bool (decide (r ∈ K))) := by
  have hr : lv.operand r.val = .ok r := by
    simp [operand, r.isLt]
  simp only [ask, hr, kills]
  cases entryAt lv.tables.kills pc <;> rfl

/-- Listing the kills reads the kill table, in ascending order. -/
theorem ask_forEachKilledAt (pc : Int) :
    lv.ask lv.tables (.forEachKilledAt pc) =
      (entryAt lv.kills pc).map (fun K => Answer.list K.indices) := by
  simp only [ask, kills]
  cases entryAt lv.tables.kills pc <;> rfl

end Liveness

/-- The batch table of live sets agrees with the point query. For every result of the analysis it
has one entry per instruction; at every offset it answers as `liveSetAt`, with a set inside the
instructions and the same offset error outside them; and the batch and point queries of one
operand give the same answer. -/
theorem fullLiveness_eq_liveSetAt {rg : RawGraph} {d : Decoder} {o : Options} {lv : Liveness}
    (h : Liveness.analyze rg d o = .ok lv) :
    lv.fullLiveness.size = lv.instrCount ∧
      (∀ pc : Int, Liveness.entryAt lv.fullLiveness pc = lv.liveSetAt pc) ∧
      (∀ pc < lv.instrCount, ∃ X, Liveness.entryAt lv.fullLiveness pc = .ok X) ∧
      (∀ r pc : Int, lv.ask lv.tables (.operandIsLive r pc) =
        (lv.operandIsLiveAt r pc).map Liveness.Answer.bool) ∧
      ∀ pc : Int, ¬ (0 ≤ pc ∧ pc < lv.instrCount) →
        Liveness.entryAt lv.fullLiveness pc = .error (.outOfRange "offset" pc lv.instrCount) ∧
        lv.liveSetAt pc = .error (.outOfRange "offset" pc lv.instrCount) := by
  obtain ⟨g, -, -, -, -, hs⟩ := Liveness.solved_of_analyze_eq_ok h
  have wf : lv.graph.WellFormed := hs.prepared.graph_wellFormed
  refine ⟨(Liveness.size_tables wf).1, Liveness.entryAt_fullLiveness wf, fun pc hpc => ?_,
    Liveness.ask_operandIsLive wf, fun pc hpc => ?_⟩
  · obtain ⟨b, hown⟩ := wf.covered pc hpc
    rw [Liveness.entryAt_fullLiveness wf, Liveness.liveSetAt_eq_ok wf hown]
    exact ⟨_, rfl⟩
  · rw [Liveness.entryAt_fullLiveness wf, Liveness.liveSetAt_of_not_lt wf hpc]
    exact ⟨rfl, rfl⟩

theorem fullLiveness_eq_liveSetAt_swapLoop :
    ∃ lv, Liveness.analyze swapLoop swapDecoder { operandCount := some 2 } = .ok lv ∧
      lv.fullLiveness.size = lv.instrCount ∧
      (∀ pc : Int, Liveness.entryAt lv.fullLiveness pc = lv.liveSetAt pc) ∧
      (∀ pc < lv.instrCount, ∃ X, Liveness.entryAt lv.fullLiveness pc = .ok X) ∧
      (∀ r pc : Int, lv.ask lv.tables (.operandIsLive r pc) =
        (lv.operandIsLiveAt r pc).map Liveness.Answer.bool) ∧
      ∀ pc : Int, ¬ (0 ≤ pc ∧ pc < lv.instrCount) →
        Liveness.entryAt lv.fullLiveness pc = .error (.outOfRange "offset" pc lv.instrCount) ∧
        lv.liveSetAt pc = .error (.outOfRange "offset" pc lv.instrCount) := by
  obtain ⟨hg, hd⟩ := swapLoop_valid
  obtain ⟨lv, han, -⟩ := Problem.analyze_solved (o := { operandCount := some 2 }) hg rfl
    (fun r hr => by simp at hr) hd
  exact ⟨lv, han, fullLiveness_eq_liveSetAt han⟩

/-- What an instruction kills. For every result of the analysis and every instruction `pc` of a
block `b`, the kill set is the live set at `pc` less the set live after it (at the next offset of
the block, or the block's live-out set), and equally the uses of `pc` that are not live after
it; so a killed operand is used at `pc`, live before it and dead after it, and no always-live
operand is killed. Testing an operand and listing the kills read the same set, listed in
strictly ascending order. -/
theorem killedAt_eq_liveSetAt_sdiff_liveAfter {rg : RawGraph} {d : Decoder} {o : Options}
    {lv : Liveness} (h : Liveness.analyze rg d o = .ok lv) :
    (∀ b pc, lv.graph.Owns b pc → ∃ a K L A, d pc = .ok a ∧
        Liveness.entryAt lv.kills pc = .ok K ∧ lv.liveSetAt pc = .ok L ∧
        lv.liveAfter b pc = .ok A ∧ K.toSet = L.toSet \ A.toSet ∧
        K.toSet = {r : ℕ | (r : Int) ∈ a.uses} \ A.toSet ∧ Disjoint K.toSet {r | r ∈ o.alwaysLive}) ∧
      (∀ (r : Fin lv.n) (pc : Int), lv.ask lv.tables (.operandIsKilledAt r.val pc) =
        (Liveness.entryAt lv.kills pc).map (fun K => .bool (decide (r ∈ K)))) ∧
      ∀ pc : Int, lv.ask lv.tables (.forEachKilledAt pc) =
          (Liveness.entryAt lv.kills pc).map (fun K => .list K.indices) ∧
        ∀ K, Liveness.entryAt lv.kills pc = .ok K → K.indices.Pairwise (· < ·) := by
  obtain ⟨g, n, -, -, hd, hs⟩ := Liveness.solved_of_analyze_eq_ok h
  have hgraph : lv.graph = g := hs.prepared.graph_eq
  have wf : lv.graph.WellFormed := hs.prepared.graph_wellFormed
  refine ⟨fun b pc hown => ?_, Liveness.ask_operandIsKilledAt,
    fun pc => ⟨Liveness.ask_forEachKilledAt pc, fun K _ => K.indices_sorted⟩⟩
  · have hpc : pc < g.instrCount := hgraph ▸ wf.lt_instrCount hown
    obtain ⟨a, ha, -⟩ := hd pc hpc
    obtain ⟨K, hK, hset, huses, hdisj⟩ := hs.kills_at hown ha
    exact ⟨a, K, _, _, ha, hK, Liveness.liveSetAt_eq_ok wf hown,
      Liveness.liveAfter_eq_ok wf hown, hset, huses, hdisj⟩

theorem killedAt_eq_liveSetAt_sdiff_liveAfter_swapLoop :
    ∃ lv, Liveness.analyze swapLoop swapDecoder { operandCount := some 2 } = .ok lv ∧
      (∀ b pc, lv.graph.Owns b pc → ∃ a K L A, swapDecoder pc = .ok a ∧
        Liveness.entryAt lv.kills pc = .ok K ∧ lv.liveSetAt pc = .ok L ∧
        lv.liveAfter b pc = .ok A ∧ K.toSet = L.toSet \ A.toSet ∧
        K.toSet = {r : ℕ | (r : Int) ∈ a.uses} \ A.toSet ∧
        Disjoint K.toSet {r | r ∈ ([] : List Nat)}) ∧
      (∀ (r : Fin lv.n) (pc : Int), lv.ask lv.tables (.operandIsKilledAt r.val pc) =
        (Liveness.entryAt lv.kills pc).map (fun K => .bool (decide (r ∈ K)))) ∧
      ∀ pc : Int, lv.ask lv.tables (.forEachKilledAt pc) =
          (Liveness.entryAt lv.kills pc).map (fun K => .list K.indices) ∧
        ∀ K, Liveness.entryAt lv.kills pc = .ok K → K.indices.Pairwise (· < ·) := by
  obtain ⟨hg, hd⟩ := swapLoop_valid
  obtain ⟨lv, han, -⟩ := Problem.analyze_solved (o := { operandCount := some 2 }) hg rfl
    (fun r hr => by simp at hr) hd
  exact ⟨lv, han, killedAt_eq_liveSetAt_sdiff_liveAfter han⟩

end RegisterLiveness
