import RegisterLiveness.Proofs.Queries

/-!
# The block owning an offset

`FlowGraph.owner?` is the block index of a graph: among the non-empty blocks sorted by start, the
last one that starts at or before an offset, provided its range holds the offset. On a checked
graph the non-empty ranges partition the instructions, so the index answers with a block exactly
for the offsets that block owns and with nothing exactly outside the instructions, negative
offsets and offsets past the end alike (`WellFormed.owner?_eq_some_iff` and
`WellFormed.owner?_eq_none_iff`, beside the queries). An empty block owns no offset
(`Owns.nonempty`), so it is never the answer, whatever its index and even when it shares its
start with the block that is.

The point queries of a converged analysis rest on the index: the live set at an offset is refused
exactly outside the instructions, with an error naming the offset, and a question about an
operand outside the universe is refused for the operand before the offset is looked at.
-/

namespace RegisterLiveness

namespace FlowGraph

variable {g : FlowGraph}

/-- A block that owns an offset is not empty. -/
theorem Owns.nonempty {bb pc : Nat} (h : g.Owns bb pc) : (g.block bb).start < (g.block bb).stop :=
  Nat.lt_of_le_of_lt h.2.1 h.2.2

end FlowGraph

namespace Liveness

variable {rg : RawGraph} {d : Decoder} {o : Options} {lv : Liveness}

/-- The universe of a converged analysis is the operand count it was given. -/
theorem operandCount_of_analyze_eq_ok (h : analyze rg d o = .ok lv) :
    o.operandCount = some lv.n := by
  obtain ⟨p, hp, -⟩ := except_bind_eq_ok.mp h
  obtain ⟨g, n, hg, hn, hal, hd⟩ := Problem.preconditions_of_prepare_eq_ok hp
  obtain ⟨p', hp', -, hn', -⟩ := Problem.prepare_eq_ok hg hn hal hd
  rw [hp] at hp'
  cases hp'
  -- whether or not it verifies, the analysis returns the prepared problem
  have hprob : lv.problem = p := by
    rw [analyze_eq_ok_of_prepare hp] at h
    cases h
    rfl
  rw [hn, Liveness.n, hprob, hn']

/-- The live set at an offset is refused exactly outside the instructions, naming the offset. -/
theorem liveSetAt_eq_error_iff (wf : lv.graph.WellFormed) {pc : Int} {e : Error} :
    lv.liveSetAt pc = .error e ↔
      ¬ (0 ≤ pc ∧ pc < lv.instrCount) ∧ e = .outOfRange "offset" pc lv.instrCount := by
  constructor
  · intro h
    by_cases hpc : 0 ≤ pc ∧ pc < lv.instrCount
    · -- inside the instructions the owning block is replayed
      obtain ⟨bb, hown⟩ := wf.covered pc.toNat (by simp only [instrCount] at hpc; omega)
      rw [liveSetAt, wf.owner?_eq_some_iff.mpr ⟨hpc.1, hown⟩] at h
      cases h
    · rw [liveSetAt_of_not_lt wf hpc] at h
      exact ⟨hpc, (Except.error.inj h).symm⟩
  · rintro ⟨hpc, rfl⟩
    exact liveSetAt_of_not_lt wf hpc

/-- An operand outside the universe is refused whatever the offset. -/
theorem operandIsLiveAt_of_not_lt {r : Int} (hr : ¬ (0 ≤ r ∧ r < lv.n)) (pc : Int) :
    lv.operandIsLiveAt r pc = .error (.outOfRange "operand" r lv.n) := by
  have hr' : ¬ (0 ≤ r ∧ r.toNat < lv.n) := by omega
  simp [operandIsLiveAt, operand, hr', bind, Except.bind]

end Liveness

/-- The block index of a checked graph, and the point queries that rest on it. For every integer
offset the index answers the block owning it, which is the only such block and is not empty, when
the offset is an instruction, and nothing otherwise. For every analysis of the graph the live set
at an offset is refused exactly outside the instructions, with the error naming the offset and
the instruction count, and a question about an operand outside the universe is refused for the
operand, whatever the offset. -/
theorem owner?_finds_owning_block {rg : RawGraph} {g : FlowGraph} (hv : rg.validate = .ok g) :
    (∀ (pc : Int) (bb : Nat), g.owner? pc = some bb ↔ 0 ≤ pc ∧ g.Owns bb pc.toNat) ∧
    (∀ pc : Int, g.owner? pc = none ↔ ¬ (0 ≤ pc ∧ pc < g.instrCount)) ∧
    (∀ pc : Int, 0 ≤ pc → pc < g.instrCount → ∃! bb, g.Owns bb pc.toNat) ∧
    (∀ (pc : Int) (bb : Nat), g.owner? pc = some bb → (g.block bb).start < (g.block bb).stop) ∧
    ∀ d o lv, Liveness.analyze rg d o = .ok lv → o.operandCount = some lv.n ∧
      (∀ (pc : Int) (e : Error), lv.liveSetAt pc = .error e ↔
        ¬ (0 ≤ pc ∧ pc < g.instrCount) ∧ e = .outOfRange "offset" pc g.instrCount) ∧
      ∀ r pc : Int, ¬ (0 ≤ r ∧ r < lv.n) →
        lv.operandIsLiveAt r pc = .error (.outOfRange "operand" r lv.n) := by
  have wf := Cfg.validate_wellFormed hv
  refine ⟨fun pc bb => wf.owner?_eq_some_iff, fun pc => wf.owner?_eq_none_iff,
    fun pc h0 hlt => ?_, fun pc bb h => (wf.owner?_eq_some_iff.mp h).2.nonempty,
    fun d o lv h => ?_⟩
  · obtain ⟨bb, hown⟩ := wf.covered pc.toNat (by omega)
    exact ⟨bb, hown, fun b' hb' => wf.owner_unique hb' hown⟩
  · obtain ⟨g', n, hg', -, -, hs⟩ := Liveness.solved_of_analyze_eq_ok h
    rw [hv] at hg'
    cases hg'
    have hgraph : lv.graph = g := hs.prepared.graph_eq
    have hwf : lv.graph.WellFormed := hgraph ▸ wf
    refine ⟨Liveness.operandCount_of_analyze_eq_ok h, fun pc e => ?_,
      fun r pc hr => Liveness.operandIsLiveAt_of_not_lt hr pc⟩
    rw [Liveness.liveSetAt_eq_error_iff hwf, Liveness.instrCount, hgraph]

/-- Six instructions in three blocks listed out of order: `[3, 6)`, an empty block at 3, and
`[0, 3)`. -/
def sharedStart : RawGraph := ⟨#[⟨3, 6, [], []⟩, ⟨3, 3, [], []⟩, ⟨0, 3, [], []⟩], 6⟩

/-- `sharedStart` as checked. -/
def sharedStartGraph : FlowGraph := ⟨#[⟨3, 6, [], []⟩, ⟨3, 3, [], []⟩, ⟨0, 3, [], []⟩], 6⟩

example : ([-1, 0, 1, 2, 3, 4, 5, 6] : List Int).map sharedStartGraph.owner? =
    [none, some 2, some 2, some 2, some 0, some 0, some 0, none] := by cbv

theorem owner?_finds_owning_block_sharedStart : sharedStart.validate = .ok sharedStartGraph ∧
    (∀ (pc : Int) (bb : Nat), sharedStartGraph.owner? pc = some bb ↔
      0 ≤ pc ∧ sharedStartGraph.Owns bb pc.toNat) ∧
    (∀ pc : Int, sharedStartGraph.owner? pc = none ↔
      ¬ (0 ≤ pc ∧ pc < sharedStartGraph.instrCount)) ∧
    (∀ pc : Int, 0 ≤ pc → pc < sharedStartGraph.instrCount →
      ∃! bb, sharedStartGraph.Owns bb pc.toNat) ∧
    (∀ (pc : Int) (bb : Nat), sharedStartGraph.owner? pc = some bb →
      (sharedStartGraph.block bb).start < (sharedStartGraph.block bb).stop) ∧
    ∀ d o lv, Liveness.analyze sharedStart d o = .ok lv → o.operandCount = some lv.n ∧
      (∀ (pc : Int) (e : Error), lv.liveSetAt pc = .error e ↔
        ¬ (0 ≤ pc ∧ pc < sharedStartGraph.instrCount) ∧
          e = .outOfRange "offset" pc sharedStartGraph.instrCount) ∧
      ∀ r pc : Int, ¬ (0 ≤ r ∧ r < lv.n) →
        lv.operandIsLiveAt r pc = .error (.outOfRange "operand" r lv.n) := by
  have hv : sharedStart.validate = .ok sharedStartGraph := by cbv
  exact ⟨hv, owner?_finds_owning_block hv⟩

end RegisterLiveness
