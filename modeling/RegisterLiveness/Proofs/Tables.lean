import RegisterLiveness.Proofs.Blocks

/-!
# Tables of liveness per instruction

`Liveness.tables` replays every block once, backward from its live-out set, and records before
each instruction the operands live there and the operands the instruction kills: live before it
and dead after it. A replay of a range records every instruction of the range and nothing else
(`recordRange_at`, `recordRange_frame`), so after all blocks every instruction holds the replay of
its own block (`Recorded`, kept by each block in `recorded_recordBlock`).

For a converged analysis the entries are the path-defined sets (`Solved.liveAt_entry`,
`Solved.killedAt_entry`): the live set before the instruction, and that set less the operands
live after it, along some path from one of its successors. Over a faithful cut of a program
these depend on the program only, so two cuts of one program give the same tables
(`liveAt_killedAt_independent_of_pins`).
-/

namespace RegisterLiveness

namespace Liveness

variable {lv : Liveness}

/-! ### Recording a range -/

@[simp] theorem Tables.live_record {n : Nat} (t : Tables n) (pc : Nat) (before after : OperandSet n) :
    (t.record pc before after).live = t.live.setIfInBounds pc before := rfl

@[simp] theorem Tables.kills_record {n : Nat} (t : Tables n) (pc : Nat) (before after : OperandSet n) :
    (t.record pc before after).kills = t.kills.setIfInBounds pc (before \ after) := rfl

theorem recordRange_of_le {lo hi : Nat} (h : hi ≤ lo) (t : Tables lv.n) (X : OperandSet lv.n) :
    lv.recordRange lo hi t X = (t, X) := by
  unfold recordRange
  rw [Nat.sub_eq_zero_of_le h, List.range'_zero, List.reverse_nil]
  rfl

/-- A range is recorded from its last instruction down, its first instruction last. -/
theorem recordRange_of_lt {lo hi : Nat} (h : lo < hi) (t : Tables lv.n) (X : OperandSet lv.n) :
    lv.recordRange lo hi t X =
      ((lv.recordRange (lo + 1) hi t X).1.record lo
          (lv.problem.step lo (lv.recordRange (lo + 1) hi t X).2) (lv.recordRange (lo + 1) hi t X).2,
        lv.problem.step lo (lv.recordRange (lo + 1) hi t X).2) := by
  have hr : List.range' lo (hi - lo) = lo :: List.range' (lo + 1) (hi - (lo + 1)) := by
    rw [show hi - lo = (hi - (lo + 1)) + 1 by omega, List.range'_succ]
  unfold recordRange
  rw [hr, List.reverse_cons]
  exact List.foldl_append ..

/-- Recording a range carries the same sets as replaying it. -/
theorem recordRange_snd (lo hi : Nat) (t : Tables lv.n) (X : OperandSet lv.n) :
    (lv.recordRange lo hi t X).2 = lv.replay lo hi X := by
  induction h : hi - lo generalizing lo with
  | zero => rw [recordRange_of_le (by omega), replay_of_le (by omega)]
  | succ k ih =>
    have hlt : lo < hi := by omega
    rw [recordRange_of_lt hlt, replay_of_lt hlt, ih (lo + 1) (by omega)]

theorem size_recordRange (lo hi : Nat) (t : Tables lv.n) (X : OperandSet lv.n) :
    (lv.recordRange lo hi t X).1.live.size = t.live.size ∧
      (lv.recordRange lo hi t X).1.kills.size = t.kills.size := by
  induction h : hi - lo generalizing lo with
  | zero => rw [recordRange_of_le (by omega)]; exact ⟨rfl, rfl⟩
  | succ k ih =>
    rw [recordRange_of_lt (by omega)]
    simpa using ih (lo + 1) (by omega)

/-- Recording a range leaves every other entry as it was. -/
theorem recordRange_frame {lo hi pc : Nat} (h : pc < lo ∨ hi ≤ pc) (t : Tables lv.n)
    (X : OperandSet lv.n) :
    (lv.recordRange lo hi t X).1.live[pc]? = t.live[pc]? ∧
      (lv.recordRange lo hi t X).1.kills[pc]? = t.kills[pc]? := by
  induction hk : hi - lo generalizing lo with
  | zero => rw [recordRange_of_le (by omega)]; exact ⟨rfl, rfl⟩
  | succ k ih =>
    rw [recordRange_of_lt (by omega)]
    simp only [Tables.live_record, Tables.kills_record,
      Array.getElem?_setIfInBounds_ne (show lo ≠ pc by omega)]
    exact ih (by omega) (by omega)

/-- Recording a range puts, at each of its instructions, the replay down to it, and what the
instruction kills: live before it and not after it. -/
theorem recordRange_at {lo hi pc : Nat} (hlo : lo ≤ pc) (hhi : pc < hi) (t : Tables lv.n)
    (X : OperandSet lv.n) (hl : pc < t.live.size) (hk : pc < t.kills.size) :
    (lv.recordRange lo hi t X).1.live[pc]? = some (lv.replay pc hi X) ∧
      (lv.recordRange lo hi t X).1.kills[pc]? =
        some (lv.replay pc hi X \ lv.replay (pc + 1) hi X) := by
  induction h : hi - lo generalizing lo with
  | zero => omega
  | succ k ih =>
    rw [recordRange_of_lt (by omega)]
    simp only [Tables.live_record, Tables.kills_record]
    by_cases hpc : pc = lo
    · -- the first instruction of the range is recorded last
      subst hpc
      obtain ⟨hsl, hsk⟩ := size_recordRange (pc + 1) hi t X
      rw [Array.getElem?_setIfInBounds_self_of_lt (by omega),
        Array.getElem?_setIfInBounds_self_of_lt (by omega), recordRange_snd,
        replay_of_lt hhi]
      exact ⟨rfl, rfl⟩
    · rw [Array.getElem?_setIfInBounds_ne (Ne.symm hpc),
        Array.getElem?_setIfInBounds_ne (Ne.symm hpc)]
      exact ih (by omega) (by omega)

/-! ### Recording every block -/

/-- The set before the instruction at `pc` of block `b`: its block replayed down to it. -/
def beforeIn (lv : Liveness) (b pc : Nat) : OperandSet lv.n :=
  lv.replay pc (lv.graph.block b).stop (lv.flow.outs.getD b .empty)

/-- The tables are over the instructions, and hold at every instruction of the blocks below `k`
the set before it and what it kills. -/
structure Recorded (lv : Liveness) (t : Tables lv.n) (k : Nat) : Prop where
  live_size : t.live.size = lv.instrCount
  kills_size : t.kills.size = lv.instrCount
  at_owned : ∀ b < k, ∀ pc, lv.graph.Owns b pc →
    t.live[pc]? = some (lv.beforeIn b pc) ∧ t.kills[pc]? = some (lv.beforeIn b pc \ lv.beforeIn b (pc + 1))

theorem recorded_start :
    lv.Recorded ⟨Array.replicate lv.instrCount .empty, Array.replicate lv.instrCount .empty⟩ 0 where
  live_size := Array.size_replicate
  kills_size := Array.size_replicate
  at_owned _ hb := absurd hb (Nat.not_lt_zero _)

/-- Recording block `k` adds its instructions and, the blocks owning distinct instructions,
keeps those of the blocks before it. -/
theorem recorded_recordBlock (wf : lv.graph.WellFormed) {t : Tables lv.n} {k : Nat}
    (hk : k < lv.blockCount) (h : lv.Recorded t k) : lv.Recorded (lv.recordBlock t k) (k + 1) := by
  obtain ⟨hsl, hsk⟩ := size_recordRange (lv.graph.block k).start (lv.graph.block k).stop t
    (lv.flow.outs.getD k .empty)
  refine ⟨hsl.trans h.live_size, hsk.trans h.kills_size, fun b hb pc hown => ?_⟩
  have hstop : (lv.graph.block b).stop ≤ lv.instrCount := wf.stop_le b hown.1
  have hpc := hown.2.2
  by_cases hbk : b = k
  · subst hbk
    exact recordRange_at hown.2.1 hown.2.2 t _ (by rw [h.live_size]; omega)
      (by rw [h.kills_size]; omega)
  · -- an instruction of an earlier block lies outside block `k`
    have hout : pc < (lv.graph.block k).start ∨ (lv.graph.block k).stop ≤ pc := by
      by_contra hin
      exact hbk (wf.owner_unique hown ⟨hk, by omega, by omega⟩)
    unfold recordBlock
    rw [(recordRange_frame hout t _).1, (recordRange_frame hout t _).2]
    exact h.at_owned b (by omega) pc hown

theorem recorded_foldl (wf : lv.graph.WellFormed) {k : Nat} (hk : k ≤ lv.blockCount) :
    lv.Recorded ((List.range k).foldl lv.recordBlock
      ⟨Array.replicate lv.instrCount .empty, Array.replicate lv.instrCount .empty⟩) k := by
  induction k with
  | zero => exact recorded_start
  | succ k ih =>
    rw [List.range_succ, List.foldl_append, List.foldl_cons, List.foldl_nil]
    exact recorded_recordBlock wf (by omega) (ih (by omega))

/-- Every instruction's entries are those of its own block's replay. -/
theorem tables_at (wf : lv.graph.WellFormed) {b pc : Nat} (hown : lv.graph.Owns b pc) :
    lv.tables.live[pc]? = some (lv.beforeIn b pc) ∧
      lv.tables.kills[pc]? = some (lv.beforeIn b pc \ lv.beforeIn b (pc + 1)) :=
  (recorded_foldl wf le_rfl).at_owned b hown.1 pc hown

theorem size_tables (wf : lv.graph.WellFormed) :
    lv.tables.live.size = lv.instrCount ∧ lv.tables.kills.size = lv.instrCount :=
  ⟨(recorded_foldl wf le_rfl).live_size, (recorded_foldl wf le_rfl).kills_size⟩

/-! ### The entries of a converged analysis -/

theorem entryAt_of_getElem? {α : Type} [Inhabited α] {t : Array α} {pc : Nat} {x : α}
    (h : t[pc]? = some x) : entryAt t pc = .ok x := by
  have hlt : pc < t.size := (Array.getElem?_eq_some_iff.mp h).1
  simp only [entryAt, Int.natCast_nonneg, Int.ofNat_lt, hlt, and_self, if_true, Int.toNat_natCast,
    Array.getD_eq_getD_getElem?, h, Option.getD_some]

theorem entryAt_of_not_lt {α : Type} [Inhabited α] {t : Array α} {pc : Int}
    (h : ¬ (0 ≤ pc ∧ pc < t.size)) : entryAt t pc = .error (.outOfRange "offset" pc t.size) := by
  simp only [entryAt, if_neg h]

section Solved

variable {g : FlowGraph} {d : Decoder} {al : Set ℕ}

/-- The set before an instruction is the path-defined one. -/
theorem Solved.toSet_beforeIn (hs : lv.Solved g d al) {b pc : Nat} (hown : g.Owns b pc) :
    (lv.beforeIn b pc).toSet = al ∪ {r | g.LivePath d r pc} := by
  have hgraph : lv.graph = g := hs.prepared.graph_eq
  subst hgraph
  unfold beforeIn
  rw [toSet_replay hs.prepared (hs.prepared.wellFormed.stop_le b hown.1), hs.alwaysLive_eq]
  exact FlowGraph.transferRange_eq_livePath hs.prepared.wellFormed hs.least hown

/-- The set after an instruction is the path-defined one of its successors. -/
theorem Solved.toSet_beforeIn_succ (hs : lv.Solved g d al) {b pc : Nat} (hown : g.Owns b pc) :
    (lv.beforeIn b (pc + 1)).toSet = al ∪ {r | ∃ q, g.InstrSucc pc q ∧ g.LivePath d r q} := by
  have hgraph : lv.graph = g := hs.prepared.graph_eq
  subst hgraph
  unfold beforeIn
  rw [toSet_replay hs.prepared (hs.prepared.wellFormed.stop_le b hown.1), hs.alwaysLive_eq]
  exact FlowGraph.transferRange_succ_eq_livePath hs.prepared.wellFormed hs.least hown

/-- The live-set table of a converged analysis holds the path-defined live set. -/
theorem Solved.liveAt_entry (hs : lv.Solved g d al) {pc : Nat} (hpc : pc < g.instrCount) :
    ∃ X, entryAt lv.tables.live pc = .ok X ∧ X.toSet = al ∪ {r | g.LivePath d r pc} := by
  have hgraph : lv.graph = g := hs.prepared.graph_eq
  subst hgraph
  obtain ⟨b, hown⟩ := hs.prepared.wellFormed.covered pc hpc
  obtain ⟨hl, -⟩ := tables_at hs.prepared.wellFormed hown
  exact ⟨_, entryAt_of_getElem? hl, hs.toSet_beforeIn hown⟩

/-- The kill table of a converged analysis holds the operands live before the instruction and
live after it along no path. -/
theorem Solved.killedAt_entry (hs : lv.Solved g d al) {pc : Nat} (hpc : pc < g.instrCount) :
    ∃ K, entryAt lv.tables.kills pc = .ok K ∧ K.toSet =
      (al ∪ {r | g.LivePath d r pc}) \ (al ∪ {r | ∃ q, g.InstrSucc pc q ∧ g.LivePath d r q}) := by
  have hgraph : lv.graph = g := hs.prepared.graph_eq
  subst hgraph
  obtain ⟨b, hown⟩ := hs.prepared.wellFormed.covered pc hpc
  obtain ⟨-, hk⟩ := tables_at hs.prepared.wellFormed hown
  refine ⟨_, entryAt_of_getElem? hk, ?_⟩
  rw [OperandSet.toSet_diff, hs.toSet_beforeIn hown, hs.toSet_beforeIn_succ hown]

/-- Outside the instructions both tables answer with the offset out of range. -/
theorem Solved.entryAt_out (hs : lv.Solved g d al) {pc : Int}
    (hpc : ¬ (0 ≤ pc ∧ pc < g.instrCount)) :
    entryAt lv.tables.live pc = .error (.outOfRange "offset" pc g.instrCount) ∧
      entryAt lv.tables.kills pc = .error (.outOfRange "offset" pc g.instrCount) := by
  have hgraph : lv.graph = g := hs.prepared.graph_eq
  subst hgraph
  obtain ⟨hl, hk⟩ := size_tables hs.prepared.wellFormed
  -- the tables are as long as the graph has instructions
  constructor
  · rw [entryAt_of_not_lt (by rw [hl]; exact hpc), hl]
    rfl
  · rw [entryAt_of_not_lt (by rw [hk]; exact hpc), hk]
    rfl

end Solved

@[simp] theorem except_map_ok {ε α β : Type} (f : α → β) (a : α) :
    (Except.ok a : Except ε α).map f = .ok (f a) := rfl

@[simp] theorem except_map_error {ε α β : Type} (f : α → β) (e : ε) :
    (Except.error e : Except ε α).map f = .error e := rfl

theorem ask_liveAt (t : Tables lv.n) (pc : Int) :
    lv.ask t (.liveAt pc) = (entryAt t.live pc).map fun s => .set s.indices := by
  simp only [ask]
  cases entryAt t.live pc <;> rfl

theorem ask_killedAt (t : Tables lv.n) (pc : Int) :
    lv.ask t (.killedAt pc) = (entryAt t.kills pc).map fun s => .set s.indices := by
  simp only [ask]
  cases entryAt t.kills pc <;> rfl

/-! ### Over faithful cuts of a program -/

section Cuts

variable {g g₁ g₂ : FlowGraph} {p : Program} {al : Set ℕ} {lv₁ lv₂ : Liveness}

/-- At an instruction of a faithfully cut program, a converged analysis answers with the
path-defined live set and, as kills, those of it live after the instruction along no path from a
successor. -/
theorem Solved.ask_of_cuts (hs : lv.Solved g p.access al) (hc : g.Cuts p) {pc : Nat}
    (hpc : pc < p.size) :
    ∃ L K, lv.ask lv.tables (.liveAt pc) = .ok (.set L) ∧
      lv.ask lv.tables (.killedAt pc) = .ok (.set K) ∧
      {r | r ∈ L} = al ∪ {r | g.LivePath p.access r pc} ∧
      {r | r ∈ K} = {r | r ∈ L} \ (al ∪ {r | ∃ q, p.Succ pc q ∧ g.LivePath p.access r q}) := by
  have hn : pc < g.instrCount := by rw [hc.instrCount_eq]; exact hpc
  obtain ⟨X, hX, hset⟩ := hs.liveAt_entry hn
  obtain ⟨K, hK, hkset⟩ := hs.killedAt_entry hn
  refine ⟨X.indices, K.indices, ?_, ?_, hset, ?_⟩
  · rw [ask_liveAt, hX, except_map_ok]
  · rw [ask_killedAt, hK, except_map_ok]
  · show K.toSet = X.toSet \ _
    rw [hkset, hset]
    simp only [hc.instrSucc_iff]

/-- Two converged analyses over faithful cuts of one program, with the same always-live operands,
answer `liveAt` and `killedAt` alike at every offset. -/
theorem Solved.ask_eq_of_cuts (hs₁ : lv₁.Solved g₁ p.access al) (hs₂ : lv₂.Solved g₂ p.access al)
    (hc₁ : g₁.Cuts p) (hc₂ : g₂.Cuts p) (pc : Int) :
    lv₁.ask lv₁.tables (.liveAt pc) = lv₂.ask lv₂.tables (.liveAt pc) ∧
      lv₁.ask lv₁.tables (.killedAt pc) = lv₂.ask lv₂.tables (.killedAt pc) := by
  -- the two cuts have the same instruction successors, hence the same paths
  have hsucc : ∀ {a q : Nat}, g₁.InstrSucc a q ↔ g₂.InstrSucc a q :=
    hc₁.instrSucc_iff.trans hc₂.instrSucc_iff.symm
  have hpath : ∀ {r q : Nat}, g₁.LivePath p.access r q ↔ g₂.LivePath p.access r q :=
    hc₁.livePath_iff hc₂
  rw [ask_liveAt, ask_liveAt, ask_killedAt, ask_killedAt]
  by_cases hin : 0 ≤ pc ∧ pc < p.size
  · obtain ⟨n, rfl⟩ := Int.eq_ofNat_of_zero_le hin.1
    have hn₁ : n < g₁.instrCount := by rw [hc₁.instrCount_eq]; omega
    have hn₂ : n < g₂.instrCount := by rw [hc₂.instrCount_eq]; omega
    obtain ⟨X₁, hX₁, hset₁⟩ := hs₁.liveAt_entry hn₁
    obtain ⟨X₂, hX₂, hset₂⟩ := hs₂.liveAt_entry hn₂
    obtain ⟨K₁, hK₁, hkset₁⟩ := hs₁.killedAt_entry hn₁
    obtain ⟨K₂, hK₂, hkset₂⟩ := hs₂.killedAt_entry hn₂
    have hX : X₁.toSet = X₂.toSet := by
      rw [hset₁, hset₂]
      simp only [hpath]
    have hK : K₁.toSet = K₂.toSet := by
      rw [hkset₁, hkset₂]
      simp only [hpath, hsucc]
    simp only [hX₁, hX₂, hK₁, hK₂, except_map_ok, OperandSet.indices_eq_of_toSet_eq hX,
      OperandSet.indices_eq_of_toSet_eq hK, and_self]
  · obtain ⟨hl₁, hk₁⟩ := hs₁.entryAt_out (by rwa [hc₁.instrCount_eq])
    obtain ⟨hl₂, hk₂⟩ := hs₂.entryAt_out (by rwa [hc₂.instrCount_eq])
    simp only [hl₁, hl₂, hk₁, hk₂, except_map_error, hc₁.instrCount_eq, hc₂.instrCount_eq,
      and_self]

end Cuts

end Liveness

/-- Per-instruction liveness does not depend on how a program is cut into blocks. Cut a program
whose operations are valid and whose branch targets lie in it, with any two sets of pins, and
analyse both cuts with the same operand count, at least the program's, and the same always-live
operands, under any schedules: the live-set and kill tables answer alike at every offset. At an
instruction they hold the always-live operands and those live along a path, and the instruction
kills those of them live after it along no path from a successor. -/
theorem liveAt_killedAt_independent_of_pins {p : Program} {pins₁ pins₂ : List Int}
    {o₁ o₂ : Options} {m N : Nat} (hp : p.Valid) (hm : p.operandCount = .ok m) (hmN : m ≤ N) (hN₁ : o₁.operandCount = some N)
    (hN₂ : o₂.operandCount = some N) (hal : ∀ r ∈ o₁.alwaysLive, r < N)
    (hsame : ∀ r, r ∈ o₁.alwaysLive ↔ r ∈ o₂.alwaysLive) :
    ∃ g₁ g₂ lv₁ lv₂, p.toGraph pins₁ = .ok g₁ ∧ p.toGraph pins₂ = .ok g₂ ∧
      Liveness.analyze g₁.toRaw p.access o₁ = .ok lv₁ ∧
      Liveness.analyze g₂.toRaw p.access o₂ = .ok lv₂ ∧
      (∀ pc : Int, lv₁.ask lv₁.tables (.liveAt pc) = lv₂.ask lv₂.tables (.liveAt pc) ∧
        lv₁.ask lv₁.tables (.killedAt pc) = lv₂.ask lv₂.tables (.killedAt pc)) ∧
      ∀ pc < p.size, ∃ L K, lv₁.ask lv₁.tables (.liveAt pc) = .ok (.set L) ∧
        lv₁.ask lv₁.tables (.killedAt pc) = .ok (.set K) ∧
        {r | r ∈ L} = {r | r ∈ o₁.alwaysLive} ∪ {r | g₁.LivePath p.access r pc} ∧
        {r | r ∈ K} = {r | r ∈ L} \
          ({r | r ∈ o₁.alwaysLive} ∪ {r | ∃ q, p.Succ pc q ∧ g₁.LivePath p.access r q}) := by
  obtain ⟨g₁, lv₁, hg₁, hc₁, han₁, hs₁⟩ := p.exists_solved hp hm hmN hN₁ hal pins₁
  obtain ⟨g₂, lv₂, hg₂, hc₂, han₂, hs₂⟩ :=
    p.exists_solved hp hm hmN hN₂ (fun r hr => hal r ((hsame r).mpr hr)) pins₂
  have hal₂ : {r | r ∈ o₂.alwaysLive} = {r | r ∈ o₁.alwaysLive} := Set.ext fun r => (hsame r).symm
  rw [hal₂] at hs₂
  exact ⟨g₁, g₂, lv₁, lv₂, hg₁, hg₂, han₁, han₂, hs₁.ask_eq_of_cuts hs₂ hc₁ hc₂,
    fun pc hpc => hs₁.ask_of_cuts hc₁ hpc⟩

/-- A countdown: `r2 := 3`, then `r2 := r2 - 1` while `0 < r2`, then return `r2`. -/
def countdown : Program :=
  ⟨#[{ op := 1, rx := 2, iv := 3 }, { op := 6, rx := 2, ry := 2, iv := -1 },
    { op := 10, rx := 3, ry := 2, br := 1 }, { op := 14, rx := 2 }]⟩

/-- The countdown cut as it comes and with its loop body split in two, analysed by sweeps and by
the worklist. -/
theorem liveAt_killedAt_independent_of_pins_countdown :
    countdown.Valid ∧ countdown.operandCount = .ok 4 ∧
      ∃ g₁ g₂ lv₁ lv₂, countdown.toGraph [] = .ok g₁ ∧ countdown.toGraph [2] = .ok g₂ ∧
        Liveness.analyze g₁.toRaw countdown.access { operandCount := some 4 } = .ok lv₁ ∧
        Liveness.analyze g₂.toRaw countdown.access
          { operandCount := some 4, schedule := .worklist } = .ok lv₂ ∧
        (∀ pc : Int, lv₁.ask lv₁.tables (.liveAt pc) = lv₂.ask lv₂.tables (.liveAt pc) ∧
          lv₁.ask lv₁.tables (.killedAt pc) = lv₂.ask lv₂.tables (.killedAt pc)) ∧
        ∀ pc < countdown.size, ∃ L K, lv₁.ask lv₁.tables (.liveAt pc) = .ok (.set L) ∧
          lv₁.ask lv₁.tables (.killedAt pc) = .ok (.set K) ∧
          {r | r ∈ L} = {r | r ∈ ([] : List Nat)} ∪ {r | g₁.LivePath countdown.access r pc} ∧
          {r | r ∈ K} = {r | r ∈ L} \ ({r | r ∈ ([] : List Nat)} ∪
            {r | ∃ q, countdown.Succ pc q ∧ g₁.LivePath countdown.access r q}) := by
  have hp : countdown.Valid := by decide
  have hm : countdown.operandCount = .ok 4 := by rfl
  exact ⟨hp, hm, liveAt_killedAt_independent_of_pins hp hm (Nat.le_refl 4) rfl rfl
    (fun r hr => by simp at hr) fun r => Iff.rfl⟩

end RegisterLiveness
