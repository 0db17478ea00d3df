import RegisterLiveness.Proofs.Refusals
import RegisterLiveness.Proofs.Tables

/-!
# The operand universe of a program

`Program.operandCount` is a running maximum: from the number of special registers, each register
an instruction defines or uses raises it to one past that register. It is therefore at most `k`
exactly when `k` covers the special registers and every register the program names
(`operandCount_le_iff`), which makes it the least such number.

An analysis of a program whose operations are valid and whose branches stay inside it, cut into
blocks with any pins, with the special registers always live and any schedule, then fails
exactly when its universe is smaller than the operand count: below it, either a special register
or a register some instruction names lies outside the universe. It fails with an index out of
range and never aborts, since the decoder of such a program reports an access at every offset.
-/

namespace RegisterLiveness

namespace Program

variable {p : Program}

/-! ### The running maximum -/

/-- The running maximum of `r + 1` over a list of registers is at most `B` exactly when its start
and every `r + 1` are. -/
theorem foldl_max_le_iff (rs : List Int) (k B : Nat) :
    rs.foldl (fun m r => max m (r.toNat + 1)) k ≤ B ↔ k ≤ B ∧ ∀ r ∈ rs, r.toNat + 1 ≤ B := by
  induction rs generalizing k with
  | nil => simp
  | cons r rs ih =>
    simp only [List.foldl_cons, ih, Nat.max_le, List.mem_cons, forall_eq_or_imp]
    exact and_assoc

/-- The count over a list of instructions is at most `B` exactly when its start and every
register of every instruction, plus one, are. -/
theorem foldlM_registers_le_iff : ∀ (l : List Instr) (k m : Nat), l.foldlM (fun m i => do
      let a ← i.access
      return (a.defs ++ a.uses).foldl (fun m (r : Int) => max m (r.toNat + 1)) m) k = .ok m →
      ∀ B, m ≤ B ↔ k ≤ B ∧ ∀ i ∈ l, ∀ a, i.access = .ok a → ∀ r ∈ a.defs ++ a.uses,
        r.toNat + 1 ≤ B
  | [], k, m, h, B => by
    cases h
    simp
  | j :: l, k, m, h, B => by
    rw [List.foldlM_cons] at h
    obtain ⟨k', hk', hrest⟩ := except_bind_eq_ok.mp h
    obtain ⟨b, hb, hk''⟩ := except_bind_eq_ok.mp hk'
    cases hk''
    rw [foldlM_registers_le_iff l _ m hrest B, foldl_max_le_iff]
    -- the first instruction reports the one access `b`
    have hj : ∀ a, j.access = .ok a → a = b := fun a ha => by
      rw [hb] at ha
      exact (Except.ok.inj ha).symm
    constructor
    · rintro ⟨⟨hk, hregs⟩, hrest⟩
      refine ⟨hk, fun i hi a ha => ?_⟩
      rcases List.mem_cons.mp hi with rfl | hi
      · rw [hj a ha]
        exact hregs
      · exact hrest i hi a ha
    · rintro ⟨hk, hall⟩
      exact ⟨⟨hk, hall j List.mem_cons_self b hb⟩,
        fun i hi a ha => hall i (List.mem_cons_of_mem _ hi) a ha⟩

/-- With every operation valid, the count over a list of instructions has a value. -/
theorem exists_foldlM_registers : ∀ (l : List Instr) (k : Nat), (∀ i ∈ l, i.opcode?.isSome) →
    ∃ m, l.foldlM (fun m i => do
      let a ← i.access
      return (a.defs ++ a.uses).foldl (fun m (r : Int) => max m (r.toNat + 1)) m) k = .ok m
  | [], k, _ => ⟨k, rfl⟩
  | j :: l, k, hop => by
    obtain ⟨a, ha⟩ := Instr.access_eq_ok (hop j List.mem_cons_self)
    obtain ⟨m, hm⟩ := exists_foldlM_registers l
      ((a.defs ++ a.uses).foldl (fun m (r : Int) => max m (r.toNat + 1)) k)
      fun i hi => hop i (List.mem_cons_of_mem _ hi)
    refine ⟨m, ?_⟩
    rw [List.foldlM_cons, ha]
    exact hm

/-! ### The least universe -/

/-- Every register the program defines or uses, at any offset, lies below `k`. -/
def RegistersBelow (p : Program) (k : Nat) : Prop :=
  ∀ pc a, p.access pc = .ok a → ∀ r ∈ a.defs ++ a.uses, r < k

/-- Only an offset of the program decodes. -/
theorem exists_instr_of_access {pc : Nat} {a : Access} (h : p.access pc = .ok a) :
    ∃ i, p.instrs[pc]? = some i ∧ i.access = .ok a := by
  unfold access at h
  split at h
  · exact ⟨_, ‹_›, h⟩
  · cases h

/-- A program whose operations are all valid decodes at every offset. -/
theorem access_total (hop : ∀ i ∈ p.instrs, i.opcode?.isSome) {pc : Nat} (hpc : pc < p.size) :
    ∃ a, p.access pc = .ok a := by
  obtain ⟨a, ha⟩ := Instr.access_eq_ok (hop _ (Array.getElem_mem hpc))
  exact ⟨a, (access_of_getElem? (Array.getElem?_eq_getElem hpc)).trans ha⟩

/-- A program whose operations are all valid has an operand count. -/
theorem operandCount_eq_ok (hop : ∀ i ∈ p.instrs, i.opcode?.isSome) :
    ∃ c, p.operandCount = .ok c := by
  unfold operandCount
  rw [← Array.foldlM_toList]
  exact exists_foldlM_registers _ _ fun i hi => hop i (Array.mem_toList_iff.mp hi)

/-- The operand count is at most `k` exactly when `k` covers the special registers and every
register the program names. -/
theorem operandCount_le_iff {c : Nat} (h : p.operandCount = .ok c) (k : Nat) :
    c ≤ k ↔ specialRegisters ≤ k ∧ p.RegistersBelow k := by
  unfold operandCount at h
  rw [← Array.foldlM_toList] at h
  rw [foldlM_registers_le_iff _ _ _ h k]
  refine and_congr_right fun _ => ⟨fun hall pc a ha r hr => ?_, fun hbelow i hi a ha r hr => ?_⟩
  · obtain ⟨i, hi, hia⟩ := exists_instr_of_access ha
    have h₀ := Instr.nonneg_of_access hia r hr
    have := hall i (Array.mem_toList_iff.mpr (Array.mem_of_getElem? hi)) a hia r hr
    omega
  · -- an instruction of the program sits at some offset, where it decodes
    obtain ⟨pc, hpc⟩ := List.mem_iff_getElem?.mp hi
    rw [Array.getElem?_toList] at hpc
    have h₀ := Instr.nonneg_of_access ha r hr
    have := hbelow pc a ((access_of_getElem? hpc).trans ha) r hr
    omega

/-- The operand count is the least number covering the special registers and every register the
program names. -/
theorem operandCount_isLeast {c : Nat} (h : p.operandCount = .ok c) :
    IsLeast {k | specialRegisters ≤ k ∧ p.RegistersBelow k} c :=
  ⟨(operandCount_le_iff h c).mp (Nat.le_refl c), fun k hk => (operandCount_le_iff h k).mpr hk⟩

end Program

/-! ### Analyses of a program -/

/-- With a decoder that reports an access at every offset of a graph that validates, an analysis
is refused with an error, never by an abort. -/
theorem Refusal.exists_error {rg : RawGraph} {g : FlowGraph} {d : Decoder} {o : Options}
    {f : Failure} (hv : rg.validate = .ok g) (htot : ∀ pc < g.instrCount, ∃ a, d pc = .ok a)
    (h : Refusal rg d o f) : ∃ e, f = .error e := by
  cases h with
  | unsized => exact ⟨_, rfl⟩
  | malformed => exact ⟨_, rfl⟩
  | alwaysLive => exact ⟨_, rfl⟩
  | @decode n pc g' pre post f _ hv' _ hl _ hpc =>
    rw [hv] at hv'
    cases hv'
    -- the failing offset is an instruction, where the decoder reports an access
    have hmem : pc ∈ g.decodeOrder := by simp [hl]
    have hlt : pc < g.instrCount :=
      List.mem_range.mp ((Cfg.validate_wellFormed hv).perm_decodeOrder.mem_iff.mp hmem)
    obtain ⟨a, ha⟩ := htot pc hlt
    simp only [Problem.decodeFault?, ha, Option.map_eq_some_iff] at hpc
    obtain ⟨e, -, rfl⟩ := hpc
    exact ⟨_, rfl⟩

namespace Program

variable {p : Program} {g : FlowGraph} {c : Nat} {o : Options} {m : Nat}

/-- A program with valid operations decodes at every instruction of a faithful cut of it. -/
theorem access_total_of_cuts (hp : p.Valid) (hcuts : g.Cuts p) :
    ∀ pc < g.instrCount, ∃ a, p.access pc = .ok a := fun _ hpc =>
  access_total hp.opcodes (hcuts.instrCount_eq ▸ hpc)

/-- From the operand count on, an analysis of a faithful cut converges, the special registers
being in the universe. -/
theorem analyze_eq_ok_of_le (hp : p.Valid) (hcuts : g.Cuts p) (hc : p.operandCount = .ok c)
    (hm : o.operandCount = some m) (hal : o.alwaysLive = alwaysLiveRegisters) (hcm : c ≤ m) :
    ∃ lv, Liveness.analyze g.toRaw p.access o = .ok lv := by
  have hspecial : specialRegisters ≤ m := Nat.le_trans (operandCount_isLeast hc).1.1 hcm
  have hal' : ∀ r ∈ o.alwaysLive, r < m := by
    intro r hr
    rw [hal] at hr
    simp only [alwaysLiveRegisters, List.mem_cons, List.not_mem_nil, or_false] at hr
    simp only [specialRegisters] at hspecial
    omega
  obtain ⟨lv, han, -⟩ := Problem.analyze_solved hcuts.validate hm hal'
    (hcuts.instrCount_eq ▸ p.decodes hp.opcodes hc hcm)
  exact ⟨lv, han⟩

/-- Below the operand count, a check of an analysis of a faithful cut rejects it: a special
register, or else a register some instruction names, lies outside the universe. -/
theorem rejected_of_lt (hp : p.Valid) (hcuts : g.Cuts p) (hc : p.operandCount = .ok c)
    (hm : o.operandCount = some m) (hal : o.alwaysLive = alwaysLiveRegisters) (hlt : m < c) :
    Rejected g.toRaw p.access o := by
  refine .inr (.inr ?_)
  by_cases hspecial : specialRegisters ≤ m
  · have hnot : ¬ p.RegistersBelow m := fun hb =>
      Nat.lt_irrefl m (Nat.lt_of_lt_of_le hlt ((operandCount_le_iff hc m).mpr ⟨hspecial, hb⟩))
    simp only [RegistersBelow, not_forall] at hnot
    obtain ⟨pc, a, ha, r, hr, hout⟩ := hnot
    obtain ⟨i, hi, -⟩ := exists_instr_of_access ha
    have hpc : pc < g.instrCount := hcuts.instrCount_eq ▸ (Array.getElem?_eq_some_iff.mp hi).1
    exact .inr ⟨m, g, hm, hcuts.validate,
      (hcuts.wellFormed.firstDecodeOutside_iff (access_total_of_cuts hp hcuts)).mpr
        ⟨pc, hpc, a, ha, fun hin => hout (hin r hr).2⟩⟩
  · refine .inl ⟨m, hm, 1, by simp [hal, alwaysLiveRegisters], ?_⟩
    simp only [specialRegisters] at hspecial
    omega

end Program

/-- The universe an analysis of a program needs. For a program whose operations are valid and
whose branch targets lie in it, cut into blocks with any pins: its operand count is the least
number covering the special registers and every register an instruction defines or uses, and an
analysis with the special registers always live, any schedule and any verification flag fails
exactly when its universe is smaller than the operand count, and then always with an index out
of range. -/
theorem analyze_refused_iff_below_operandCount {p : Program} (hp : p.Valid) (pins : List Int) :
    ∃ c g, p.operandCount = .ok c ∧ p.toGraph pins = .ok g ∧
      IsLeast {k | specialRegisters ≤ k ∧ p.RegistersBelow k} c ∧
      ∀ (o : Options) (m : Nat), o.operandCount = some m → o.alwaysLive = alwaysLiveRegisters →
        ((∃ f, Liveness.analyze g.toRaw p.access o = .error f) ↔ m < c) ∧
        ∀ f, Liveness.analyze g.toRaw p.access o = .error f →
          ∃ e, f = .error e ∧ e.isOutOfRange = true := by
  obtain ⟨c, hc⟩ := Program.operandCount_eq_ok hp.opcodes
  obtain ⟨g, hg, hcuts⟩ := p.toGraph_cuts hp.targetsIn pins
  refine ⟨c, g, hc, hg, Program.operandCount_isLeast hc, fun o m hm hal => ?_⟩
  have hrefusal : ∀ f, Liveness.analyze g.toRaw p.access o = .error f ↔
      Refusal g.toRaw p.access o f := fun f => analyze_eq_error_iff.trans prepare_eq_error_iff
  refine ⟨⟨fun ⟨f, hf⟩ => Nat.lt_of_not_le fun hcm => ?_, fun hlt => ?_⟩, fun f hf => ?_⟩
  · obtain ⟨lv, han⟩ := Program.analyze_eq_ok_of_le hp hcuts hc hm hal hcm
    rw [han] at hf
    cases hf
  · obtain ⟨e, he⟩ := exists_refusal_error_iff.mpr (Program.rejected_of_lt hp hcuts hc hm hal hlt)
    exact ⟨_, (hrefusal _).mpr he⟩
  · -- the decoder never aborts, so the refusal is an error, and past a graph that validates
    have hr := (hrefusal f).mp hf
    obtain ⟨e, rfl⟩ := hr.exists_error hcuts.validate (Program.access_total_of_cuts hp hcuts)
    exact ⟨e, rfl, hr.kind.2.mpr ⟨⟨m, hm⟩, ⟨g, hcuts.validate⟩⟩⟩

theorem analyze_refused_iff_below_operandCount_countdown : countdown.Valid ∧
    ∃ c g, countdown.operandCount = .ok c ∧ countdown.toGraph [] = .ok g ∧
      IsLeast {k | specialRegisters ≤ k ∧ countdown.RegistersBelow k} c ∧
      ∀ (o : Options) (m : Nat), o.operandCount = some m → o.alwaysLive = alwaysLiveRegisters →
        ((∃ f, Liveness.analyze g.toRaw countdown.access o = .error f) ↔ m < c) ∧
        ∀ f, Liveness.analyze g.toRaw countdown.access o = .error f →
          ∃ e, f = .error e ∧ e.isOutOfRange = true := by
  have hp : countdown.Valid := by decide
  exact ⟨hp, analyze_refused_iff_below_operandCount hp []⟩

end RegisterLiveness
