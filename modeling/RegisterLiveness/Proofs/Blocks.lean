import RegisterLiveness.Proofs.Builder
import RegisterLiveness.Proofs.Paths
import RegisterLiveness.Machine.Blocks

/-!
# Programs as flow graphs

A program's own control flow is `Program.Succ`: after the instruction at `pc` control may go to
any of its branch targets, and to `pc + 1` when it falls through, as long as that offset is in the
program. `Program.toGraph` cuts the program into basic blocks, and the main result here is that
every cut it makes, whatever the extra pins, is faithful: it succeeds once every branch target is
in the program (`toGraph_eq_ok`), and the graph's instruction successors (`FlowGraph.InstrSucc`,
which crosses empty blocks and block ends) are exactly the program's (`Cuts.instrSucc_iff`).

The decoder of a program reports, at every offset, registers below its operand count
(`Program.decodes`), which is what an analysis of the program needs.
-/

namespace RegisterLiveness

/-! ### Decoding -/

namespace Instr

/-- An instruction whose operation byte names an operation reports its access. -/
theorem access_eq_ok {i : Instr} (h : i.opcode?.isSome) : ∃ a, i.access = .ok a := by
  unfold access
  cases hop : i.opcode? with
  | none => simp [hop] at h
  | some op => cases op <;> exact ⟨_, rfl⟩

/-- The registers of an access are registers: never negative. -/
theorem nonneg_of_access {i : Instr} {a : Access} (h : i.access = .ok a) :
    ∀ r ∈ a.defs ++ a.uses, 0 ≤ r := by
  unfold access at h
  cases hop : i.opcode? with
  | none => simp [hop] at h
  | some op =>
    cases op <;> simp only [hop, Except.ok.injEq] at h <;> subst h <;> simp [or_imp, forall_and]

end Instr

namespace Program

variable {p : Program}

theorem access_of_getElem? {pc : Nat} {i : Instr} (h : p.instrs[pc]? = some i) :
    p.access pc = i.access := by
  simp [access, h]

/-- The running maximum of `r + 1` over the registers of a list. -/
theorem le_foldl_max (rs : List Int) (k : Nat) :
    k ≤ rs.foldl (fun m r => max m (r.toNat + 1)) k ∧
      ∀ r ∈ rs, r.toNat + 1 ≤ rs.foldl (fun m r => max m (r.toNat + 1)) k := by
  induction rs generalizing k with
  | nil => simp
  | cons r rs ih =>
    obtain ⟨h₁, h₂⟩ := ih (max k (r.toNat + 1))
    refine ⟨by simp only [List.foldl_cons]; omega, fun x hx => ?_⟩
    rcases List.mem_cons.mp hx with rfl | hx
    · simp only [List.foldl_cons]; omega
    · exact h₂ x hx

/-- The operand count bounds every register of every instruction. -/
theorem lt_of_operandCount {m : Nat} (h : p.operandCount = .ok m) {pc : Nat} {i : Instr}
    (hi : p.instrs[pc]? = some i) {a : Access} (ha : i.access = .ok a) :
    ∀ r ∈ a.defs ++ a.uses, Int.toNat r < m := by
  -- the fold's accumulator only grows, and each instruction raises it above its registers
  have key : ∀ (l : List Instr) (k m : Nat), l.foldlM (fun m i => do
      let a ← i.access
      return (a.defs ++ a.uses).foldl (fun m (r : Int) => max m (r.toNat + 1)) m) k = .ok m →
      k ≤ m ∧ ∀ i ∈ l, ∀ a, i.access = .ok a → ∀ r ∈ a.defs ++ a.uses, Int.toNat r < m := by
    intro l
    induction l with
    | nil => intro k m h; simp only [List.foldlM_nil] at h; cases h; simp
    | cons j l ih =>
      intro k m h
      rw [List.foldlM_cons] at h
      obtain ⟨k', hk', hrest⟩ := except_bind_eq_ok.mp h
      obtain ⟨b, hb, hk''⟩ := except_bind_eq_ok.mp hk'
      cases hk''
      obtain ⟨hle, hall⟩ := ih _ _ hrest
      obtain ⟨h₁, h₂⟩ := le_foldl_max (b.defs ++ b.uses) k
      refine ⟨by omega, fun i hi a ha r hr => ?_⟩
      rcases List.mem_cons.mp hi with rfl | hi
      · rw [hb] at ha
        cases ha
        have := h₂ r hr
        omega
      · exact hall i hi a ha r hr
  unfold operandCount at h
  rw [← Array.foldlM_toList] at h
  exact (key _ _ _ h).2 i (Array.mem_toList_iff.mpr (Array.mem_of_getElem? hi)) a ha

/-- A program whose operations are all valid decodes, at every offset, to registers below any
bound at least its operand count. -/
theorem decodes {m N : Nat} (hop : ∀ i ∈ p.instrs, i.opcode?.isSome)
    (hm : p.operandCount = .ok m) (hN : m ≤ N) : Decoder.Decodes p.access p.size N := by
  intro pc hpc
  have hi : p.instrs[pc]? = some p.instrs[pc] := Array.getElem?_eq_getElem hpc
  obtain ⟨a, ha⟩ := Instr.access_eq_ok (hop _ (Array.getElem_mem hpc))
  refine ⟨a, (access_of_getElem? hi).trans ha, fun r hr => ?_⟩
  have h₀ := Instr.nonneg_of_access ha r hr
  have hlt := lt_of_operandCount hm hi ha r hr
  omega

end Program

/-- The byte an operation is read from. -/
theorem Opcode.ofByte?_eq_some {b : UInt8} {o : Opcode} (h : Opcode.ofByte? b = some o) :
    b.toNat = o.byte.toNat := by
  unfold ofByte? at h
  have hlt : b.toNat < 16 := (List.getElem?_eq_some_iff.mp h).1
  generalize b.toNat = n at h hlt ⊢
  interval_cases n <;> simp only [all, List.getElem?_cons_succ, List.getElem?_cons_zero,
    Option.some.injEq] at h <;> subst h <;> rfl

namespace Instr

theorem isTerminator_iff {i : Instr} : i.isTerminator ↔
    (8 ≤ i.op.toNat ∧ i.op.toNat ≤ 12) ∨ i.op.toNat = 14 ∨ i.op.toNat = 15 := by
  simp only [isTerminator, isBranch, Bool.or_eq_true, Bool.and_eq_true, decide_eq_true_eq,
    beq_iff_eq, UInt8.le_iff_toNat_le, ← UInt8.toNat_inj, UInt8.toNat_ofNat]
  omega

theorem fallsThrough_iff {i : Instr} : i.fallsThrough ↔
    ¬ (i.op.toNat = 11 ∨ i.op.toNat = 14 ∨ i.op.toNat = 15) := by
  simp only [fallsThrough, Bool.not_eq_true', Bool.or_eq_false_iff, beq_eq_false_iff_ne, ne_eq,
    ← UInt8.toNat_inj, not_or, UInt8.toNat_ofNat]
  omega

/-- Only `beq` to `bsw`, bytes 8 to 12, have branch targets. -/
theorem isBranch_of_targets_ne_nil {i : Instr} (h : i.targets ≠ []) :
    8 ≤ i.op.toNat ∧ i.op.toNat ≤ 12 := by
  unfold targets at h
  cases hop : i.opcode? with
  | none => simp [hop] at h
  | some o =>
    have hb := Opcode.ofByte?_eq_some hop
    cases o <;> simp only [hop, ne_eq, not_true_eq_false] at h <;>
      simp only [Opcode.byte, UInt8.toNat_ofNat] at hb <;> omega

/-- An instruction that ends no block has no branch target and falls through. -/
theorem targets_eq_nil_of_not_isTerminator {i : Instr} (h : ¬ i.isTerminator) :
    i.targets = [] ∧ i.fallsThrough := by
  rw [isTerminator_iff] at h
  refine ⟨?_, fallsThrough_iff.mpr (by omega)⟩
  by_contra hne
  have := isBranch_of_targets_ne_nil hne
  omega

end Instr

namespace Program

variable {p : Program}

/-! ### Control flow -/

/-- Control may pass from the instruction at `pc` to the instruction at `q`: `q` is in the
program and is a branch target of the instruction, or the next offset when it falls through. -/
def Succ (p : Program) (pc q : Nat) : Prop :=
  ∃ i, p.instrs[pc]? = some i ∧ q < p.size ∧ ((q : Int) ∈ i.targets ∨ (i.fallsThrough ∧ q = pc + 1))

theorem Succ.lt_size {pc q : Nat} (h : p.Succ pc q) : pc < p.size ∧ q < p.size := by
  obtain ⟨i, hi, hq, -⟩ := h
  exact ⟨(Array.getElem?_eq_some_iff.mp hi).1, hq⟩

/-- Every branch target lies in the program. -/
def TargetsIn (p : Program) : Prop :=
  ∀ (pc : Nat) (i : Instr), p.instrs[pc]? = some i → ∀ t ∈ i.targets, 0 ≤ t ∧ t < p.size

theorem targetsIn_iff : p.TargetsIn ↔ ∀ i ∈ p.instrs.toList, ∀ t ∈ i.targets, 0 ≤ t ∧ t < p.size := by
  constructor
  · intro h i hi
    obtain ⟨pc, hpc⟩ := List.mem_iff_getElem?.mp hi
    exact h pc i (by rwa [Array.getElem?_toList] at hpc)
  · intro h pc i hi
    exact h i (Array.mem_toList_iff.mpr (Array.mem_of_getElem? hi))

instance : DecidablePred TargetsIn := fun _ => decidable_of_iff _ targetsIn_iff.symm

/-- A program the analysis and the machine both accept: every operation byte names an operation
and every branch target lies in the program. -/
structure Valid (p : Program) : Prop where
  opcodes : ∀ i ∈ p.instrs, i.opcode?.isSome
  targetsIn : p.TargetsIn

instance : DecidablePred Valid := fun p =>
  decidable_of_iff ((∀ i ∈ p.instrs.toList, i.opcode?.isSome) ∧ p.TargetsIn)
    ⟨fun h => ⟨fun i hi => h.1 i (Array.mem_toList_iff.mpr hi), h.2⟩,
      fun h => ⟨fun i hi => h.opcodes i (Array.mem_toList_iff.mp hi), h.targetsIn⟩⟩

theorem forM_eq_ok_of {ε α : Type} {l : List α} {f : α → Except ε Unit}
    (h : ∀ x ∈ l, f x = .ok ()) : l.forM f = .ok () := by
  induction l with
  | nil => rfl
  | cons x l ih =>
    show (f x >>= fun _ => l.forM f) = _
    rw [h x List.mem_cons_self]
    exact ih fun y hy => h y (List.mem_cons_of_mem _ hy)

/-- With every target in the program, the target check passes. -/
theorem checkTargets_eq_ok (ht : p.TargetsIn) : p.checkTargets = .ok () := by
  apply forM_eq_ok_of
  rintro ⟨i, pc⟩ hx
  rw [List.mem_zipIdx_iff_getElem?, Array.getElem?_toList] at hx
  apply forM_eq_ok_of
  intro t htm
  rw [if_pos (ht pc i hx t htm)]
  rfl

end Program

/-! ### Leaders and blocks -/

theorem nodup_eraseDups {α : Type} [BEq α] [LawfulBEq α] : ∀ l : List α, l.eraseDups.Nodup
  | [] => List.nodup_nil
  | a :: as => by
    rw [List.eraseDups_cons]
    exact List.nodup_cons.mpr ⟨by simp, nodup_eraseDups _⟩
termination_by l => l.length
decreasing_by exact Nat.lt_succ_of_le (List.length_filter_le _ _)

namespace Program

variable {p : Program}

/-- The leaders: offsets in the program that start it, are branch targets, follow a terminator,
or are pinned. -/
theorem mem_leaders {pins : List Int} {x : Nat} : x ∈ p.leaders pins ↔ x < p.size ∧
    (x = 0 ∨ (∃ pc i, p.instrs[pc]? = some i ∧
      ((x : Int) ∈ i.targets ∨ (i.isTerminator ∧ x = pc + 1))) ∨ (x : Int) ∈ pins) := by
  simp only [leaders, List.mem_mergeSort, List.mem_eraseDups, List.mem_map, List.mem_filter,
    List.mem_append, List.mem_flatMap, List.mem_zipIdx_iff_getElem?, Array.getElem?_toList,
    decide_eq_true_eq]
  constructor
  · rintro ⟨y, ⟨(hentry | ⟨⟨i, pc⟩, hi, hy⟩) | hpin, h₀, hlt⟩, rfl⟩
    · refine ⟨by omega, .inl ?_⟩
      split at hentry
      · simp at hentry
      · rw [List.mem_singleton] at hentry
        subst hentry
        rfl
    · refine ⟨by omega, .inr (.inl ⟨pc, i, hi, ?_⟩)⟩
      rcases hy with hy | hy
      · exact .inl (by rwa [Int.toNat_of_nonneg h₀])
      · split at hy
        · rename_i hterm
          rw [List.mem_singleton] at hy
          subst hy
          simp only [Bool.and_eq_true, decide_eq_true_eq] at hterm
          exact .inr ⟨hterm.1, by omega⟩
        · simp at hy
    · exact ⟨by omega, .inr (.inr (by rwa [Int.toNat_of_nonneg h₀]))⟩
  · rintro ⟨hlt, rfl | ⟨pc, i, hi, hy⟩ | hpin⟩
    · refine ⟨0, ⟨.inl (.inl ?_), Int.le_refl _, by omega⟩, rfl⟩
      rw [if_neg (by omega)]
      exact List.mem_singleton_self _
    · refine ⟨x, ⟨.inl (.inr ⟨(i, pc), hi, ?_⟩), by omega, by omega⟩, by simp⟩
      rcases hy with hy | ⟨hterm, rfl⟩
      · exact .inl hy
      · refine .inr ?_
        rw [if_pos (by simp only [hterm, Bool.true_and, decide_eq_true_eq]; exact hlt)]
        exact List.mem_singleton_self _
    · exact ⟨x, ⟨.inr hpin, by omega, by omega⟩, by simp⟩

/-- The leaders are listed in increasing order, each once. -/
theorem lt_of_mem_leaders {pins : List Int} {x : Nat} (hx : x ∈ p.leaders pins) : x < p.size :=
  (mem_leaders.mp hx).1

theorem leaders_sorted (pins : List Int) : (p.leaders pins).Pairwise (· < ·) := by
  unfold leaders
  dsimp only
  generalize (List.map Int.toNat _) = l
  have hle : (l.eraseDups.mergeSort fun a b => decide (a ≤ b)).Pairwise
      (fun a b => decide (a ≤ b)) :=
    List.pairwise_mergeSort (fun _ _ _ h₁ h₂ => by simp only [decide_eq_true_eq] at *; omega)
      (fun a b => by simp only [Bool.or_eq_true, decide_eq_true_eq]; omega) l.eraseDups
  have hnd := (List.mergeSort_perm l.eraseDups (fun a b : Nat => decide (a ≤ b))).nodup_iff.mpr
    (nodup_eraseDups l)
  exact (hle.and hnd).imp fun h => by simp only [decide_eq_true_eq] at h; omega

/-! ### Blocks from leaders -/

@[simp] theorem spans_nil : p.spans [] = [] := rfl

/-- Each leader's block ends at the next leader, the last one at the end of the program. -/
theorem spans_cons (a : Nat) (ls : List Nat) :
    p.spans (a :: ls) = (a, ls.head?.getD p.size) :: p.spans ls := by
  cases ls <;> rfl

theorem length_spans (ls : List Nat) : (p.spans ls).length = ls.length := by
  induction ls with
  | nil => rfl
  | cons a ls ih => rw [spans_cons, List.length_cons, ih, List.length_cons]

/-- The block at index `k` starts at the `k`-th leader. -/
theorem getElem?_spans (ls : List Nat) (k : Nat) : (p.spans ls)[k]?.map Prod.fst = ls[k]? := by
  induction ls generalizing k with
  | nil => rfl
  | cons a ls ih =>
    cases k with
    | zero => simp [spans_cons]
    | succ k => simpa [spans_cons] using ih k

/-- The end of a leader's block: above it, at most the end of the program, below every later
leader, and itself a leader unless it is the end. -/
theorem next_spec {a : Nat} {ls : List Nat} (hs : (a :: ls).Pairwise (· < ·))
    (hlt : ∀ x ∈ a :: ls, x < p.size) :
    a < ls.head?.getD p.size ∧ ls.head?.getD p.size ≤ p.size ∧
      (∀ y ∈ ls, ls.head?.getD p.size ≤ y) ∧
      (ls.head?.getD p.size = p.size ∨ ls.head?.getD p.size ∈ ls) := by
  cases ls with
  | nil => simpa using hlt a List.mem_cons_self
  | cons b ls =>
    simp only [List.head?_cons, Option.getD_some]
    obtain ⟨hab, hbs⟩ := List.pairwise_cons.mp hs
    refine ⟨hab b List.mem_cons_self, Nat.le_of_lt (hlt b (by simp)), fun y hy => ?_,
      .inr List.mem_cons_self⟩
    rcases List.mem_cons.mp hy with rfl | hy
    · exact Nat.le_refl _
    · exact Nat.le_of_lt ((List.pairwise_cons.mp hbs).1 y hy)

section Sorted

variable {ls : List Nat} (hs : ls.Pairwise (· < ·)) (hlt : ∀ x ∈ ls, x < p.size)
include hs hlt

theorem mem_spans_bounds {s e : Nat} (h : (s, e) ∈ p.spans ls) :
    s ∈ ls ∧ s < e ∧ e ≤ p.size ∧ (e = p.size ∨ e ∈ ls) := by
  induction ls with
  | nil => simp at h
  | cons a ls ih =>
    obtain ⟨h₁, h₂, -, h₄⟩ := next_spec hs hlt
    rw [spans_cons, List.mem_cons] at h
    rcases h with h | h
    · obtain ⟨rfl, rfl⟩ := Prod.mk.injEq _ _ _ _ ▸ h
      exact ⟨List.mem_cons_self, h₁, h₂, h₄.imp id (List.mem_cons_of_mem _)⟩
    · obtain ⟨hs', he, hle, hend⟩ := ih (List.pairwise_cons.mp hs).2
        (fun x hx => hlt x (List.mem_cons_of_mem _ hx)) h
      exact ⟨List.mem_cons_of_mem _ hs', he, hle, hend.imp id (List.mem_cons_of_mem _)⟩

/-- Each block ends before the next one starts. -/
theorem spans_sorted : (p.spans ls).Pairwise (fun x y => x.2 ≤ y.1) := by
  induction ls with
  | nil => exact List.Pairwise.nil
  | cons a ls ih =>
    obtain ⟨-, -, h₃, -⟩ := next_spec hs hlt
    have hs' := (List.pairwise_cons.mp hs).2
    have hlt' : ∀ x ∈ ls, x < p.size := fun x hx => hlt x (List.mem_cons_of_mem _ hx)
    rw [spans_cons]
    refine List.pairwise_cons.mpr ⟨fun y hy => ?_, ih hs' hlt'⟩
    exact h₃ y.1 (mem_spans_bounds hs' hlt' (show (y.1, y.2) ∈ _ from hy)).1

/-- From the first leader on, every offset of the program is in a block. -/
theorem spans_covers {a pc : Nat} (ha : ls.head? = some a) (hpc : a ≤ pc) (hpcn : pc < p.size) :
    ∃ x ∈ p.spans ls, x.1 ≤ pc ∧ pc < x.2 := by
  induction ls generalizing a with
  | nil => simp at ha
  | cons b ls ih =>
    simp only [List.head?_cons, Option.some.injEq] at ha
    subst ha
    obtain ⟨-, -, -, h₄⟩ := next_spec hs hlt
    rw [spans_cons]
    by_cases hnext : pc < ls.head?.getD p.size
    · exact ⟨_, List.mem_cons_self, hpc, hnext⟩
    · -- past this block: the next leader exists and starts the rest
      cases ls with
      | nil => simp at hnext; omega
      | cons c ls =>
        simp only [List.head?_cons, Option.getD_some] at hnext
        obtain ⟨x, hx, h⟩ := ih (List.pairwise_cons.mp hs).2
          (fun x hx => hlt x (List.mem_cons_of_mem _ hx)) rfl (by omega)
        exact ⟨x, List.mem_cons_of_mem _ hx, h⟩

/-- No leader lies strictly inside a block. -/
theorem not_mem_inside {s e l : Nat} (h : (s, e) ∈ p.spans ls) (hl : l ∈ ls) : ¬ (s < l ∧ l < e) := by
  induction ls with
  | nil => simp at hl
  | cons a ls ih =>
    obtain ⟨-, -, h₃, -⟩ := next_spec hs hlt
    have hs' := (List.pairwise_cons.mp hs).2
    have hlt' : ∀ x ∈ ls, x < p.size := fun x hx => hlt x (List.mem_cons_of_mem _ hx)
    rw [spans_cons, List.mem_cons] at h
    rcases h with h | h
    · obtain ⟨rfl, rfl⟩ := Prod.mk.injEq _ _ _ _ ▸ h
      rcases List.mem_cons.mp hl with rfl | hl
      · omega
      · have := h₃ l hl
        omega
    · rcases List.mem_cons.mp hl with rfl | hl
      · have := (List.pairwise_cons.mp hs).1 s (mem_spans_bounds hs' hlt' h).1
        omega
      · exact ih hs' hlt' h hl

end Sorted

/-- A leader's block is found by its position among the leaders. -/
theorem blockAt_eq {ls : List Nat} (hnd : ls.Nodup) {j t : Nat} (h : ls[j]? = some t) :
    blockAt ls t = j := by
  obtain ⟨hj, rfl⟩ := List.getElem?_eq_some_iff.mp h
  have : ls.idxOf? ls[j] = some j := by
    refine List.idxOf?_eq_some_iff.mpr ⟨hj, rfl, fun i hi heq => ?_⟩
    have := (List.getElem_inj hnd).mp heq
    omega
  simp [blockAt, this]

theorem mem_edges {ls : List Nat} {e : Int × Int} :
    e ∈ p.edges ls ↔ ∃ k x, (p.spans ls)[k]? = some x ∧ e ∈ p.exitEdges ls k x.2 := by
  simp only [edges, List.mem_flatMap, List.mem_zipIdx_iff_getElem?]
  constructor
  · rintro ⟨⟨x, k⟩, hx, he⟩
    exact ⟨k, x, hx, he⟩
  · rintro ⟨k, x, hx, he⟩
    exact ⟨(x, k), hx, he⟩

/-- The edges out of a block: to the blocks at the targets of its last instruction, and to the
next block when that instruction falls through and the program goes on. -/
theorem mem_exitEdges {ls : List Nat} {k stop : Nat} {e : Int × Int} :
    e ∈ p.exitEdges ls k stop ↔ e.1 = k ∧
      ((∃ t ∈ (p.instrs.getD (stop - 1) default).targets, e.2 = blockAt ls t.toNat) ∨
        ((p.instrs.getD (stop - 1) default).fallsThrough ∧ stop < p.size ∧ e.2 = blockAt ls stop)) := by
  obtain ⟨e₁, e₂⟩ := e
  simp only [exitEdges, List.mem_append, List.mem_map, Prod.mk.injEq]
  constructor
  · rintro (⟨t, ht, rfl, rfl⟩ | he)
    · exact ⟨rfl, .inl ⟨t, ht, rfl⟩⟩
    · split at he
      · rename_i hc
        simp only [Bool.and_eq_true, decide_eq_true_eq] at hc
        simp only [List.mem_singleton, Prod.mk.injEq] at he
        exact ⟨he.1, .inr ⟨hc.1, hc.2, he.2⟩⟩
      · simp at he
  · rintro ⟨rfl, ⟨t, ht, rfl⟩ | ⟨hf, hstop, rfl⟩⟩
    · exact .inl ⟨t, ht, rfl, rfl⟩
    · refine .inr ?_
      rw [if_pos (by simp only [hf, Bool.true_and, decide_eq_true_eq]; exact hstop)]
      exact List.mem_singleton_self _

end Program

/-! ### Faithful cuts -/

namespace FlowGraph

variable {g : FlowGraph} {p : Program}

/-- `g` cuts the program `p` into basic blocks faithfully: it is a checked graph over the
program's instructions, no block is empty, inside a block control only falls to the next
instruction, and the successors of a block start exactly where its last instruction may go. -/
structure Cuts (g : FlowGraph) (p : Program) : Prop where
  validate : g.toRaw.validate = .ok g
  instrCount_eq : g.instrCount = p.size
  nonempty : ∀ bb < g.blockCount, (g.block bb).start < (g.block bb).stop
  succ_inside : ∀ {bb pc q : Nat}, g.Owns bb pc → pc + 1 < (g.block bb).stop →
    (p.Succ pc q ↔ q = pc + 1)
  succ_exit : ∀ {bb q : Nat}, bb < g.blockCount →
    (p.Succ ((g.block bb).stop - 1) q ↔ ∃ c ∈ g.succs bb, (g.block c).start = q)

theorem Cuts.wellFormed (hc : g.Cuts p) : g.WellFormed :=
  Cfg.validate_wellFormed hc.validate

/-- Without empty blocks, a chain through empty blocks is a single edge. -/
theorem Cuts.emptyReach_iff (hc : g.Cuts p) {b c : Nat} :
    g.EmptyReach b c ↔ b < g.blockCount ∧ c ∈ g.succs b := by
  constructor
  · intro h
    cases h with
    | succ hb hc' => exact ⟨hb, hc'⟩
    | skip hb he hempty _ =>
      have := hc.nonempty _ (hc.wellFormed.succ_lt _ hb _ he)
      omega
  · rintro ⟨hb, hcs⟩
    exact EmptyReach.succ hb hcs

/-- A faithful cut has the program's own control flow between instructions. -/
theorem Cuts.instrSucc_iff (hc : g.Cuts p) {a q : Nat} : g.InstrSucc a q ↔ p.Succ a q := by
  constructor
  · intro h
    cases h with
    | next hown hnext => exact (hc.succ_inside hown hnext).mpr rfl
    | @exit b c _ hown hlast hreach _ =>
      obtain ⟨hb, hcs⟩ := hc.emptyReach_iff.mp hreach
      have ha : a = (g.block b).stop - 1 := by omega
      rw [ha]
      exact (hc.succ_exit hb).mpr ⟨c, hcs, rfl⟩
  · intro h
    have ha : a < g.instrCount := hc.instrCount_eq ▸ h.lt_size.1
    obtain ⟨b, hown⟩ := hc.wellFormed.covered a ha
    by_cases hnext : a + 1 < (g.block b).stop
    · rw [(hc.succ_inside hown hnext).mp h]
      exact InstrSucc.next hown hnext
    · -- the last instruction of its block: control leaves through a successor block
      have hlast : a + 1 = (g.block b).stop := by have := hown.2.2; omega
      have hsucc : p.Succ ((g.block b).stop - 1) q := by
        rw [show (g.block b).stop - 1 = a by omega]
        exact h
      obtain ⟨c, hcs, rfl⟩ := (hc.succ_exit hown.1).mp hsucc
      exact InstrSucc.exit hown hlast (EmptyReach.succ hown.1 hcs)
        (hc.nonempty c (hc.wellFormed.succ_lt _ hown.1 c hcs))

/-- Liveness along paths sees a graph only through its instruction successors. -/
theorem LivePath.of_instrSucc {g₁ g₂ : FlowGraph} {d : Decoder} {r pc : Nat}
    (h : ∀ {a q : Nat}, g₁.InstrSucc a q → g₂.InstrSucc a q) (hp : g₁.LivePath d r pc) :
    g₂.LivePath d r pc := by
  induction hp with
  | use hu => exact LivePath.use hu
  | step hd hq _ ih => exact LivePath.step hd (h hq) ih

/-- Two faithful cuts of one program have the same operands live along paths. -/
theorem Cuts.livePath_iff {g₁ g₂ : FlowGraph} (h₁ : g₁.Cuts p) (h₂ : g₂.Cuts p) {d : Decoder}
    {r pc : Nat} : g₁.LivePath d r pc ↔ g₂.LivePath d r pc :=
  ⟨LivePath.of_instrSucc fun hq => h₂.instrSucc_iff.mpr (h₁.instrSucc_iff.mp hq),
    LivePath.of_instrSucc fun hq => h₁.instrSucc_iff.mpr (h₂.instrSucc_iff.mp hq)⟩

/-- `g` is the graph of the blocks that start at the leaders `ls`: a checked graph over the
program whose block `k` owns the `k`-th range and whose block successors are the ends of the
block's exit edges. -/
structure BuiltFrom (g : FlowGraph) (p : Program) (ls : List Nat) : Prop where
  validate : g.toRaw.validate = .ok g
  instrCount_eq : g.instrCount = p.size
  blockCount_eq : g.blockCount = ls.length
  block_range : ∀ {k s e : Nat}, (p.spans ls)[k]? = some (s, e) →
    (g.block k).start = s ∧ (g.block k).stop = e
  mem_succs_iff : ∀ {k c : Nat}, k < g.blockCount →
    (c ∈ g.succs k ↔ ((k : Int), (c : Int)) ∈ p.edges ls)

end FlowGraph

namespace Program

variable {p : Program}

theorem head?_leaders (pins : List Int) (h : 0 < p.size) : (p.leaders pins).head? = some 0 := by
  have h0 : 0 ∈ p.leaders pins := mem_leaders.mpr ⟨h, .inl rfl⟩
  have hs := p.leaders_sorted pins
  cases hls : p.leaders pins with
  | nil => rw [hls] at h0; simp at h0
  | cons a ls =>
    rw [hls] at h0 hs
    rcases List.mem_cons.mp h0 with rfl | h0
    · rfl
    · have := (List.pairwise_cons.mp hs).1 0 h0
      omega

/-- The blocks of sorted leaders starting at 0 tile the program. -/
theorem tiles_spans {ls : List Nat} (hs : ls.Pairwise (· < ·)) (hlt : ∀ x ∈ ls, x < p.size)
    (h0 : 0 < p.size → ls.head? = some 0) :
    Tiles ((p.spans ls).map fun x => ((x.1 : Int), (x.2 : Int))) p.size where
  nonneg := Int.natCast_nonneg _
  bounds x hx := by
    obtain ⟨⟨s, e⟩, hy, rfl⟩ := List.mem_map.mp hx
    have := mem_spans_bounds hs hlt hy
    simp only
    omega
  sorted := List.pairwise_map.mpr ((spans_sorted hs hlt).imp fun h => by omega)
  covers pc hpc₀ hpc := by
    obtain ⟨x, hx, hlo, hhi⟩ :=
      spans_covers hs hlt (h0 (by omega)) (Nat.zero_le pc.toNat) (by omega)
    exact ⟨_, List.mem_map_of_mem hx, by simp only; omega, by simp only; omega⟩

theorem exists_blockAt {ls : List Nat} (hnd : ls.Nodup) {x : Nat} (hx : x ∈ ls) :
    ∃ j : Nat, ls[j]? = some x ∧ blockAt ls x = j := by
  obtain ⟨j, hj⟩ := List.mem_iff_getElem?.mp hx
  exact ⟨j, hj, blockAt_eq hnd hj⟩

theorem getElem?_last {ls : List Nat} (hs : ls.Pairwise (· < ·)) (hlt : ∀ x ∈ ls, x < p.size)
    {s e : Nat} (h : (s, e) ∈ p.spans ls) :
    p.instrs[e - 1]? = some (p.instrs.getD (e - 1) default) := by
  have := mem_spans_bounds hs hlt h
  simp [Array.getElem?_eq_getElem (show e - 1 < p.instrs.size by unfold size at this; omega)]

theorem target_mem_leaders (ht : p.TargetsIn) (pins : List Int) {pc : Nat} {i : Instr}
    (hi : p.instrs[pc]? = some i) {t : Int} (htm : t ∈ i.targets) :
    t.toNat ∈ p.leaders pins := by
  have := ht pc i hi t htm
  refine mem_leaders.mpr ⟨by omega, .inr (.inl ⟨pc, i, hi, .inl ?_⟩)⟩
  rwa [Int.toNat_of_nonneg this.1]

/-- Every edge joins two blocks. -/
theorem edges_valid (ht : p.TargetsIn) (pins : List Int) {e : Int × Int}
    (he : e ∈ p.edges (p.leaders pins)) :
    (0 ≤ e.1 ∧ e.1 < (p.leaders pins).length) ∧ (0 ≤ e.2 ∧ e.2 < (p.leaders pins).length) := by
  have hs := p.leaders_sorted pins
  have hlt : ∀ x ∈ p.leaders pins, x < p.size := fun _ => lt_of_mem_leaders
  have hnd : (p.leaders pins).Nodup := hs.imp Nat.ne_of_lt
  have hblock : ∀ x ∈ p.leaders pins, 0 ≤ blockAt (p.leaders pins) x ∧
      blockAt (p.leaders pins) x < (p.leaders pins).length := by
    intro x hx
    obtain ⟨j, hj, hb⟩ := exists_blockAt hnd hx
    have := (List.getElem?_eq_some_iff.mp hj).1
    omega
  obtain ⟨k, ⟨s, stop⟩, hk, he⟩ := mem_edges.mp he
  have hmem : (s, stop) ∈ p.spans (p.leaders pins) := List.mem_of_getElem? hk
  have hklt : k < (p.leaders pins).length := by
    have := (List.getElem?_eq_some_iff.mp hk).1
    rwa [length_spans] at this
  obtain ⟨h₁, hdst⟩ := mem_exitEdges.mp he
  refine ⟨by omega, ?_⟩
  rcases hdst with ⟨t, htm, h₂⟩ | ⟨-, hstop, h₂⟩
  · rw [h₂]
    exact hblock _ (target_mem_leaders ht pins (getElem?_last hs hlt hmem) htm)
  · rw [h₂]
    obtain ⟨-, -, -, hend⟩ := mem_spans_bounds hs hlt hmem
    exact hblock _ (hend.resolve_left (by omega))

theorem exists_instr {pc : Nat} (h : pc < p.size) : ∃ i, p.instrs[pc]? = some i :=
  ⟨_, Array.getElem?_eq_getElem h⟩

/-- With every branch target in the program, cutting it into blocks succeeds, whatever the
pins, and gives the graph of the blocks that start at the leaders. -/
theorem toGraph_eq_ok (ht : p.TargetsIn) (pins : List Int) :
    ∃ g, p.toGraph pins = .ok g ∧ g.BuiltFrom p (p.leaders pins) := by
  have hs := p.leaders_sorted pins
  have hlt : ∀ x ∈ p.leaders pins, x < p.size := fun _ => lt_of_mem_leaders
  let rs := (p.spans (p.leaders pins)).map fun x => ((x.1 : Int), (x.2 : Int))
  have hrs : rs.length = (p.leaders pins).length := by simp [rs, length_spans]
  have hedges : ∀ e ∈ p.edges (p.leaders pins),
      (0 ≤ e.1 ∧ e.1 < rs.length) ∧ (0 ≤ e.2 ∧ e.2 < rs.length) := by
    rw [hrs]
    exact fun e he => edges_valid ht pins he
  obtain ⟨b, hb, hrec⟩ := GraphBuilder.addEdges_eq_ok (GraphBuilder.records_addBlocks rs) hedges
  rw [List.nil_append] at hrec
  have hv : b.toRaw.validate = .ok ⟨b.blocks.map RawGraph.blockOf, (p.size : Int).toNat⟩ :=
    GraphBuilder.build_eq_ok hrec (tiles_spans hs hlt (head?_leaders pins)) hedges
  refine ⟨⟨b.blocks.map RawGraph.blockOf, (p.size : Int).toNat⟩, ?_, ?_⟩
  · unfold toGraph
    simp only [checkTargets_eq_ok ht, Failure.ofError, Failure.ofAbort, bind, Except.bind]
    rw [hb]
    simp only [GraphBuilder.build, hv]
  · constructor
    · rw [RawGraph.toRaw_eq_of_validate hv]
      exact hv
    · simp
    · rw [hrec.blockCount_eq hv, hrs]
    · intro k s e hk
      have hk' : rs[k]? = some ((s : Int), (e : Int)) := by simp [rs, hk]
      have := hrec.block_range hv hk'
      omega
    · intro k c hk
      exact hrec.mem_succs_iff hv hk

end Program

namespace FlowGraph

variable {g : FlowGraph} {p : Program} {ls : List Nat}

theorem BuiltFrom.exists_span (hb : g.BuiltFrom p ls) {k : Nat} (hk : k < g.blockCount) :
    ∃ s e, (p.spans ls)[k]? = some (s, e) ∧ (g.block k).start = s ∧ (g.block k).stop = e := by
  have hlt : k < (p.spans ls).length := by rw [Program.length_spans, ← hb.blockCount_eq]; exact hk
  obtain ⟨⟨s, e⟩, hse⟩ : ∃ x, (p.spans ls)[k]? = some x := ⟨_, List.getElem?_eq_getElem hlt⟩
  exact ⟨s, e, hse, hb.block_range hse⟩

/-- The block at a leader's position starts at that leader. -/
theorem BuiltFrom.start_of_getElem? (hb : g.BuiltFrom p ls) {j x : Nat} (hj : ls[j]? = some x) :
    j < g.blockCount ∧ (g.block j).start = x := by
  have hmap := Program.getElem?_spans (p := p) ls j
  rw [hj, Option.map_eq_some_iff] at hmap
  obtain ⟨⟨s, e⟩, hse, rfl⟩ := hmap
  refine ⟨?_, (hb.block_range hse).1⟩
  rw [hb.blockCount_eq]
  exact (List.getElem?_eq_some_iff.mp hj).1

section Leaders

variable {pins : List Int}

/-- A leader `x` starts the block `blockAt x`. -/
theorem BuiltFrom.start_blockAt (hb : g.BuiltFrom p (p.leaders pins)) {x : Nat}
    (hx : x ∈ p.leaders pins) :
    ∃ j : Nat, Program.blockAt (p.leaders pins) x = j ∧ j < g.blockCount ∧ (g.block j).start = x := by
  have hnd : (p.leaders pins).Nodup := (p.leaders_sorted pins).imp Nat.ne_of_lt
  obtain ⟨j, hj, hbj⟩ := Program.exists_blockAt hnd hx
  exact ⟨j, hbj, hb.start_of_getElem? hj⟩

/-- The successors of a block are the blocks at the exits of its last instruction. -/
theorem BuiltFrom.mem_succs_iff_exit (hb : g.BuiltFrom p ls) {bb s e : Nat}
    (hbb : bb < g.blockCount) (hk : (p.spans ls)[bb]? = some (s, e)) (c : Nat) :
    c ∈ g.succs bb ↔
      (∃ t ∈ (p.instrs.getD (e - 1) default).targets, (c : Int) = Program.blockAt ls t.toNat) ∨
      ((p.instrs.getD (e - 1) default).fallsThrough ∧ e < p.size ∧
        (c : Int) = Program.blockAt ls e) := by
  rw [hb.mem_succs_iff hbb, Program.mem_edges]
  constructor
  · rintro ⟨k, x, hk', he⟩
    obtain ⟨h₁, h₂⟩ := Program.mem_exitEdges.mp he
    have hkb : k = bb := by simp only at h₁; exact_mod_cast h₁.symm
    subst hkb
    rw [hk, Option.some.injEq] at hk'
    subst hk'
    exact h₂
  · intro h₂
    exact ⟨bb, (s, e), hk, Program.mem_exitEdges.mpr ⟨rfl, h₂⟩⟩

theorem BuiltFrom.nonempty (hb : g.BuiltFrom p (p.leaders pins)) :
    ∀ bb < g.blockCount, (g.block bb).start < (g.block bb).stop := by
  intro bb hbb
  obtain ⟨s, e, hk, rfl, rfl⟩ := hb.exists_span hbb
  exact (Program.mem_spans_bounds (p.leaders_sorted pins) (fun _ => Program.lt_of_mem_leaders)
    (List.mem_of_getElem? hk)).2.1

/-- Only the last instruction of a block may be a terminator: the offset after any other is no
leader. -/
theorem BuiltFrom.not_isTerminator (hb : g.BuiltFrom p (p.leaders pins)) {bb pc : Nat} {i : Instr}
    (hown : g.Owns bb pc) (hnext : pc + 1 < (g.block bb).stop) (hi : p.instrs[pc]? = some i) :
    ¬ i.isTerminator := by
  have hs := p.leaders_sorted pins
  have hlt : ∀ x ∈ p.leaders pins, x < p.size := fun _ => Program.lt_of_mem_leaders
  obtain ⟨s, e, hk, hs', he'⟩ := hb.exists_span hown.1
  have hmem := List.mem_of_getElem? hk
  obtain ⟨-, -, hle, -⟩ := Program.mem_spans_bounds hs hlt hmem
  obtain ⟨-, hlo, hhi⟩ := hown
  intro hterm
  have hlead : pc + 1 ∈ p.leaders pins :=
    Program.mem_leaders.mpr ⟨by omega, .inr (.inl ⟨pc, i, hi, .inr ⟨hterm, rfl⟩⟩)⟩
  exact Program.not_mem_inside hs hlt hmem hlead ⟨by omega, by omega⟩

/-- Inside a block the instruction ends no block, so control only falls through. -/
theorem BuiltFrom.succ_inside (hb : g.BuiltFrom p (p.leaders pins)) {bb pc q : Nat}
    (hown : g.Owns bb pc) (hnext : pc + 1 < (g.block bb).stop) : p.Succ pc q ↔ q = pc + 1 := by
  have hstop := (Cfg.validate_wellFormed hb.validate).stop_le bb hown.1
  rw [hb.instrCount_eq] at hstop
  obtain ⟨i, hi⟩ := Program.exists_instr (show pc < p.size by omega)
  obtain ⟨hnil, hfall⟩ :=
    Instr.targets_eq_nil_of_not_isTerminator (hb.not_isTerminator hown hnext hi)
  constructor
  · rintro ⟨i', hi', -, hkind⟩
    rw [hi, Option.some.injEq] at hi'
    subst hi'
    rcases hkind with hq | ⟨-, rfl⟩
    · rw [hnil] at hq
      exact absurd hq List.not_mem_nil
    · rfl
  · rintro rfl
    exact ⟨i, hi, by omega, .inr ⟨hfall, rfl⟩⟩

/-- The successors of a block start exactly where its last instruction may go. -/
theorem BuiltFrom.succ_exit (ht : p.TargetsIn) (hb : g.BuiltFrom p (p.leaders pins)) {bb q : Nat}
    (hbb : bb < g.blockCount) :
    p.Succ ((g.block bb).stop - 1) q ↔ ∃ c ∈ g.succs bb, (g.block c).start = q := by
  have hs := p.leaders_sorted pins
  have hlt : ∀ x ∈ p.leaders pins, x < p.size := fun _ => Program.lt_of_mem_leaders
  obtain ⟨s, e, hk, hs', he'⟩ := hb.exists_span hbb
  have hmem := List.mem_of_getElem? hk
  obtain ⟨-, hse, hle, hend⟩ := Program.mem_spans_bounds hs hlt hmem
  have hlast := Program.getElem?_last hs hlt hmem
  have hsucc := hb.mem_succs_iff_exit hbb hk
  rw [he']
  constructor
  · rintro ⟨i, hi, hq, hkind⟩
    rw [hlast, Option.some.injEq] at hi
    subst hi
    rcases hkind with htq | ⟨hfall, rfl⟩
    · -- a branch target is a leader, so it starts a block
      have hlead := Program.target_mem_leaders ht pins hlast htq
      rw [Int.toNat_natCast] at hlead
      obtain ⟨j, hbj, -, hjs⟩ := hb.start_blockAt hlead
      refine ⟨j, (hsucc j).mpr (.inl ⟨q, htq, ?_⟩), hjs⟩
      rw [Int.toNat_natCast, hbj]
    · -- the offset after a block's end is a leader when it is in the program
      have hlead : e ∈ p.leaders pins := hend.resolve_left (by omega)
      obtain ⟨j, hbj, -, hjs⟩ := hb.start_blockAt hlead
      exact ⟨j, (hsucc j).mpr (.inr ⟨hfall, by omega, hbj.symm⟩), by omega⟩
  · rintro ⟨c, hcs, rfl⟩
    rcases (hsucc c).mp hcs with ⟨t, htm, hct⟩ | ⟨hfall, he_lt, hct⟩
    · have hrange := ht _ _ hlast t htm
      obtain ⟨j, hbj, -, hjs⟩ := hb.start_blockAt (Program.target_mem_leaders ht pins hlast htm)
      have hcj : c = j := by omega
      subst hcj
      refine ⟨_, hlast, by omega, .inl ?_⟩
      rw [hjs, Int.toNat_of_nonneg hrange.1]
      exact htm
    · obtain ⟨j, hbj, -, hjs⟩ := hb.start_blockAt (hend.resolve_left (by omega))
      have hcj : c = j := by omega
      subst hcj
      exact ⟨_, hlast, by omega, .inr ⟨hfall, by omega⟩⟩

/-- The graph of the leaders' blocks cuts the program faithfully. -/
theorem BuiltFrom.cuts (ht : p.TargetsIn) (hb : g.BuiltFrom p (p.leaders pins)) : g.Cuts p :=
  ⟨hb.validate, hb.instrCount_eq, hb.nonempty, hb.succ_inside, hb.succ_exit ht⟩

end Leaders

end FlowGraph

namespace Program

variable {p : Program}

/-- With every branch target in the program, cutting it into blocks succeeds whatever the pins,
and the graph has the program's own control flow between instructions. -/
theorem toGraph_cuts (ht : p.TargetsIn) (pins : List Int) :
    ∃ g, p.toGraph pins = .ok g ∧ g.Cuts p := by
  obtain ⟨g, hg, hb⟩ := toGraph_eq_ok ht pins
  exact ⟨g, hg, hb.cuts ht⟩

/-- A program the analysis and the machine accept is cut faithfully whatever the pins, and its
analysis over an operand count of at least the program's converges, for every schedule. -/
theorem exists_solved {o : Options} {m N : Nat} (hp : p.Valid) (hm : p.operandCount = .ok m)
    (hmN : m ≤ N) (hN : o.operandCount = some N) (hal : ∀ r ∈ o.alwaysLive, r < N)
    (pins : List Int) :
    ∃ g lv, p.toGraph pins = .ok g ∧ g.Cuts p ∧ Liveness.analyze g.toRaw p.access o = .ok lv ∧
      lv.Solved g p.access {r | r ∈ o.alwaysLive} := by
  obtain ⟨g, hg, hc⟩ := p.toGraph_cuts hp.targetsIn pins
  have hd : Decoder.Decodes p.access g.instrCount N :=
    hc.instrCount_eq ▸ p.decodes hp.opcodes hm hmN
  obtain ⟨lv, han, hs⟩ := Problem.analyze_solved hc.validate hN hal hd
  exact ⟨g, lv, hg, hc, han, hs⟩

end Program

end RegisterLiveness
