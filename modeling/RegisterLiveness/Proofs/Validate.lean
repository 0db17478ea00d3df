import RegisterLiveness.FlowGraph.Order
import RegisterLiveness.FlowGraph.Validate

/-!
# What a checked graph guarantees

`FlowGraph.WellFormed` collects what every graph returned by `Cfg.validate` satisfies: edges
name existing blocks, every successor edge is also listed as a predecessor edge and conversely,
every range lies within the instructions, and each instruction is owned by exactly one block.
`validate_wellFormed` proves it from the checks one by one; `owner?_eq_some` then shows that the
block index finds that owner, and `toRaw_eq_of_validate` that a checked graph describes itself
as it was described.
-/

namespace RegisterLiveness

/-! ### Computations that may fail -/

theorem except_bind_eq_ok {ε α β : Type} {x : Except ε α} {f : α → Except ε β} {b : β} :
    x >>= f = .ok b ↔ ∃ a, x = .ok a ∧ f a = .ok b := by
  cases x <;> simp [bind, Except.bind]

/-- A loop that throws at the first element passing a test succeeds only if none passes it. -/
theorem forIn_guard_eq_ok {ε α : Type} {l : List α} (P : α → Prop) [DecidablePred P]
    (e : α → ε) {u : PUnit}
    (h : (forIn l PUnit.unit fun x _ =>
      if P x then do throw (e x); pure (ForInStep.yield PUnit.unit)
      else pure (ForInStep.yield PUnit.unit) : Except ε PUnit) = .ok u) :
    ∀ x ∈ l, ¬ P x := by
  induction l with
  | nil => simp
  | cons y l ih =>
    rw [List.forIn_cons] at h
    by_cases hy : P y
    · simp [hy, throw, throwThe, MonadExceptOf.throw, bind, Except.bind] at h
    · simp only [hy, if_false] at h
      simp only [pure, Except.pure, bind, Except.bind] at h
      intro x hx
      rcases List.mem_cons.mp hx with rfl | hx
      · exact hy
      · exact ih h x hx

/-- Two distinct members of a list related pairwise are related one way or the other. -/
theorem pairwise_rel_or_rel {α : Type} {R : α → α → Prop} {l : List α} (hl : l.Pairwise R)
    {a b : α} (ha : a ∈ l) (hb : b ∈ l) (hne : a ≠ b) : R a b ∨ R b a := by
  induction l with
  | nil => simp at ha
  | cons x l ih =>
    obtain ⟨hx, hl⟩ := List.pairwise_cons.mp hl
    rcases List.mem_cons.mp ha with hax | hal <;> rcases List.mem_cons.mp hb with hbx | hbl
    · exact absurd (hax.trans hbx.symm) hne
    · exact .inl (hax ▸ hx b hbl)
    · exact .inr (hbx ▸ hx a hal)
    · exact ih hl hal hbl

/-- In a list sorted by `R`, a member that no other member follows in `R` is the last one. -/
theorem getLast?_eq_of_pairwise {α : Type} {R : α → α → Prop} {l : List α}
    (hl : l.Pairwise R)
    {a : α} (ha : a ∈ l) (hmax : ∀ b ∈ l, b ≠ a → ¬ R a b) : l.getLast? = some a := by
  rcases List.eq_nil_or_concat l with rfl | ⟨l', x, rfl⟩
  · simp at ha
  · rw [List.concat_eq_append] at hl ha hmax ⊢
    rw [List.getLast?_concat]
    by_cases hxa : x = a
    · rw [hxa]
    · have ha' : a ∈ l' := by
        rcases List.mem_append.mp ha with ha | ha
        · exact ha
        · exact absurd (List.mem_singleton.mp ha).symm hxa
      have hR : R a x := (List.pairwise_append.mp hl).2.2 a ha' x (List.mem_singleton_self x)
      exact absurd hR (hmax x (List.mem_append_right _ (List.mem_singleton_self x)) hxa)

/-! ### The checks one by one -/

namespace RawGraph

theorem checkBounds_eq_ok {ni : Int} {bs : List (Nat × RawBlock)} {spans : List Span}
    (h : checkBounds ni bs = .ok spans) :
    (∀ x ∈ bs, 0 ≤ x.2.start ∧ x.2.start ≤ x.2.stop ∧ x.2.stop ≤ ni) ∧
    ∀ sp, sp ∈ spans ↔
      ∃ x ∈ bs, x.2.start < x.2.stop ∧ sp = ⟨x.1, x.2.start, x.2.stop⟩ := by
  induction bs generalizing spans with
  | nil =>
    simp only [checkBounds, Except.ok.injEq] at h
    subst h
    simp
  | cons x bs ih =>
    obtain ⟨bb, b⟩ := x
    simp only [checkBounds] at h
    split at h
    · simp at h
    · rename_i hb
      obtain ⟨rest, hrest, h⟩ := except_bind_eq_ok.mp h
      obtain ⟨ih₁, ih₂⟩ := ih hrest
      simp only [pure, Except.pure, Except.ok.injEq] at h
      subst h
      refine ⟨?_, fun sp => ?_⟩
      · intro y hy
        rcases List.mem_cons.mp hy with rfl | hy
        · simp only; omega
        · exact ih₁ y hy
      · split
        · rw [ih₂]
          constructor
          · rintro ⟨y, hy, hlt, rfl⟩
            exact ⟨y, List.mem_cons_of_mem _ hy, hlt, rfl⟩
          · rintro ⟨y, hy, hlt, rfl⟩
            rcases List.mem_cons.mp hy with rfl | hy
            · simp only at hlt; omega
            · exact ⟨y, hy, hlt, rfl⟩
        · rw [List.mem_cons, ih₂]
          constructor
          · rintro (rfl | ⟨y, hy, hlt, rfl⟩)
            · exact ⟨(bb, b), List.mem_cons_self, by simp only; omega, rfl⟩
            · exact ⟨y, List.mem_cons_of_mem _ hy, hlt, rfl⟩
          · rintro ⟨y, hy, hlt, rfl⟩
            rcases List.mem_cons.mp hy with rfl | hy
            · exact .inl rfl
            · exact .inr ⟨y, hy, hlt, rfl⟩

/-- A passed coverage walk from `pc`: the spans start at or after `pc`, each ends before the next
begins, and together they cover `[pc, ni)`. -/
theorem checkCoverage_eq_ok {ni pc : Int} {ss : List Span} (hss : ∀ s ∈ ss, s.start ≤ s.stop)
    (h : checkCoverage ni pc ss = .ok ()) :
    (∀ s ∈ ss, pc ≤ s.start) ∧ ss.Pairwise (fun s t => s.stop ≤ t.start) ∧
    ∀ x, pc ≤ x → x < ni → ∃ s ∈ ss, s.start ≤ x ∧ x < s.stop := by
  induction ss generalizing pc with
  | nil =>
    simp only [checkCoverage] at h
    split at h
    · subst_vars
      simp only [List.not_mem_nil, List.Pairwise.nil]
      exact ⟨fun _ h => h.elim, trivial, fun x h₁ h₂ => by omega⟩
    · simp at h
  | cons s ss ih =>
    simp only [checkCoverage] at h
    split at h
    · simp at h
    · split at h
      · simp at h
      · have hs := hss s List.mem_cons_self
        obtain ⟨ih₁, ih₂, ih₃⟩ := ih (fun t ht => hss t (List.mem_cons_of_mem _ ht)) h
        refine ⟨?_, List.pairwise_cons.mpr ⟨ih₁, ih₂⟩, ?_⟩
        · intro t ht
          rcases List.mem_cons.mp ht with rfl | ht
          · omega
          · have := ih₁ t ht; omega
        · intro x hx hxn
          by_cases hxs : x < s.stop
          · exact ⟨s, List.mem_cons_self, by omega, hxs⟩
          · obtain ⟨t, ht, h⟩ := ih₃ x (by omega) hxn
            exact ⟨t, List.mem_cons_of_mem _ ht, h⟩

theorem checkEnds_eq_ok {nb : Nat} {bs : List (Nat × RawBlock)} (h : checkEnds nb bs = .ok ()) :
    ∀ x ∈ bs, (∀ t ∈ x.2.succs, 0 ≤ t ∧ t < nb) ∧
      (∀ t ∈ x.2.preds, 0 ≤ t ∧ t < nb) := by
  induction bs with
  | nil => simp
  | cons x bs ih =>
    obtain ⟨bb, b⟩ := x
    simp only [checkEnds] at h
    obtain ⟨_, hs, h⟩ := except_bind_eq_ok.mp h
    obtain ⟨_, hp, h⟩ := except_bind_eq_ok.mp h
    have hs' := forIn_guard_eq_ok _ _ hs
    have hp' := forIn_guard_eq_ok _ _ hp
    intro x hx
    rcases List.mem_cons.mp hx with rfl | hx
    · constructor
      · intro t ht; have := hs' t ht; omega
      · intro t ht; have := hp' t ht; omega
    · exact ih h x hx

theorem checkMirror_eq_ok {bs : List (Nat × RawBlock)} (h : checkMirror bs = .ok ()) :
    (∀ e ∈ succEdges bs, e ∈ predEdges bs) ∧
      (∀ e ∈ predEdges bs, e ∈ succEdges bs) := by
  simp only [checkMirror] at h
  split at h
  · simp [throw, throwThe, MonadExceptOf.throw, bind, Except.bind] at h
  · rename_i hs
    split at h
    · simp [throw, throwThe, MonadExceptOf.throw] at h
    · rename_i hp
      rw [List.find?_eq_none] at hs hp
      exact ⟨fun e he => by simpa using hs e he, fun e he => by simpa using hp e he⟩

/-! A graph given by its blocks is checked as the graph with as many blocks as it lists. -/

@[simp] theorem toCfg_blockCount (g : RawGraph) : g.toCfg.blockCount = g.blocks.size := rfl

@[simp] theorem toCfg_instrCount (g : RawGraph) : g.toCfg.instrCount = g.instrCount := rfl

@[simp] theorem toCfg_blocks (g : RawGraph) : g.toCfg.blocks = g.blocks := rfl

end RawGraph

namespace FlowGraph

/-- Block `bb` exists and owns instruction `pc`. -/
def Owns (g : FlowGraph) (bb pc : Nat) : Prop :=
  bb < g.blockCount ∧ (g.block bb).start ≤ pc ∧ pc < (g.block bb).stop

/-- What `Cfg.validate` guarantees of the graphs it returns. -/
structure WellFormed (g : FlowGraph) : Prop where
  succ_lt : ∀ bb < g.blockCount, ∀ s ∈ g.succs bb, s < g.blockCount
  pred_lt : ∀ bb < g.blockCount, ∀ q ∈ g.preds bb, q < g.blockCount
  pred_of_succ : ∀ bb < g.blockCount, ∀ s ∈ g.succs bb, bb ∈ g.preds s
  succ_of_pred : ∀ bb < g.blockCount, ∀ q ∈ g.preds bb, bb ∈ g.succs q
  start_le_stop : ∀ bb < g.blockCount, (g.block bb).start ≤ (g.block bb).stop
  stop_le : ∀ bb < g.blockCount, (g.block bb).stop ≤ g.instrCount
  covered : ∀ pc < g.instrCount, ∃ bb, g.Owns bb pc
  owner_unique : ∀ {pc b₁ b₂}, g.Owns b₁ pc → g.Owns b₂ pc → b₁ = b₂

end FlowGraph

namespace Cfg

open RawGraph

/-- The blocks with their indices, in the order the checks take them. -/
def indexed (g : Cfg) : List (Nat × RawBlock) :=
  g.blocks.toList.zipIdx.map fun (b, i) => (i, b)

theorem mem_indexed {g : Cfg} {i : Nat} {b : RawBlock} :
    (i, b) ∈ g.indexed ↔ g.blocks[i]? = some b := by
  simp only [indexed, List.mem_map, List.mem_zipIdx_iff_getElem?, Prod.mk.injEq,
    Array.getElem?_toList]
  constructor
  · rintro ⟨⟨a, j⟩, h, rfl, rfl⟩
    exact h
  · intro h
    exact ⟨(b, i), h, rfl, rfl⟩

/-- A passed validation, check by check. -/
theorem validate_eq_ok {c : Cfg} {g : FlowGraph} (h : c.validate = .ok g) :
    0 ≤ c.instrCount ∧ g = ⟨c.blocks.map blockOf, c.instrCount.toNat⟩ ∧
    ∃ spans, checkBounds c.instrCount c.indexed = .ok spans ∧
      checkCoverage c.instrCount 0 (spans.mergeSort fun s t => s.start ≤ t.start) = .ok () ∧
      checkEnds c.blocks.size c.indexed = .ok () ∧ checkMirror c.indexed = .ok () := by
  simp only [validate] at h
  split at h
  · simp [throw, throwThe, MonadExceptOf.throw, bind, Except.bind] at h
  split at h
  · simp [throw, throwThe, MonadExceptOf.throw, bind, Except.bind] at h
  · obtain ⟨spans, hb, h⟩ := except_bind_eq_ok.mp h
    obtain ⟨_, hc, h⟩ := except_bind_eq_ok.mp h
    obtain ⟨_, he, h⟩ := except_bind_eq_ok.mp h
    obtain ⟨_, hm, h⟩ := except_bind_eq_ok.mp h
    simp only [pure, Except.pure, Except.ok.injEq] at h
    exact ⟨by omega, h.symm, spans, hb, hc, c.size_blocks ▸ he, hm⟩

/-- A graph that passes the checks has a block count that is not negative. -/
theorem blockCount_nonneg_of_validate {c : Cfg} {g : FlowGraph} (h : c.validate = .ok g) :
    0 ≤ c.blockCount := by
  simp only [validate] at h
  split at h
  · simp [throw, throwThe, MonadExceptOf.throw, bind, Except.bind] at h
  · omega

theorem indexed_unique {c : Cfg} {i : Nat} {b b' : RawBlock} (hb : (i, b) ∈ c.indexed)
    (hb' : (i, b') ∈ c.indexed) : b' = b := by
  rw [mem_indexed] at hb hb'
  rw [hb] at hb'
  exact (Option.some.inj hb').symm

section Checked

variable {c : Cfg} {g : FlowGraph} (h : c.validate = .ok g)
include h

theorem blockCount_of_validate : g.blockCount = c.blocks.size := by
  obtain ⟨-, rfl, -⟩ := validate_eq_ok h
  simp [FlowGraph.blockCount]

theorem instrCount_of_validate : (g.instrCount : Int) = c.instrCount := by
  obtain ⟨hni, rfl, -⟩ := validate_eq_ok h
  simp only
  omega

/-- Each block of the checked graph is the checked form of the block described. -/
theorem block_of_validate {i : Nat} (hi : i < g.blockCount) :
    ∃ b, (i, b) ∈ c.indexed ∧ g.block i = blockOf b := by
  obtain ⟨-, rfl, -⟩ := validate_eq_ok h
  simp only [FlowGraph.blockCount, Array.size_map] at hi
  refine ⟨c.blocks[i], mem_indexed.mpr (Array.getElem?_eq_getElem hi), ?_⟩
  simp [FlowGraph.block, hi]


theorem checkEnds_of_validate {i : Nat} {b : RawBlock} (hb : (i, b) ∈ c.indexed) :
    (∀ t ∈ b.succs, 0 ≤ t ∧ t < g.blockCount) ∧
      (∀ t ∈ b.preds, 0 ≤ t ∧ t < g.blockCount) := by
  obtain ⟨-, -, -, -, -, he, -⟩ := validate_eq_ok h
  rw [blockCount_of_validate h]
  exact checkEnds_eq_ok he _ hb

theorem bounds_of_validate {i : Nat} {b : RawBlock} (hb : (i, b) ∈ c.indexed) :
    0 ≤ b.start ∧ b.start ≤ b.stop ∧ b.stop ≤ g.instrCount := by
  obtain ⟨-, -, spans, hbs, -⟩ := validate_eq_ok h
  rw [instrCount_of_validate h]
  exact (checkBounds_eq_ok hbs).1 _ hb

theorem lt_of_indexed {i : Nat} {b : RawBlock} (hb : (i, b) ∈ c.indexed) :
    i < g.blockCount := by
  rw [blockCount_of_validate h]
  rw [mem_indexed] at hb
  exact (Array.getElem?_eq_some_iff.mp hb).1

theorem block_eq_of_indexed {i : Nat} {b : RawBlock} (hb : (i, b) ∈ c.indexed) :
    g.block i = blockOf b := by
  obtain ⟨b', hb', hblk⟩ := block_of_validate h (lt_of_indexed h hb)
  rw [hblk, indexed_unique hb hb']

theorem mem_succs_of_validate {i s : Nat} {b : RawBlock} (hb : (i, b) ∈ c.indexed) :
    s ∈ g.succs i ↔ (s : Int) ∈ b.succs := by
  obtain ⟨hs, -⟩ := checkEnds_of_validate h hb
  simp only [FlowGraph.succs, block_eq_of_indexed h hb, blockOf, List.mem_map]
  constructor
  · rintro ⟨t, ht, rfl⟩
    rw [Int.toNat_of_nonneg (hs t ht).1]
    exact ht
  · intro hs'
    exact ⟨s, hs', by simp⟩

theorem mem_preds_of_validate {i s : Nat} {b : RawBlock} (hb : (i, b) ∈ c.indexed) :
    s ∈ g.preds i ↔ (s : Int) ∈ b.preds := by
  obtain ⟨-, hs⟩ := checkEnds_of_validate h hb
  simp only [FlowGraph.preds, block_eq_of_indexed h hb, blockOf, List.mem_map]
  constructor
  · rintro ⟨t, ht, rfl⟩
    rw [Int.toNat_of_nonneg (hs t ht).1]
    exact ht
  · intro hs'
    exact ⟨s, hs', by simp⟩

theorem exists_indexed {i : Nat} (hi : i < g.blockCount) : ∃ b, (i, b) ∈ c.indexed := by
  obtain ⟨b, hb, -⟩ := block_of_validate h hi
  exact ⟨b, hb⟩

theorem pred_of_succ_of_validate {i s : Nat} (hi : i < g.blockCount) (hs : s ∈ g.succs i) :
    i ∈ g.preds s := by
  obtain ⟨b, hb⟩ := exists_indexed h hi
  have hs' := (mem_succs_of_validate h hb).mp hs
  obtain ⟨-, -, -, -, -, -, hm⟩ := validate_eq_ok h
  have he : ((i : Int), (s : Int)) ∈ predEdges c.indexed := by
    apply (checkMirror_eq_ok hm).1
    simp only [succEdges, List.mem_flatMap, List.mem_map, Prod.mk.injEq]
    exact ⟨(i, b), hb, s, hs', rfl, rfl⟩
  simp only [predEdges, List.mem_flatMap, List.mem_map, Prod.mk.injEq] at he
  obtain ⟨⟨j, b'⟩, hb', fr, hfr, rfl, hj⟩ := he
  have hj : j = s := by exact_mod_cast hj
  subst hj
  exact (mem_preds_of_validate h hb').mpr hfr

theorem succ_of_pred_of_validate {i q : Nat} (hi : i < g.blockCount) (hq : q ∈ g.preds i) :
    i ∈ g.succs q := by
  obtain ⟨b, hb⟩ := exists_indexed h hi
  have hq' := (mem_preds_of_validate h hb).mp hq
  obtain ⟨-, -, -, -, -, -, hm⟩ := validate_eq_ok h
  have he : ((q : Int), (i : Int)) ∈ succEdges c.indexed := by
    apply (checkMirror_eq_ok hm).2
    simp only [predEdges, List.mem_flatMap, List.mem_map, Prod.mk.injEq]
    exact ⟨(i, b), hb, q, hq', rfl, rfl⟩
  simp only [succEdges, List.mem_flatMap, List.mem_map, Prod.mk.injEq] at he
  obtain ⟨⟨j, b'⟩, hb', t, ht, hj, rfl⟩ := he
  have hj : j = q := by exact_mod_cast hj
  subst hj
  exact (mem_succs_of_validate h hb').mpr ht

/-- The non-empty blocks, walked by increasing start, each end where the next begins and together
cover the instructions. -/
theorem spans_of_validate : ∃ ss : List Span,
    (∀ sp, sp ∈ ss ↔
      ∃ x ∈ c.indexed, x.2.start < x.2.stop ∧ sp = ⟨x.1, x.2.start, x.2.stop⟩) ∧
    ss.Pairwise (fun s t => s.stop ≤ t.start) ∧
    ∀ x : Int, 0 ≤ x → x < g.instrCount → ∃ s ∈ ss, s.start ≤ x ∧ x < s.stop := by
  obtain ⟨-, -, spans, hbs, hc, -⟩ := validate_eq_ok h
  obtain ⟨-, hmem⟩ := checkBounds_eq_ok hbs
  have hss : ∀ s ∈ spans.mergeSort (fun s t => s.start ≤ t.start), s.start ≤ s.stop := by
    intro s hs
    obtain ⟨x, -, hlt, rfl⟩ := (hmem s).mp (List.mem_mergeSort.mp hs)
    exact Int.le_of_lt hlt
  obtain ⟨-, hpw, hcov⟩ := checkCoverage_eq_ok hss hc
  refine ⟨_, fun sp => List.mem_mergeSort.trans (hmem sp), hpw, ?_⟩
  rw [instrCount_of_validate h]
  exact hcov

theorem covered_of_validate {pc : Nat} (hpc : pc < g.instrCount) : ∃ bb, g.Owns bb pc := by
  obtain ⟨ss, hmem, -, hcov⟩ := spans_of_validate h
  obtain ⟨s, hs, hlo, hhi⟩ := hcov pc (by omega) (by exact_mod_cast hpc)
  obtain ⟨⟨i, b⟩, hb, -, rfl⟩ := (hmem s).mp hs
  obtain ⟨h0, -, -⟩ := bounds_of_validate h hb
  refine ⟨i, lt_of_indexed h hb, ?_, ?_⟩ <;>
    simp only [block_eq_of_indexed h hb, blockOf] at hlo hhi ⊢ <;> omega

theorem owner_unique_of_validate {pc b₁ b₂ : Nat} (h₁ : g.Owns b₁ pc)
    (h₂ : g.Owns b₂ pc) :
    b₁ = b₂ := by
  obtain ⟨ss, hmem, hpw, -⟩ := spans_of_validate h
  obtain ⟨r₁, hr₁⟩ := exists_indexed h h₁.1
  obtain ⟨r₂, hr₂⟩ := exists_indexed h h₂.1
  have hb₁ := bounds_of_validate h hr₁
  have hb₂ := bounds_of_validate h hr₂
  obtain ⟨-, hlo₁, hhi₁⟩ := h₁
  obtain ⟨-, hlo₂, hhi₂⟩ := h₂
  simp only [block_eq_of_indexed h hr₁, block_eq_of_indexed h hr₂, blockOf]
    at hlo₁ hhi₁ hlo₂ hhi₂
  have hs₁ : (⟨b₁, r₁.start, r₁.stop⟩ : Span) ∈ ss :=
    (hmem _).mpr ⟨_, hr₁, by simp only; omega, rfl⟩
  have hs₂ : (⟨b₂, r₂.start, r₂.stop⟩ : Span) ∈ ss :=
    (hmem _).mpr ⟨_, hr₂, by simp only; omega, rfl⟩
  by_cases hne : b₁ = b₂
  · exact hne
  exfalso
  have hne' : (⟨b₁, r₁.start, r₁.stop⟩ : Span) ≠ ⟨b₂, r₂.start, r₂.stop⟩ :=
    fun he => hne (congrArg Span.block he)
  rcases pairwise_rel_or_rel hpw hs₁ hs₂ hne' with hle | hle <;> simp only at hle <;> omega

/-- A checked block described again is the block first described. -/
theorem toRaw_blockOf_of_validate {i : Nat} {b : RawBlock} (hb : (i, b) ∈ c.indexed) :
    (blockOf b).toRaw = b := by
  obtain ⟨h0, hle, -⟩ := bounds_of_validate h hb
  obtain ⟨hs, hp⟩ := checkEnds_of_validate h hb
  obtain ⟨start, stop, succs, preds⟩ := b
  simp only at h0 hle hs hp
  simp only [blockOf, Block.toRaw, List.map_map, RawBlock.mk.injEq]
  refine ⟨by omega, by omega, ?_, ?_⟩
  · conv => rhs; rw [← List.map_id succs]
    exact List.map_congr_left fun t ht => by simp [Int.toNat_of_nonneg (hs t ht).1]
  · conv => rhs; rw [← List.map_id preds]
    exact List.map_congr_left fun t ht => by simp [Int.toNat_of_nonneg (hp t ht).1]

theorem validate_wellFormed : g.WellFormed where
  succ_lt bb hbb s hs := by
    obtain ⟨b, hb⟩ := exists_indexed h hbb
    have := (checkEnds_of_validate h hb).1 s ((mem_succs_of_validate h hb).mp hs)
    omega
  pred_lt bb hbb q hq := by
    obtain ⟨b, hb⟩ := exists_indexed h hbb
    have := (checkEnds_of_validate h hb).2 q ((mem_preds_of_validate h hb).mp hq)
    omega
  pred_of_succ _ hbb _ hs := pred_of_succ_of_validate h hbb hs
  succ_of_pred _ hbb _ hq := succ_of_pred_of_validate h hbb hq
  start_le_stop bb hbb := by
    obtain ⟨b, hb⟩ := exists_indexed h hbb
    have := bounds_of_validate h hb
    simp only [block_eq_of_indexed h hb, blockOf]
    omega
  stop_le bb hbb := by
    obtain ⟨b, hb⟩ := exists_indexed h hbb
    have := bounds_of_validate h hb
    simp only [block_eq_of_indexed h hb, blockOf]
    omega
  covered _ hpc := covered_of_validate h hpc
  owner_unique h₁ h₂ := owner_unique_of_validate h h₁ h₂

end Checked

end Cfg

/-- A checked graph, described again, is the graph first described. -/
theorem RawGraph.toRaw_eq_of_validate {rg : RawGraph} {g : FlowGraph} (h : rg.validate = .ok g) :
    g.toRaw = rg := by
  obtain ⟨hni, hg, -⟩ := Cfg.validate_eq_ok h
  have hblocks : (rg.blocks.map RawGraph.blockOf).map Block.toRaw = rg.blocks := by
    rw [Array.map_map]
    conv => rhs; rw [← Array.map_id rg.blocks]
    apply Array.map_congr_left
    intro b hb
    obtain ⟨i, hi⟩ := Array.mem_iff_getElem?.mp hb
    exact Cfg.toRaw_blockOf_of_validate h (Cfg.mem_indexed.mpr hi)
  rw [RawGraph.toCfg_instrCount] at hni
  rw [hg]
  simp only [FlowGraph.toRaw, RawGraph.toCfg_blocks, RawGraph.toCfg_instrCount, hblocks,
    Int.toNat_of_nonneg hni]

namespace FlowGraph

theorem mem_spans {g : FlowGraph} {bb : Nat} {b : Block} :
    (bb, b) ∈ g.spans ↔ g.blocks[bb]? = some b ∧ b.start < b.stop := by
  simp only [spans, List.mem_mergeSort, List.mem_filter, List.mem_map,
    List.mem_zipIdx_iff_getElem?, Array.getElem?_toList, Prod.mk.injEq, decide_eq_true_eq]
  constructor
  · rintro ⟨⟨⟨a, j⟩, h, rfl, rfl⟩, hlt⟩
    exact ⟨h, hlt⟩
  · rintro ⟨h, hlt⟩
    exact ⟨⟨(b, bb), h, rfl, rfl⟩, hlt⟩

theorem block_eq_of_getElem? {g : FlowGraph} {bb : Nat} {b : Block}
    (h : g.blocks[bb]? = some b) :
    g.block bb = b ∧ bb < g.blockCount := by
  simp only [block, Array.getD_eq_getD_getElem?, h, Option.getD_some, blockCount]
  exact ⟨trivial, (Array.getElem?_eq_some_iff.mp h).1⟩

/-- The block index finds the owner of every owned instruction. -/
theorem owner?_eq_some {g : FlowGraph} (wf : g.WellFormed) {bb pc : Nat} (h : g.Owns bb pc) :
    g.owner? pc = some bb := by
  obtain ⟨hbb, hlo, hhi⟩ := h
  have hget : g.blocks[bb]? = some (g.block bb) := by
    simp [block, Array.getElem?_eq_getElem (show bb < g.blocks.size from hbb)]
  have hsorted : g.spans.Pairwise (fun a b => decide (a.2.start ≤ b.2.start) = true) :=
    List.pairwise_mergeSort (fun _ _ _ h₁ h₂ => by simp only [decide_eq_true_eq] at *; omega)
      (fun a b => by simp only [Bool.or_eq_true, decide_eq_true_eq]; omega) _
  have hmem : (bb, g.block bb) ∈ g.spans.filter (fun x => decide ((x.2.start : Int) ≤ pc)) :=
    List.mem_filter.mpr
      ⟨mem_spans.mpr ⟨hget, by omega⟩, by simp only [decide_eq_true_eq]; omega⟩
  have hlast := getLast?_eq_of_pairwise (hsorted.filter _) hmem (by
    rintro ⟨c, bc⟩ hc hne hle
    obtain ⟨hc, hcpc⟩ := List.mem_filter.mp hc
    obtain ⟨hc, hclt⟩ := mem_spans.mp hc
    obtain ⟨rfl, hcb⟩ := block_eq_of_getElem? hc
    simp only [decide_eq_true_eq] at hle hcpc
    have hown : g.Owns c (g.block c).start := ⟨hcb, Nat.le_refl _, hclt⟩
    have := wf.owner_unique hown ⟨hbb, hle, by omega⟩
    subst this
    exact hne rfl)
  simp only [owner?, hlast]
  simp only [show (pc : Int) < (g.block bb).stop by omega, if_true]

/-- The block index places an offset only in a block that owns it. -/
theorem owns_of_owner?_eq_some {g : FlowGraph} {bb : Nat} {pc : Int} (h : g.owner? pc = some bb) :
    ∃ n : Nat, pc = n ∧ g.Owns bb n := by
  unfold owner? at h
  split at h
  · rename_i c b hlast
    split at h
    · cases h
      obtain ⟨hspan, hle⟩ := List.mem_filter.mp (List.mem_of_getLast? hlast)
      obtain ⟨hget, -⟩ := mem_spans.mp hspan
      obtain ⟨rfl, hbb⟩ := block_eq_of_getElem? hget
      simp only [decide_eq_true_eq] at hle
      exact ⟨pc.toNat, by omega, hbb, by omega, by omega⟩
    · cases h
  · cases h

end FlowGraph

end RegisterLiveness
