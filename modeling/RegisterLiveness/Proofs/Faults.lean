import Mathlib.Data.List.Nodup
import RegisterLiveness.Proofs.Builder

/-!
# What the check of a described graph reports

`Cfg.WellFormed` says, without reference to the checks, when a graph is a control-flow graph:
the block and instruction counts are not negative, every range lies within the instructions, the
non-empty ranges are pairwise disjoint and cover exactly the instructions, every listed edge names
existing blocks, and the successor lists and the predecessor lists describe the same set of
edges. `Cfg.validate` accepts exactly these graphs (`validate_eq_ok_iff`), so the order of the
blocks, where the empty ones sit, and how edge lists repeat or order their edges do not matter.

`Cfg.Fault g e` says that `e` reports the first way in which `g` is malformed, the checks taken in
the order of `validate`; every error `validate` returns is such a report
(`fault_of_validate_eq_error`). The coverage walk meets the ranges by increasing start, and its
first complaint names the lowest offset that lies in no block or in two. A graph given by its
blocks is checked through `RawGraph.toCfg`, and the same notions apply to it there.
-/

namespace RegisterLiveness

/-! ### Computations that fail -/

theorem except_bind_eq_error {ε α β : Type} {x : Except ε α} {f : α → Except ε β} {e : ε} :
    x >>= f = .error e ↔ x = .error e ∨ ∃ a, x = .ok a ∧ f a = .error e := by
  cases x <;> simp [bind, Except.bind]

/-- A loop that throws at the first element passing a test fails only at such an element, all
before it having failed the test. -/
theorem forIn_guard_eq_error {ε α : Type} {l : List α} (P : α → Prop) [DecidablePred P]
    (e : α → ε) {err : ε}
    (h : (forIn l PUnit.unit fun x _ =>
      if P x then do throw (e x); pure (ForInStep.yield PUnit.unit)
      else pure (ForInStep.yield PUnit.unit) : Except ε PUnit) = .error err) :
    ∃ pre x post, l = pre ++ x :: post ∧ (∀ y ∈ pre, ¬ P y) ∧ P x ∧ err = e x := by
  induction l with
  | nil => cases h
  | cons y l ih =>
    rw [List.forIn_cons] at h
    by_cases hy : P y
    · simp only [hy, if_true, throw, throwThe, MonadExceptOf.throw, bind, Except.bind,
        Except.error.injEq] at h
      exact ⟨[], y, l, rfl, by simp, hy, h.symm⟩
    · simp only [hy, if_false, pure, Except.pure, bind, Except.bind] at h
      obtain ⟨pre, x, post, rfl, hpre, hx, rfl⟩ := ih h
      refine ⟨y :: pre, x, post, rfl, fun z hz => ?_, hx, rfl⟩
      rcases List.mem_cons.mp hz with rfl | hz
      · exact hy
      · exact hpre z hz

namespace RawBlock

/-- The block's range lies within `ni` instructions: `0 ≤ start ≤ stop ≤ ni`. -/
def Within (b : RawBlock) (ni : Int) : Prop := 0 ≤ b.start ∧ b.start ≤ b.stop ∧ b.stop ≤ ni

/-- Every successor and predecessor the block lists names one of `nb` blocks. -/
def EndsIn (b : RawBlock) (nb : Nat) : Prop := ∀ t ∈ b.succs ++ b.preds, 0 ≤ t ∧ t < nb

end RawBlock

namespace Cfg

open RawGraph

/-! ### Well-formed graphs and faults, stated on the description -/

variable (g : Cfg)

/-- Block `bb` is described and its range holds offset `pc`; an empty block holds none. -/
def Covers (bb : Nat) (pc : Int) : Prop :=
  ∃ b, g.blocks[bb]? = some b ∧ b.start ≤ pc ∧ pc < b.stop

/-- Block `u` lists `v` among its successors. -/
def SuccEdge (u v : Int) : Prop := ∃ (bb : Nat) (b : RawBlock), g.blocks[bb]? = some b ∧ u = bb ∧ v ∈ b.succs

/-- Block `v` lists `u` among its predecessors. -/
def PredEdge (u v : Int) : Prop := ∃ (bb : Nat) (b : RawBlock), g.blocks[bb]? = some b ∧ v = bb ∧ u ∈ b.preds

/-- The counts are not negative and the ranges split the instructions into blocks: each lies
within them, no two non-empty ones share an offset, and together they hold exactly
`[0, instrCount)`. -/
structure Partition : Prop where
  blockCount_nonneg : 0 ≤ g.blockCount
  instrCount_nonneg : 0 ≤ g.instrCount
  within : ∀ b ∈ g.blocks, b.Within g.instrCount
  disjoint : ∀ {b₁ b₂ : Nat} {pc : Int}, g.Covers b₁ pc → g.Covers b₂ pc → b₁ = b₂
  covers_iff : ∀ pc, (∃ bb, g.Covers bb pc) ↔ 0 ≤ pc ∧ pc < g.instrCount

/-- A described graph that is a control-flow graph: its ranges partition the instructions, its
edges name existing blocks, and its successor and predecessor lists describe the same edges. -/
structure WellFormed : Prop extends g.Partition where
  endsIn : ∀ b ∈ g.blocks, b.EndsIn g.blocks.size
  mirror : ∀ u v, g.SuccEdge u v ↔ g.PredEdge u v

/-- Offset `pc` shows that the ranges are no partition: it is an instruction in no block, or it
lies in two blocks. -/
def Misplaced (pc : Int) : Prop :=
  (0 ≤ pc ∧ pc < g.instrCount ∧ ∀ bb, ¬ g.Covers bb pc) ∨
    ∃ b₁ b₂, b₁ ≠ b₂ ∧ g.Covers b₁ pc ∧ g.Covers b₂ pc

/-- `e` reports the first way in which `g` is malformed, the checks taken in order: the block
count, the instruction count, the ranges by block index, the lowest misplaced offset, the edge ends
by block index with successors before predecessors, a successor edge not listed as a predecessor
edge, and the converse. -/
inductive Fault : Error → Prop
  | blockCount : g.blockCount < 0 → Fault (.graph s!"negative block count {g.blockCount}")
  | count : 0 ≤ g.blockCount → g.instrCount < 0 →
      Fault (.graph s!"negative instruction count {g.instrCount}")
  | range {bb : Nat} {b : RawBlock} : 0 ≤ g.blockCount → 0 ≤ g.instrCount → g.blocks[bb]? = some b →
      ¬ b.Within g.instrCount →
      (∀ i < bb, ∀ b', g.blocks[i]? = some b' → b'.Within g.instrCount) →
      Fault (.block bb
        s!"invalid instruction range [{b.start}, {b.stop}) of {g.instrCount} instructions")
  | overlap {pc : Int} {bb : Nat} {b : RawBlock} : 0 ≤ g.blockCount → 0 ≤ g.instrCount →
      (∀ b ∈ g.blocks, b.Within g.instrCount) → (∀ q < pc, ¬ g.Misplaced q) →
      g.blocks[bb]? = some b → b.start = pc → g.Covers bb pc → (∃ b', b' ≠ bb ∧ g.Covers b' pc) →
      Fault (.block bb s!"instruction {pc} belongs to more than one block")
  | gap {pc : Int} : 0 ≤ g.blockCount → 0 ≤ g.instrCount → (∀ b ∈ g.blocks, b.Within g.instrCount) →
      (∀ q < pc, ¬ g.Misplaced q) → 0 ≤ pc → pc < g.instrCount → (∀ bb, ¬ g.Covers bb pc) →
      Fault (.graph s!"instruction {pc} does not belong to any block")
  | succEnd {bb : Nat} {b : RawBlock} {pre post : List Int} {t : Int} : g.Partition →
      g.blocks[bb]? = some b → (∀ i < bb, ∀ b', g.blocks[i]? = some b' → b'.EndsIn g.blocks.size) →
      b.succs = pre ++ t :: post → (∀ u ∈ pre, 0 ≤ u ∧ u < g.blocks.size) →
      ¬ (0 ≤ t ∧ t < g.blocks.size) → Fault (.edge bb t "successor does not exist")
  | predEnd {bb : Nat} {b : RawBlock} {pre post : List Int} {t : Int} : g.Partition →
      g.blocks[bb]? = some b → (∀ i < bb, ∀ b', g.blocks[i]? = some b' → b'.EndsIn g.blocks.size) →
      (∀ u ∈ b.succs, 0 ≤ u ∧ u < g.blocks.size) → b.preds = pre ++ t :: post →
      (∀ u ∈ pre, 0 ≤ u ∧ u < g.blocks.size) → ¬ (0 ≤ t ∧ t < g.blocks.size) →
      Fault (.edge t bb "predecessor does not exist")
  | succUnmatched {u v : Int} : g.Partition → (∀ b ∈ g.blocks, b.EndsIn g.blocks.size) →
      g.SuccEdge u v → ¬ g.PredEdge u v →
      Fault (.edge u v "successor edge without matching predecessor")
  | predUnmatched {u v : Int} : g.Partition → (∀ b ∈ g.blocks, b.EndsIn g.blocks.size) →
      (∀ u v, g.SuccEdge u v → g.PredEdge u v) → g.PredEdge u v → ¬ g.SuccEdge u v →
      Fault (.edge u v "predecessor edge without matching successor")

variable {g}

/-- Every fault is reported as a malformed graph. -/
theorem Fault.isInvalidGraph {e : Error} (h : g.Fault e) : e.isInvalidGraph = true := by
  cases h <;> rfl

/-- A well-formed graph has no fault. -/
theorem WellFormed.not_fault (hw : g.WellFormed) {e : Error} : ¬ g.Fault e := by
  intro h
  cases h with
  | blockCount hn => exact absurd hw.blockCount_nonneg (by omega)
  | count _ hn => exact absurd hw.instrCount_nonneg (by omega)
  | range _ _ hb hnot _ => exact hnot (hw.within _ (Array.mem_of_getElem? hb))
  | overlap _ _ _ _ _ _ hcov hother =>
    obtain ⟨b', hne, hcov'⟩ := hother
    exact hne (hw.disjoint hcov' hcov)
  | gap _ _ _ _ h0 hlt hnone =>
    obtain ⟨bb, hbb⟩ := (hw.covers_iff _).mpr ⟨h0, hlt⟩
    exact hnone bb hbb
  | succEnd _ hb _ hs _ hbad =>
    exact hbad (hw.endsIn _ (Array.mem_of_getElem? hb) _ (by simp [hs]))
  | predEnd _ hb _ _ hp _ hbad =>
    exact hbad (hw.endsIn _ (Array.mem_of_getElem? hb) _ (by simp [hp]))
  | succUnmatched _ _ hs hnot => exact hnot ((hw.mirror _ _).mp hs)
  | predUnmatched _ _ _ hp hnot => exact hnot ((hw.mirror _ _).mpr hp)

/-! ### The blocks in index order -/

theorem getElem?_indexed {i : Nat} : g.indexed[i]? = g.blocks[i]?.map fun b => (i, b) := by
  simp only [indexed, List.getElem?_map, List.getElem?_zipIdx, Array.getElem?_toList,
    Option.map_map]
  congr 1
  funext b
  simp

/-- A block that the checks reach after `pre` comes after exactly the blocks of lower index. -/
theorem indexed_eq_append {pre post : List (Nat × RawBlock)} {bb : Nat} {b : RawBlock}
    (h : g.indexed = pre ++ (bb, b) :: post) :
    g.blocks[bb]? = some b ∧ ∀ i < bb, ∀ b', g.blocks[i]? = some b' → (i, b') ∈ pre := by
  -- the entry at position `pre.length` is `(bb, b)`, so the block has index `pre.length`
  have hat : g.indexed[pre.length]? = some (bb, b) := by simp [h]
  rw [getElem?_indexed] at hat
  obtain ⟨b₀, hb₀, hpair⟩ := Option.map_eq_some_iff.mp hat
  obtain ⟨rfl, rfl⟩ := Prod.mk.inj hpair
  refine ⟨hb₀, fun i hi b' hb' => ?_⟩
  have hget : g.indexed[i]? = some (i, b') := by simp [getElem?_indexed, hb']
  rw [h, List.getElem?_append_left hi] at hget
  exact List.mem_of_getElem? hget

/-! ### The range check -/

/-- The range check fails at the first block, in the order given, whose range is not within the
instructions. -/
theorem checkBounds_eq_error {ni : Int} {bs : List (Nat × RawBlock)} {e : Error}
    (h : checkBounds ni bs = .error e) :
    ∃ pre x post, bs = pre ++ x :: post ∧ (∀ y ∈ pre, y.2.Within ni) ∧ ¬ x.2.Within ni ∧
      e = .block x.1 s!"invalid instruction range [{x.2.start}, {x.2.stop}) of {ni} instructions" := by
  induction bs with
  | nil => cases h
  | cons y bs ih =>
    obtain ⟨bb, b⟩ := y
    simp only [checkBounds] at h
    split at h
    · rename_i hbad
      simp only [Except.error.injEq] at h
      exact ⟨[], (bb, b), bs, rfl, by simp, by simp only [RawBlock.Within]; omega, h.symm⟩
    · rename_i hok
      rcases except_bind_eq_error.mp h with h | ⟨_, -, h⟩
      · obtain ⟨pre, x, post, rfl, hpre, hx, rfl⟩ := ih h
        refine ⟨(bb, b) :: pre, x, post, rfl, fun z hz => ?_, hx, rfl⟩
        rcases List.mem_cons.mp hz with rfl | hz
        · simp only [RawBlock.Within]; omega
        · exact hpre z hz
      · cases h

/-- The spans the range check collects come one from each non-empty block, in the order given. -/
theorem checkBounds_sublist {ni : Int} {bs : List (Nat × RawBlock)} {spans : List Span}
    (h : checkBounds ni bs = .ok spans) : (spans.map Span.block).Sublist (bs.map Prod.fst) := by
  induction bs generalizing spans with
  | nil =>
    simp only [checkBounds, Except.ok.injEq] at h
    subst h
    exact List.Sublist.slnil
  | cons y bs ih =>
    obtain ⟨bb, b⟩ := y
    simp only [checkBounds] at h
    split at h
    · cases h
    · obtain ⟨rest, hrest, h⟩ := except_bind_eq_ok.mp h
      simp only [pure, Except.pure, Except.ok.injEq] at h
      subst h
      split
      · exact (ih hrest).cons _
      · exact (ih hrest).cons_cons _

section Spans

variable {spans : List Span} (h : checkBounds g.instrCount g.indexed = .ok spans)
include h

/-- The spans are the non-empty blocks: a block holds an offset exactly when its span does. -/
theorem covers_iff_mem_spans {bb : Nat} {pc : Int} :
    g.Covers bb pc ↔ ∃ s ∈ spans, s.block = bb ∧ s.start ≤ pc ∧ pc < s.stop := by
  have hmem := (checkBounds_eq_ok h).2
  constructor
  · rintro ⟨b, hb, hlo, hhi⟩
    exact ⟨⟨bb, b.start, b.stop⟩,
      (hmem _).mpr ⟨(bb, b), mem_indexed.mpr hb, show b.start < b.stop by omega, rfl⟩,
      rfl, hlo, hhi⟩
  · rintro ⟨s, hs, rfl, hlo, hhi⟩
    obtain ⟨⟨i, b⟩, hb, -, rfl⟩ := (hmem s).mp hs
    exact ⟨b, mem_indexed.mp hb, hlo, hhi⟩

/-- Two spans of one block are one span. -/
theorem eq_of_block_eq {s t : Span} (hs : s ∈ spans) (ht : t ∈ spans)
    (hst : s.block = t.block) : s = t := by
  have hmem := (checkBounds_eq_ok h).2
  obtain ⟨⟨i, b⟩, hb, -, rfl⟩ := (hmem s).mp hs
  obtain ⟨⟨j, c⟩, hc, -, rfl⟩ := (hmem t).mp ht
  simp only at hst
  subst hst
  rw [indexed_unique hb hc]

/-- No block gives two spans. -/
theorem nodup_spans : spans.Nodup := by
  apply List.Nodup.of_map Span.block
  apply (checkBounds_sublist h).nodup
  have : g.indexed.map Prod.fst = List.range g.blocks.size := by
    apply List.ext_getElem?
    intro i
    simp only [List.getElem?_map, getElem?_indexed, Option.map_map]
    by_cases hi : i < g.blocks.size <;> simp [hi]
  rw [this]
  exact List.nodup_range

end Spans

/-! ### The coverage walk -/

/-- Below an offset `x` that neither the walk's position `pc` nor any span still ahead has
passed, the offsets held are those the walked spans hold, each by one span. -/
theorem walked_below {pc x : Int} {done rest : List Span} (hx : x ≤ pc)
    (hrest : ∀ s ∈ rest, x ≤ s.start)
    (hdone : ∀ y, (∃ s ∈ done, s.start ≤ y ∧ y < s.stop) ↔ 0 ≤ y ∧ y < pc)
    (hdisj : ∀ y, ∀ s ∈ done, ∀ t ∈ done, s.start ≤ y → y < s.stop → t.start ≤ y → y < t.stop →
      s = t) :
    (∀ y < x, ∀ s ∈ done ++ rest, ∀ t ∈ done ++ rest, s.start ≤ y → y < s.stop →
      t.start ≤ y → y < t.stop → s = t) ∧
    (∀ y, 0 ≤ y → y < x → ∃ s ∈ done ++ rest, s.start ≤ y ∧ y < s.stop) := by
  -- a span ahead starts at or after `x`, so it holds nothing below it
  have hwalked : ∀ y < x, ∀ s ∈ done ++ rest, s.start ≤ y → s ∈ done := by
    intro y hy s hs hlo
    rcases List.mem_append.mp hs with hs | hs
    · exact hs
    · have := hrest s hs
      omega
  refine ⟨fun y hy s hs t ht hs₁ hs₂ ht₁ ht₂ => ?_, fun y h0 hy => ?_⟩
  · exact hdisj y s (hwalked y hy s hs hs₁) t (hwalked y hy t ht ht₁) hs₁ hs₂ ht₁ ht₂
  · obtain ⟨s, hs, hlo, hhi⟩ := (hdone y).mpr ⟨h0, by omega⟩
    exact ⟨s, List.mem_append_left _ hs, hlo, hhi⟩

/-- The coverage walk, from position `pc` with the spans `done` behind it tiling `[0, pc)` and
the spans `rest` ahead sorted by start, fails at the lowest offset that lies in no span or in
two: every lower offset lies in exactly one. -/
theorem checkCoverage_eq_error {ni pc : Int} {done rest : List Span} {e : Error}
    (hb : ∀ s ∈ done ++ rest, 0 ≤ s.start ∧ s.start < s.stop ∧ s.stop ≤ ni)
    (hnd : (done ++ rest).Nodup) (hsorted : rest.Pairwise fun s t => s.start ≤ t.start)
    (hpc : 0 ≤ pc ∧ pc ≤ ni)
    (hdone : ∀ y, (∃ s ∈ done, s.start ≤ y ∧ y < s.stop) ↔ 0 ≤ y ∧ y < pc)
    (hdisj : ∀ y, ∀ s ∈ done, ∀ t ∈ done, s.start ≤ y → y < s.stop → t.start ≤ y → y < t.stop →
      s = t)
    (h : checkCoverage ni pc rest = .error e) :
    ∃ x, (∀ y < x, ∀ s ∈ done ++ rest, ∀ t ∈ done ++ rest, s.start ≤ y → y < s.stop →
        t.start ≤ y → y < t.stop → s = t) ∧
      (∀ y, 0 ≤ y → y < x → ∃ s ∈ done ++ rest, s.start ≤ y ∧ y < s.stop) ∧
      ((∃ s ∈ done ++ rest, ∃ t ∈ done ++ rest, s ≠ t ∧ s.start = x ∧ x < s.stop ∧
          t.start ≤ x ∧ x < t.stop ∧
          e = .block s.block s!"instruction {x} belongs to more than one block") ∨
        (0 ≤ x ∧ x < ni ∧ (∀ s ∈ done ++ rest, ¬ (s.start ≤ x ∧ x < s.stop)) ∧
          e = .graph s!"instruction {x} does not belong to any block")) := by
  induction rest generalizing done pc with
  | nil =>
    -- the spans ran out before the instructions: the first offset past them is in none
    simp only [checkCoverage] at h
    split at h
    · cases h
    · rename_i hne
      simp only [Except.error.injEq] at h
      obtain ⟨hlow, hex⟩ := walked_below (Int.le_refl pc)
        (fun u (hu : u ∈ ([] : List Span)) => absurd hu List.not_mem_nil) hdone hdisj
      refine ⟨pc, hlow, hex, .inr ⟨hpc.1, by omega, fun s hs hin => ?_, h.symm⟩⟩
      have := (hdone pc).mp ⟨s, by simpa using hs, hin⟩
      omega
  | cons s rest ih =>
    obtain ⟨hs_le, hsorted'⟩ := List.pairwise_cons.mp hsorted
    have hsb := hb s (by simp)
    simp only [checkCoverage] at h
    split at h
    · -- the next span starts inside the walked prefix: its start lies in two spans
      rename_i hlt
      simp only [Except.error.injEq] at h
      obtain ⟨hlow, hex⟩ := walked_below (Int.le_of_lt hlt)
        (fun u hu => by
          rcases List.mem_cons.mp hu with rfl | hu
          · exact Int.le_refl _
          · exact hs_le u hu) hdone hdisj
      obtain ⟨t, ht, hlo, hhi⟩ := (hdone s.start).mpr ⟨hsb.1, hlt⟩
      have hne : s ≠ t := fun hst =>
        (List.nodup_append.mp hnd).2.2 t ht s (by simp) hst.symm
      refine ⟨s.start, hlow, hex, .inl ⟨s, by simp, t, List.mem_append_left _ ht, hne, rfl,
        hsb.2.1, hlo, hhi, h.symm⟩⟩
    · split at h
      · -- the next span starts after the walked prefix: the prefix's end is in no span
        rename_i hge hgt
        simp only [Except.error.injEq] at h
        have hahead : ∀ u ∈ s :: rest, pc < u.start := fun u hu => by
          rcases List.mem_cons.mp hu with rfl | hu
          · exact hgt
          · have := hs_le u hu; omega
        obtain ⟨hlow, hex⟩ := walked_below (Int.le_refl pc)
          (fun u hu => Int.le_of_lt (hahead u hu)) hdone hdisj
        refine ⟨pc, hlow, hex, .inr ⟨hpc.1, by omega, fun u hu hin => ?_, h.symm⟩⟩
        rcases List.mem_append.mp hu with hu | hu
        · have := (hdone pc).mp ⟨u, hu, hin⟩
          omega
        · have := hahead u hu
          omega
      · -- the next span starts where the prefix ends: walk past it
        rename_i hge hle
        have hstart : s.start = pc := by omega
        have hregroup : done ++ s :: rest = (done ++ [s]) ++ rest := by simp
        rw [hregroup] at hb hnd ⊢
        apply ih hb hnd hsorted' ⟨by omega, hsb.2.2⟩
        · intro y
          constructor
          · rintro ⟨u, hu, hlo, hhi⟩
            rcases List.mem_append.mp hu with hu | hu
            · have := (hdone y).mp ⟨u, hu, hlo, hhi⟩
              omega
            · rw [List.mem_singleton.mp hu] at hlo hhi
              omega
          · rintro ⟨h0, hy⟩
            by_cases hyp : y < pc
            · obtain ⟨u, hu, hlo, hhi⟩ := (hdone y).mpr ⟨h0, hyp⟩
              exact ⟨u, List.mem_append_left _ hu, hlo, hhi⟩
            · exact ⟨s, by simp, by omega, hy⟩
        · intro y u hu v hv hu₁ hu₂ hv₁ hv₂
          -- a walked span lies below `pc`, the new one at or above it
          have hbelow : ∀ w ∈ done, w.start ≤ y → y < w.stop → y < pc := fun w hw h₁ h₂ =>
            ((hdone y).mp ⟨w, hw, h₁, h₂⟩).2
          rcases List.mem_append.mp hu with hu | hu <;> rcases List.mem_append.mp hv with hv | hv
          · exact hdisj y u hu v hv hu₁ hu₂ hv₁ hv₂
          · rw [List.mem_singleton.mp hv] at hv₁
            have := hbelow u hu hu₁ hu₂
            omega
          · rw [List.mem_singleton.mp hu] at hu₁
            have := hbelow v hv hv₁ hv₂
            omega
          · rw [List.mem_singleton.mp hu, List.mem_singleton.mp hv]
        · exact h

/-! ### The edge checks -/

/-- The end check fails at the first block, in the order given, listing an end that names no
block: at its first such successor, or, if all its successors name blocks, at its first such
predecessor. -/
theorem checkEnds_eq_error {nb : Nat} {bs : List (Nat × RawBlock)} {e : Error}
    (h : checkEnds nb bs = .error e) :
    ∃ pre x post, bs = pre ++ x :: post ∧ (∀ y ∈ pre, y.2.EndsIn nb) ∧
      ((∃ (l₁ : List Int) (t : Int) (l₂ : List Int), x.2.succs = l₁ ++ t :: l₂ ∧
          (∀ u ∈ l₁, 0 ≤ u ∧ u < nb) ∧ ¬ (0 ≤ t ∧ t < nb) ∧
          e = .edge x.1 t "successor does not exist") ∨
        ((∀ u ∈ x.2.succs, 0 ≤ u ∧ u < (nb : Int)) ∧
          ∃ (l₁ : List Int) (t : Int) (l₂ : List Int), x.2.preds = l₁ ++ t :: l₂ ∧
          (∀ u ∈ l₁, 0 ≤ u ∧ u < nb) ∧ ¬ (0 ≤ t ∧ t < nb) ∧
          e = .edge t x.1 "predecessor does not exist")) := by
  induction bs with
  | nil => cases h
  | cons y bs ih =>
    obtain ⟨bb, b⟩ := y
    simp only [checkEnds] at h
    rcases except_bind_eq_error.mp h with hs | ⟨_, hs, h⟩
    · -- a successor names no block
      obtain ⟨l₁, t, l₂, hsplit, hl₁, ht, rfl⟩ := forIn_guard_eq_error _ _ hs
      exact ⟨[], (bb, b), bs, rfl, by simp,
        .inl ⟨l₁, t, l₂, hsplit, fun u hu => by have := hl₁ u hu; omega, by omega, rfl⟩⟩
    have hs' := forIn_guard_eq_ok _ _ hs
    rcases except_bind_eq_error.mp h with hp | ⟨_, hp, h⟩
    · -- every successor names a block, a predecessor does not
      obtain ⟨l₁, t, l₂, hsplit, hl₁, ht, rfl⟩ := forIn_guard_eq_error _ _ hp
      exact ⟨[], (bb, b), bs, rfl, by simp,
        .inr ⟨fun u hu => by have := hs' u hu; omega, l₁, t, l₂, hsplit,
          fun u hu => by have := hl₁ u hu; omega, by omega, rfl⟩⟩
    · -- the block passes, and a later one fails
      have hp' := forIn_guard_eq_ok _ _ hp
      obtain ⟨pre, x, post, rfl, hpre, hx⟩ := ih h
      refine ⟨(bb, b) :: pre, x, post, rfl, fun z hz => ?_, hx⟩
      rcases List.mem_cons.mp hz with rfl | hz
      · intro t ht
        rcases List.mem_append.mp ht with ht | ht
        · have := hs' t ht; omega
        · have := hp' t ht; omega
      · exact hpre z hz

/-- The mirror check fails at a successor edge not listed as a predecessor edge, or, if there is
none, at a predecessor edge not listed as a successor edge. -/
theorem checkMirror_eq_error {bs : List (Nat × RawBlock)} {e : Error}
    (h : checkMirror bs = .error e) :
    (∃ u v, (u, v) ∈ succEdges bs ∧ (u, v) ∉ predEdges bs ∧
        e = .edge u v "successor edge without matching predecessor") ∨
      ((∀ x ∈ succEdges bs, x ∈ predEdges bs) ∧ ∃ u v, (u, v) ∈ predEdges bs ∧
        (u, v) ∉ succEdges bs ∧ e = .edge u v "predecessor edge without matching successor") := by
  simp only [checkMirror] at h
  split at h
  · rename_i u v hfind
    simp only [throw, throwThe, MonadExceptOf.throw, bind, Except.bind, Except.error.injEq] at h
    have hnot := List.find?_some hfind
    simp only [Bool.not_eq_eq_eq_not, Bool.not_true, List.contains_eq_mem,
      decide_eq_false_iff_not] at hnot
    exact .inl ⟨u, v, List.mem_of_find?_eq_some hfind, hnot, h.symm⟩
  · rename_i hnone
    split at h
    · rename_i u v hfind
      simp only [throw, throwThe, MonadExceptOf.throw, Except.error.injEq] at h
      have hnot := List.find?_some hfind
      simp only [Bool.not_eq_eq_eq_not, Bool.not_true, List.contains_eq_mem,
        decide_eq_false_iff_not] at hnot
      refine .inr ⟨fun x hx => ?_, u, v, List.mem_of_find?_eq_some hfind, hnot, h.symm⟩
      simpa using List.find?_eq_none.mp hnone x hx
    · cases h

theorem mem_succEdges_indexed {u v : Int} : (u, v) ∈ succEdges g.indexed ↔ g.SuccEdge u v := by
  simp only [succEdges, List.mem_flatMap, List.mem_map, Prod.mk.injEq, SuccEdge]
  constructor
  · rintro ⟨⟨bb, b⟩, hb, t, ht, rfl, rfl⟩
    exact ⟨bb, b, mem_indexed.mp hb, rfl, ht⟩
  · rintro ⟨bb, b, hb, rfl, ht⟩
    exact ⟨(bb, b), mem_indexed.mpr hb, v, ht, rfl, rfl⟩

theorem mem_predEdges_indexed {u v : Int} : (u, v) ∈ predEdges g.indexed ↔ g.PredEdge u v := by
  simp only [predEdges, List.mem_flatMap, List.mem_map, Prod.mk.injEq, PredEdge]
  constructor
  · rintro ⟨⟨bb, b⟩, hb, t, ht, rfl, rfl⟩
    exact ⟨bb, b, mem_indexed.mp hb, rfl, ht⟩
  · rintro ⟨bb, b, hb, rfl, ht⟩
    exact ⟨(bb, b), mem_indexed.mpr hb, u, ht, rfl, rfl⟩

/-! ### What the checks establish, and what they report -/

theorem within_of_checkBounds {spans : List Span}
    (hb : checkBounds g.instrCount g.indexed = .ok spans) :
    ∀ b ∈ g.blocks, b.Within g.instrCount := by
  intro b hb'
  obtain ⟨i, hi⟩ := Array.mem_iff_getElem?.mp hb'
  exact (checkBounds_eq_ok hb).1 (i, b) (mem_indexed.mpr hi)

theorem endsIn_of_checkEnds (he : checkEnds g.blocks.size g.indexed = .ok ()) :
    ∀ b ∈ g.blocks, b.EndsIn g.blocks.size := by
  intro b hb' t ht
  obtain ⟨i, hi⟩ := Array.mem_iff_getElem?.mp hb'
  obtain ⟨hs, hp⟩ := checkEnds_eq_ok he (i, b) (mem_indexed.mpr hi)
  rcases List.mem_append.mp ht with ht | ht
  · exact hs t ht
  · exact hp t ht

/-- Once the range check and the coverage walk pass, the ranges partition the instructions. -/
theorem partition_of_checks {spans : List Span} (hnb : 0 ≤ g.blockCount) (hni : 0 ≤ g.instrCount)
    (hb : checkBounds g.instrCount g.indexed = .ok spans)
    (hc : checkCoverage g.instrCount 0 (spans.mergeSort fun s t => s.start ≤ t.start) = .ok ()) :
    g.Partition := by
  obtain ⟨hwithin, hmem⟩ := checkBounds_eq_ok hb
  have hss : ∀ s ∈ spans.mergeSort (fun s t => s.start ≤ t.start), s.start ≤ s.stop := by
    intro s hs
    obtain ⟨x, -, hlt, rfl⟩ := (hmem s).mp (List.mem_mergeSort.mp hs)
    exact Int.le_of_lt hlt
  obtain ⟨-, hpw, hcov⟩ := checkCoverage_eq_ok hss hc
  refine ⟨hnb, hni, within_of_checkBounds hb, fun h₁ h₂ => ?_, fun pc => ⟨?_, ?_⟩⟩
  · -- two spans holding one offset are one span, since the walk found them apart
    obtain ⟨s₁, hs₁, rfl, hlo₁, hhi₁⟩ := (covers_iff_mem_spans hb).mp h₁
    obtain ⟨s₂, hs₂, rfl, hlo₂, hhi₂⟩ := (covers_iff_mem_spans hb).mp h₂
    by_cases hst : s₁ = s₂
    · rw [hst]
    · rcases pairwise_rel_or_rel hpw (List.mem_mergeSort.mpr hs₁) (List.mem_mergeSort.mpr hs₂)
        hst with h | h <;> omega
  · rintro ⟨bb, b, hbb, hlo, hhi⟩
    have := hwithin (bb, b) (mem_indexed.mpr hbb)
    simp only at this
    omega
  · rintro ⟨h0, hlt⟩
    obtain ⟨s, hs, hlo, hhi⟩ := hcov pc h0 hlt
    exact ⟨s.block, (covers_iff_mem_spans hb).mpr ⟨s, List.mem_mergeSort.mp hs, rfl, hlo, hhi⟩⟩

/-- A graph the check accepts is well formed. -/
theorem wellFormed_of_validate_eq_ok {fg : FlowGraph} (h : g.validate = .ok fg) :
    g.WellFormed := by
  obtain ⟨hni, -, spans, hb, hc, he, hm⟩ := validate_eq_ok h
  obtain ⟨hsm, hpm⟩ := checkMirror_eq_ok hm
  refine { partition_of_checks (blockCount_nonneg_of_validate h) hni hb hc with
    endsIn := endsIn_of_checkEnds he, mirror := fun u v => ?_ }
  rw [← mem_succEdges_indexed, ← mem_predEdges_indexed]
  exact ⟨hsm _, hpm _⟩

/-- The coverage walk over the spans sorted by start fails only with the fault of the lowest
misplaced offset. -/
theorem fault_of_checkCoverage {spans : List Span} {e : Error} (hnb : 0 ≤ g.blockCount)
    (hni : 0 ≤ g.instrCount)
    (hb : checkBounds g.instrCount g.indexed = .ok spans)
    (hc : checkCoverage g.instrCount 0 (spans.mergeSort fun s t => s.start ≤ t.start) =
      .error e) :
    g.Fault e := by
  obtain ⟨hwithin, hmem⟩ := checkBounds_eq_ok hb
  have hbounds : ∀ s ∈ [] ++ spans.mergeSort (fun s t => s.start ≤ t.start),
      0 ≤ s.start ∧ s.start < s.stop ∧ s.stop ≤ g.instrCount := by
    intro s hs
    obtain ⟨x, hx, hlt, rfl⟩ := (hmem s).mp (by simpa using hs)
    have := hwithin x hx
    simp only
    omega
  have hnd : ([] ++ spans.mergeSort fun s t => s.start ≤ t.start).Nodup := by
    rw [List.nil_append]
    exact (List.mergeSort_perm _ _).nodup_iff.mpr (nodup_spans hb)
  have hsorted : (spans.mergeSort fun s t => s.start ≤ t.start).Pairwise
      fun s t => s.start ≤ t.start := by
    have : (spans.mergeSort fun s t => s.start ≤ t.start).Pairwise
        fun s t => decide (s.start ≤ t.start) = true :=
      List.pairwise_mergeSort (fun a b c h₁ h₂ => by simp only [decide_eq_true_eq] at *; omega)
        (fun a b => by simp only [Bool.or_eq_true, decide_eq_true_eq]; omega) spans
    exact this.imp fun h => by simpa using h
  obtain ⟨x, hlow, hex, hcase⟩ := checkCoverage_eq_error hbounds hnd hsorted ⟨Int.le_refl 0, hni⟩
    (fun y => ⟨fun ⟨_, hs, _⟩ => absurd hs List.not_mem_nil, fun h => by omega⟩)
    (fun y s hs => absurd hs List.not_mem_nil) hc
  -- below `x` every offset lies in exactly one block
  have hmis : ∀ q < x, ¬ g.Misplaced q := by
    rintro q hq (⟨h0, hlt, hnone⟩ | ⟨b₁, b₂, hne, h₁, h₂⟩)
    · obtain ⟨s, hs, hlo, hhi⟩ := hex q h0 hq
      exact hnone s.block
        ((covers_iff_mem_spans hb).mpr ⟨s, by simpa using hs, rfl, hlo, hhi⟩)
    · obtain ⟨s₁, hs₁, rfl, hlo₁, hhi₁⟩ := (covers_iff_mem_spans hb).mp h₁
      obtain ⟨s₂, hs₂, rfl, hlo₂, hhi₂⟩ := (covers_iff_mem_spans hb).mp h₂
      exact hne (congrArg Span.block
        (hlow q hq s₁ (by simpa using hs₁) s₂ (by simpa using hs₂) hlo₁ hhi₁ hlo₂ hhi₂))
  rcases hcase with ⟨s, hs, t, ht, hne, hstart, hstop, htlo, hthi, rfl⟩ | ⟨h0, hlt, hnone, rfl⟩
  · -- an overlap: the span reported starts at `x`, and another span holds `x`
    have hs' : s ∈ spans := by simpa using hs
    have ht' : t ∈ spans := by simpa using ht
    have hcov : g.Covers s.block x :=
      (covers_iff_mem_spans hb).mpr ⟨s, hs', rfl, Int.le_of_eq hstart, hstop⟩
    have hother : ∃ b', b' ≠ s.block ∧ g.Covers b' x :=
      ⟨t.block, fun hbt => hne (eq_of_block_eq hb hs' ht' hbt.symm),
        (covers_iff_mem_spans hb).mpr ⟨t, ht', rfl, htlo, hthi⟩⟩
    obtain ⟨⟨i, b⟩, hib, -, rfl⟩ := (hmem s).mp hs'
    exact .overlap hnb hni (within_of_checkBounds hb) hmis (mem_indexed.mp hib) hstart hcov hother
  · -- a gap: `x` is an instruction in no span
    refine .gap hnb hni (within_of_checkBounds hb) hmis h0 hlt fun bb hcov => ?_
    obtain ⟨s, hs, rfl, hlo, hhi⟩ := (covers_iff_mem_spans hb).mp hcov
    exact hnone s (by simpa using hs) ⟨hlo, hhi⟩

/-- Every error the check returns reports the first fault of the graph. -/
theorem fault_of_validate_eq_error {e : Error} (h : g.validate = .error e) : g.Fault e := by
  simp only [validate] at h
  split at h
  · rename_i hneg
    simp only [throw, throwThe, MonadExceptOf.throw, bind, Except.bind, Except.error.injEq] at h
    rw [← h]
    exact .blockCount hneg
  have hnb : 0 ≤ g.blockCount := by omega
  split at h
  · rename_i hneg
    simp only [throw, throwThe, MonadExceptOf.throw, bind, Except.bind, Except.error.injEq] at h
    rw [← h]
    exact .count hnb hneg
  have hni : 0 ≤ g.instrCount := by omega
  -- the edge checks bound the block indices by the count, which is the number of blocks
  rw [← g.size_blocks] at h
  rcases except_bind_eq_error.mp h with hb | ⟨spans, hb, h⟩
  · -- the range check failed at the first block with a range outside the instructions
    obtain ⟨pre, ⟨bb, b⟩, post, hsplit, hpre, hbad, rfl⟩ := checkBounds_eq_error hb
    obtain ⟨hget, hbefore⟩ := indexed_eq_append hsplit
    exact .range hnb hni hget hbad fun i hi b' hb' => hpre _ (hbefore i hi b' hb')
  rcases except_bind_eq_error.mp h with hc | ⟨_, hc, h⟩
  · exact fault_of_checkCoverage hnb hni hb hc
  have hpart := partition_of_checks hnb hni hb hc
  rcases except_bind_eq_error.mp h with he | ⟨_, he, h⟩
  · -- the end check failed at the first block listing an end that names no block
    obtain ⟨pre, ⟨bb, b⟩, post, hsplit, hpre, hcase⟩ := checkEnds_eq_error he
    obtain ⟨hget, hbefore⟩ := indexed_eq_append hsplit
    have hbefore' : ∀ i < bb, ∀ b', g.blocks[i]? = some b' → b'.EndsIn g.blocks.size :=
      fun i hi b' hb' => hpre _ (hbefore i hi b' hb')
    rcases hcase with ⟨l₁, t, l₂, hsplit', hl₁, ht, rfl⟩ | ⟨hs, l₁, t, l₂, hsplit', hl₁, ht, rfl⟩
    · exact .succEnd hpart hget hbefore' hsplit' hl₁ ht
    · exact .predEnd hpart hget hbefore' hs hsplit' hl₁ ht
  have hends := endsIn_of_checkEnds he
  rcases except_bind_eq_error.mp h with hm | ⟨_, -, h⟩
  · rcases checkMirror_eq_error hm with ⟨u, v, hs, hp, rfl⟩ | ⟨hall, u, v, hp, hs, rfl⟩
    · exact .succUnmatched hpart hends (mem_succEdges_indexed.mp hs)
        fun h' => hp (mem_predEdges_indexed.mpr h')
    · exact .predUnmatched hpart hends
        (fun u v h' => mem_predEdges_indexed.mp (hall _ (mem_succEdges_indexed.mpr h')))
        (mem_predEdges_indexed.mp hp) fun h' => hs (mem_succEdges_indexed.mpr h')
  · cases h

/-- The check accepts exactly the well-formed graphs. -/
theorem validate_eq_ok_iff : (∃ fg, g.validate = .ok fg) ↔ g.WellFormed := by
  constructor
  · rintro ⟨fg, h⟩
    exact wellFormed_of_validate_eq_ok h
  · intro hw
    cases h : g.validate with
    | ok fg => exact ⟨fg, rfl⟩
    | error e => exact absurd (fault_of_validate_eq_error h) hw.not_fault

/-- The check of a graph accepts exactly the well-formed graphs, whatever the order of their
blocks and of their edge lists, and every error it returns reports, as a malformed graph, the
first fault in the order of its checks, a negative block count first of all. -/
theorem validate_ok_iff_wellFormed_else_first_fault (c : Cfg) :
    ((∃ g, c.validate = .ok g) ↔ c.WellFormed) ∧
      ∀ e, c.validate = .error e → c.Fault e ∧ e.isInvalidGraph = true :=
  ⟨validate_eq_ok_iff, fun _ h =>
    ⟨fault_of_validate_eq_error h, (fault_of_validate_eq_error h).isInvalidGraph⟩⟩

/-- A negative block count is reported before a negative instruction count. -/
example : (⟨-1, -2, #[], rfl⟩ : Cfg).validate = .error (.graph "negative block count -1") := rfl

end Cfg

namespace RawGraph

/-! ### The same notions for a graph given by its blocks -/

variable (g : RawGraph)

/-- Block `u` lists `v` among its successors. -/
abbrev SuccEdge (u v : Int) : Prop := g.toCfg.SuccEdge u v

/-- Block `v` lists `u` among its predecessors. -/
abbrev PredEdge (u v : Int) : Prop := g.toCfg.PredEdge u v

/-- The ranges split the instructions into blocks. -/
abbrev Partition : Prop := g.toCfg.Partition

/-- The blocks form a control-flow graph. -/
abbrev WellFormed : Prop := g.toCfg.WellFormed

/-- `e` reports the first way in which the blocks are malformed. -/
abbrev Fault (e : Error) : Prop := g.toCfg.Fault e

end RawGraph

end RegisterLiveness
