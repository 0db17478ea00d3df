import RegisterLiveness.Proofs.Validate
import RegisterLiveness.FlowGraph.Builder

/-!
# Graphs that pass their checks

`RawGraph.validate` accepts every described graph whose blocks tile the instructions in index
order and whose successor and predecessor lists name existing blocks and describe the same edges
(`validate_eq_ok_of`); each check is shown to pass on its own.

A `GraphBuilder` keeps exactly that shape. `GraphBuilder.Records` says what a builder holds: blocks
with given ranges, and edge lists recording exactly a given list of edges. Adding blocks and then
edges between existing blocks keeps it (`addEdges_eq_ok`), and `build_eq_ok` then returns the
checked graph.
-/

namespace RegisterLiveness

/-- Ranges that split `[0, ni)` into non-empty pieces, listed by increasing start. -/
structure Tiles (rs : List (Int × Int)) (ni : Int) : Prop where
  nonneg : 0 ≤ ni
  bounds : ∀ x ∈ rs, 0 ≤ x.1 ∧ x.1 < x.2 ∧ x.2 ≤ ni
  sorted : rs.Pairwise (fun x y => x.2 ≤ y.1)
  covers : ∀ pc, 0 ≤ pc → pc < ni → ∃ x ∈ rs, x.1 ≤ pc ∧ pc < x.2

/-- A loop whose body throws only at an element passing a test, when none passes it, ends `ok`. -/
theorem forIn_guard_eq_ok_of {ε α : Type} {l : List α} (P : α → Prop) [DecidablePred P]
    (e : α → ε) (h : ∀ x ∈ l, ¬ P x) :
    (forIn l PUnit.unit fun x _ =>
      if P x then do throw (e x); pure (ForInStep.yield PUnit.unit)
      else pure (ForInStep.yield PUnit.unit) : Except ε PUnit) = .ok PUnit.unit := by
  induction l with
  | nil => rfl
  | cons y l ih =>
    rw [List.forIn_cons, if_neg (h y List.mem_cons_self)]
    exact ih fun x hx => h x (List.mem_cons_of_mem _ hx)

namespace RawGraph

/-! ### Each check passes -/

/-- Blocks all within the instructions and all non-empty pass the range check, each giving its
span. -/
theorem checkBounds_eq_ok_of {ni : Int} {bs : List (Nat × RawBlock)}
    (h : ∀ x ∈ bs, 0 ≤ x.2.start ∧ x.2.start < x.2.stop ∧ x.2.stop ≤ ni) :
    checkBounds ni bs = .ok (bs.map fun x => ⟨x.1, x.2.start, x.2.stop⟩) := by
  induction bs with
  | nil => rfl
  | cons x bs ih =>
    obtain ⟨bb, b⟩ := x
    have hx := h (bb, b) List.mem_cons_self
    simp only at hx
    simp only [checkBounds, if_neg (show ¬(b.start < 0 ∨ b.stop < b.start ∨ ni < b.stop) by omega)]
    rw [ih fun y hy => h y (List.mem_cons_of_mem _ hy)]
    simp only [if_neg (show ¬b.stop = b.start by omega), List.map_cons]
    rfl

/-- The converse of `checkCoverage_eq_ok`: spans in `[pc, ni)`, each ending before the next begins
and together covering `[pc, ni)`, pass the coverage walk from `pc`. -/
theorem checkCoverage_eq_ok_of {ni pc : Int} {ss : List Span} (hpc : pc ≤ ni)
    (hss : ∀ s ∈ ss, pc ≤ s.start ∧ s.start < s.stop ∧ s.stop ≤ ni)
    (hsorted : ss.Pairwise (fun s t => s.stop ≤ t.start))
    (hcov : ∀ x, pc ≤ x → x < ni → ∃ s ∈ ss, s.start ≤ x ∧ x < s.stop) :
    checkCoverage ni pc ss = .ok () := by
  induction ss generalizing pc with
  | nil =>
    have : ¬ pc < ni := fun hlt => by simpa using hcov pc (Int.le_refl _) hlt
    simp only [checkCoverage, if_pos (show pc = ni by omega)]
  | cons s ss ih =>
    obtain ⟨hs₁, hs₂, hs₃⟩ := hss s List.mem_cons_self
    obtain ⟨hrest, hsorted⟩ := List.pairwise_cons.mp hsorted
    -- the first span starts at `pc`: every span starts at or after it, and `pc` is covered
    have hstart : s.start = pc := by
      obtain ⟨t, ht, hlo, -⟩ := hcov pc (Int.le_refl _) (by omega)
      rcases List.mem_cons.mp ht with rfl | ht
      · omega
      · have := hrest t ht
        omega
    simp only [checkCoverage, if_neg (show ¬ s.start < pc by omega),
      if_neg (show ¬ pc < s.start by omega)]
    apply ih hs₃
    · intro t ht
      exact ⟨hrest t ht, (hss t (List.mem_cons_of_mem _ ht)).2⟩
    · exact hsorted
    · intro x hx hxn
      obtain ⟨t, ht, hlo, hhi⟩ := hcov x (by omega) hxn
      rcases List.mem_cons.mp ht with rfl | ht
      · omega
      · exact ⟨t, ht, hlo, hhi⟩

theorem checkEnds_eq_ok_of {nb : Nat} {bs : List (Nat × RawBlock)}
    (h : ∀ x ∈ bs, (∀ t ∈ x.2.succs, 0 ≤ t ∧ t < nb) ∧ (∀ t ∈ x.2.preds, 0 ≤ t ∧ t < nb)) :
    checkEnds nb bs = .ok () := by
  induction bs with
  | nil => rfl
  | cons x bs ih =>
    obtain ⟨bb, b⟩ := x
    obtain ⟨hs, hp⟩ := h (bb, b) List.mem_cons_self
    simp only [checkEnds]
    rw [forIn_guard_eq_ok_of _ _ fun t ht => by have := hs t ht; omega]
    rw [forIn_guard_eq_ok_of _ _ fun t ht => by have := hp t ht; omega]
    exact ih fun y hy => h y (List.mem_cons_of_mem _ hy)

theorem checkMirror_eq_ok_of {bs : List (Nat × RawBlock)}
    (h : ∀ e, e ∈ succEdges bs ↔ e ∈ predEdges bs) :
    checkMirror bs = .ok () := by
  have hs : (succEdges bs).find? (fun e => !(predEdges bs).contains e) = none :=
    List.find?_eq_none.mpr fun e he => by simpa using (h e).mp he
  have hp : (predEdges bs).find? (fun e => !(succEdges bs).contains e) = none :=
    List.find?_eq_none.mpr fun e he => by simpa using (h e).mpr he
  simp only [checkMirror, hs, hp]
  rfl

/-! ### The whole check -/

theorem map_snd_indexed (rg : RawGraph) : rg.toCfg.indexed.map Prod.snd = rg.blocks.toList := by
  simp [Cfg.indexed, List.map_map, Function.comp_def]

/-- A described graph whose blocks tile its instructions in index order, and whose edge lists
name existing blocks and describe the same edges, passes the check unchanged. -/
theorem validate_eq_ok_of {rg : RawGraph}
    (ht : Tiles (rg.blocks.toList.map fun x => (x.start, x.stop)) rg.instrCount)
    (hends : ∀ x ∈ rg.blocks.toList,
      (∀ t ∈ x.succs, 0 ≤ t ∧ t < rg.blocks.size) ∧ (∀ t ∈ x.preds, 0 ≤ t ∧ t < rg.blocks.size))
    (hmirror : ∀ e, e ∈ succEdges rg.toCfg.indexed ↔ e ∈ predEdges rg.toCfg.indexed) :
    rg.validate = .ok ⟨rg.blocks.map blockOf, rg.instrCount.toNat⟩ := by
  have hranges : rg.toCfg.indexed.map (fun x => (x.2.start, x.2.stop)) =
      rg.blocks.toList.map fun x => (x.start, x.stop) := by
    rw [← map_snd_indexed, List.map_map]
    rfl
  have hmem : ∀ x ∈ rg.toCfg.indexed, (x.2.start, x.2.stop) ∈
      rg.blocks.toList.map fun x => (x.start, x.stop) :=
    fun x hx => hranges ▸ List.mem_map_of_mem hx
  have hbounds : ∀ x ∈ rg.toCfg.indexed,
      0 ≤ x.2.start ∧ x.2.start < x.2.stop ∧ x.2.stop ≤ rg.instrCount :=
    fun x hx => ht.bounds _ (hmem x hx)
  -- the spans, in index order, are already sorted by start
  have hsorted : (rg.toCfg.indexed.map fun x => (⟨x.1, x.2.start, x.2.stop⟩ : Span)).Pairwise
      (fun s t => s.stop ≤ t.start) := by
    have := ht.sorted
    rw [← hranges, List.pairwise_map] at this
    exact List.pairwise_map.mpr this
  have hmerge : (rg.toCfg.indexed.map fun x => (⟨x.1, x.2.start, x.2.stop⟩ : Span)).mergeSort
      (fun s t => s.start ≤ t.start) = rg.toCfg.indexed.map fun x => ⟨x.1, x.2.start, x.2.stop⟩ := by
    apply List.mergeSort_of_pairwise
    refine hsorted.imp_of_mem fun {s t} hs _ hst => ?_
    obtain ⟨x, hx, rfl⟩ := List.mem_map.mp hs
    have := hbounds x hx
    simp only [decide_eq_true_eq] at hst ⊢
    omega
  have hcov : checkCoverage rg.instrCount 0
      (rg.toCfg.indexed.map fun x => (⟨x.1, x.2.start, x.2.stop⟩ : Span)) = .ok () := by
    apply checkCoverage_eq_ok_of ht.nonneg _ hsorted
    · intro pc h₀ hpc
      obtain ⟨r, hr, hlo, hhi⟩ := ht.covers pc h₀ hpc
      rw [← hranges] at hr
      obtain ⟨x, hx, rfl⟩ := List.mem_map.mp hr
      exact ⟨_, List.mem_map_of_mem hx, hlo, hhi⟩
    · intro s hs
      obtain ⟨x, hx, rfl⟩ := List.mem_map.mp hs
      exact hbounds x hx
  have hends' : checkEnds rg.blocks.size rg.toCfg.indexed = .ok () := by
    apply checkEnds_eq_ok_of
    intro x hx
    apply hends
    rw [← map_snd_indexed]
    exact List.mem_map_of_mem hx
  have hnb : ¬ (rg.blocks.size : Int) < 0 := by omega
  have hni : ¬ rg.instrCount < 0 := by have := ht.nonneg; omega
  simp only [validate, Cfg.validate, toCfg_blockCount, toCfg_instrCount, Int.toNat_natCast]
  rw [show rg.toCfg.blocks.toList.zipIdx.map (fun x => (x.2, x.1)) = rg.toCfg.indexed from rfl,
    checkBounds_eq_ok_of hbounds]
  simp only [bind, Except.bind, if_neg hnb, if_neg hni, hmerge, hcov, hends',
    checkMirror_eq_ok_of hmirror]
  rfl

end RawGraph

/-- Over ranges tiling `[0, ni)`, the largest end is `ni`. -/
theorem Tiles.foldl_max {rs : List (Int × Int)} {ni : Int} (ht : Tiles rs ni) : rs.foldl (fun m x => max m x.2) 0 = ni := by
  have key : ∀ (l : List (Int × Int)) (m : Int), (∀ x ∈ l, x.2 ≤ ni) → m ≤ ni →
      (m = ni ∨ ∃ x ∈ l, x.2 = ni) → l.foldl (fun m x => max m x.2) m = ni := by
    intro l
    induction l with
    | nil => intro m _ _ hm; simpa using hm
    | cons x l ih =>
      intro m hl hm hex
      rw [List.foldl_cons]
      apply ih (max m x.2) (fun y hy => hl y (List.mem_cons_of_mem _ hy))
      · have := hl x List.mem_cons_self; omega
      · rcases hex with rfl | ⟨y, hy, hyn⟩
        · exact .inl (by have := hl x List.mem_cons_self; omega)
        · rcases List.mem_cons.mp hy with rfl | hy
          · exact .inl (by omega)
          · exact .inr ⟨y, hy, hyn⟩
  apply key rs 0 (fun x hx => (ht.bounds x hx).2.2) ht.nonneg
  by_cases hni : ni = 0
  · exact .inl hni.symm
  · obtain ⟨x, hx, -, hlt⟩ := ht.covers (ni - 1) (by have := ht.nonneg; omega) (by omega)
    exact .inr ⟨x, hx, by have := (ht.bounds x hx).2.2; omega⟩

namespace GraphBuilder

variable {b : GraphBuilder} {rs es : List (Int × Int)}

/-- The builder holds blocks with the ranges `rs`, and its edge lists record exactly the edges of
`es`, listed once for the source and once for the target. -/
structure Records (b : GraphBuilder) (rs es : List (Int × Int)) : Prop where
  size_eq : b.blocks.size = rs.length
  range : ∀ {k : Nat} {x : RawBlock}, b.blocks[k]? = some x → rs[k]? = some (x.start, x.stop)
  mem_succs : ∀ {k : Nat} {x : RawBlock}, b.blocks[k]? = some x → ∀ t, t ∈ x.succs ↔ ((k : Int), t) ∈ es
  mem_preds : ∀ {k : Nat} {x : RawBlock}, b.blocks[k]? = some x → ∀ f, f ∈ x.preds ↔ (f, (k : Int)) ∈ es

/-- Only which edges are recorded matters, not how often or in which order. -/
theorem Records.congr {es' : List (Int × Int)} (h : b.Records rs es)
    (hes : ∀ e, e ∈ es ↔ e ∈ es') : b.Records rs es' where
  size_eq := h.size_eq
  range := h.range
  mem_succs hx t := (h.mem_succs hx t).trans (hes _)
  mem_preds hx f := (h.mem_preds hx f).trans (hes _)

theorem addBlocks_blocks (b : GraphBuilder) (rs : List (Int × Int)) :
    (b.addBlocks rs).blocks = b.blocks ++ (rs.map fun x => (⟨x.1, x.2, [], []⟩ : RawBlock)).toArray := by
  induction rs generalizing b with
  | nil => simp [addBlocks]
  | cons r rs ih =>
    have := ih (b.addBlock r.1 r.2)
    simp only [addBlocks, List.foldl_cons] at this ⊢
    rw [this]
    simp [addBlock]

/-- Blocks added to an empty builder record their ranges and no edge. -/
theorem records_addBlocks (rs : List (Int × Int)) : ({} : GraphBuilder).addBlocks rs |>.Records rs [] where
  size_eq := by simp [addBlocks_blocks]
  range {k x} hx := by
    simp only [addBlocks_blocks, List.getElem?_toArray, Array.empty_append,
      List.getElem?_map, Option.map_eq_some_iff] at hx
    obtain ⟨r, hr, rfl⟩ := hx
    exact hr
  mem_succs {k x} hx t := by
    simp only [addBlocks_blocks, List.getElem?_toArray, Array.empty_append,
      List.getElem?_map, Option.map_eq_some_iff] at hx
    obtain ⟨r, -, rfl⟩ := hx
    simp
  mem_preds {k x} hx f := by
    simp only [addBlocks_blocks, List.getElem?_toArray, Array.empty_append,
      List.getElem?_map, Option.map_eq_some_iff] at hx
    obtain ⟨r, -, rfl⟩ := hx
    simp

/-- A block after an edge is recorded: the source gained the target as a successor, the target
gained the source as a predecessor, and nothing else changed. -/
theorem getElem?_modify_modify_eq_some {bs : Array RawBlock} {i j k : Nat} {f t : Int}
    {x : RawBlock}
    (h : ((bs.modify i fun x => { x with succs := x.succs ++ [t] }).modify j
      fun x => { x with preds := x.preds ++ [f] })[k]? = some x) :
    ∃ y, bs[k]? = some y ∧ x.start = y.start ∧ x.stop = y.stop ∧
      x.succs = (if i = k then y.succs ++ [t] else y.succs) ∧
      x.preds = (if j = k then y.preds ++ [f] else y.preds) := by
  cases hy : bs[k]? with
  | none => simp [Array.getElem?_modify, hy] at h
  | some y =>
    refine ⟨y, rfl, ?_⟩
    simp only [Array.getElem?_modify, hy] at h
    by_cases hi : i = k <;> by_cases hj : j = k <;> simp [hi, hj] at h <;> subst h <;> simp [hi, hj]

/-- Adding an edge between existing blocks records it. -/
theorem addEdge_eq_ok {f t : Int} (h : b.Records rs es) (hf : 0 ≤ f ∧ f < rs.length)
    (ht : 0 ≤ t ∧ t < rs.length) :
    ∃ b', b.addEdge f t = .ok b' ∧ b'.Records rs (es ++ [(f, t)]) := by
  have hsize := h.size_eq
  have hedge : ∀ (k : Nat) (u v : Int), 0 ≤ u → (((k : Int), v) = (u, t) ↔ u.toNat = k ∧ v = t) := by
    intro k u v hu
    simp only [Prod.mk.injEq]
    omega
  have hedge' : ∀ (k : Nat) (u v : Int), 0 ≤ u → ((v, (k : Int)) = (f, u) ↔ u.toNat = k ∧ v = f) := by
    intro k u v hu
    simp only [Prod.mk.injEq]
    omega
  unfold addEdge
  rw [if_neg (by omega)]
  dsimp only
  have hsrc : b.blocks[f.toNat]? = some (b.blocks.getD f.toNat default) := by
    simp [Array.getElem?_eq_getElem (show f.toNat < b.blocks.size by omega)]
  split
  · -- the edge is already recorded: nothing changes
    rename_i hc
    have hmem : (f, t) ∈ es := by
      have := (h.mem_succs hsrc t).mp (List.contains_iff_mem.mp hc)
      rwa [Int.toNat_of_nonneg hf.1] at this
    refine ⟨b, rfl, h.congr fun e => ?_⟩
    simp only [List.mem_append, List.mem_singleton]
    constructor
    · exact .inl
    · rintro (he | rfl)
      · exact he
      · exact hmem
  · refine ⟨_, rfl, ?_⟩
    constructor
    · simp [hsize]
    · intro k x hx
      obtain ⟨y, hy, h₁, h₂, -, -⟩ := getElem?_modify_modify_eq_some hx
      rw [h₁, h₂]
      exact h.range hy
    · intro k x hx u
      obtain ⟨y, hy, -, -, hs, -⟩ := getElem?_modify_modify_eq_some hx
      rw [hs, List.mem_append, List.mem_singleton, ← h.mem_succs hy u, hedge k f u hf.1]
      split <;> simp_all
    · intro k x hx u
      obtain ⟨y, hy, -, -, -, hp⟩ := getElem?_modify_modify_eq_some hx
      rw [hp, List.mem_append, List.mem_singleton, ← h.mem_preds hy u, hedge' k t u ht.1]
      split <;> simp_all

/-- Adding edges between existing blocks, one by one, records them all. -/
theorem addEdges_eq_ok {new : List (Int × Int)} (h : b.Records rs es)
    (hnew : ∀ e ∈ new, (0 ≤ e.1 ∧ e.1 < rs.length) ∧ (0 ≤ e.2 ∧ e.2 < rs.length)) :
    ∃ b', b.addEdges new = .ok b' ∧ b'.Records rs (es ++ new) := by
  induction new generalizing b es with
  | nil => exact ⟨b, rfl, by simpa using h⟩
  | cons e new ih =>
    obtain ⟨he₁, he₂⟩ := hnew e List.mem_cons_self
    obtain ⟨b₁, hb₁, h₁⟩ := addEdge_eq_ok h he₁ he₂
    obtain ⟨b₂, hb₂, h₂⟩ := ih h₁ fun e' he' => hnew e' (List.mem_cons_of_mem _ he')
    refine ⟨b₂, ?_, by simpa using h₂⟩
    simp only [addEdges, List.foldlM_cons] at hb₂ ⊢
    rw [hb₁]
    exact hb₂

theorem Records.ranges_eq (h : b.Records rs es) :
    b.blocks.toList.map (fun x => (x.start, x.stop)) = rs := by
  apply List.ext_getElem?
  intro k
  rw [List.getElem?_map, Array.getElem?_toList]
  cases hk : b.blocks[k]? with
  | none =>
    have : rs.length ≤ k := h.size_eq ▸ Array.getElem?_eq_none_iff.mp hk
    simp [List.getElem?_eq_none this]
  | some x => exact (h.range hk).symm

section Edges

variable (h : b.Records rs es)
  (hes : ∀ e ∈ es, (0 ≤ e.1 ∧ e.1 < rs.length) ∧ (0 ≤ e.2 ∧ e.2 < rs.length))
include h hes

/-- Every recorded edge leaves an existing block, listed at its index. -/
theorem Records.exists_source {e : Int × Int} (he : e ∈ es) :
    ∃ (k : Nat) (x : RawBlock), b.blocks[k]? = some x ∧ (k : Int) = e.1 := by
  obtain ⟨⟨h₀, hlt⟩, -⟩ := hes e he
  refine ⟨e.1.toNat, _, Array.getElem?_eq_getElem (by rw [h.size_eq]; omega), by omega⟩

theorem Records.exists_target {e : Int × Int} (he : e ∈ es) :
    ∃ (k : Nat) (x : RawBlock), b.blocks[k]? = some x ∧ (k : Int) = e.2 := by
  obtain ⟨-, ⟨h₀, hlt⟩⟩ := hes e he
  refine ⟨e.2.toNat, _, Array.getElem?_eq_getElem (by rw [h.size_eq]; omega), by omega⟩

theorem Records.mem_succEdges {e : Int × Int} :
    e ∈ RawGraph.succEdges b.toRaw.toCfg.indexed ↔ e ∈ es := by
  simp only [RawGraph.succEdges, List.mem_flatMap, List.mem_map]
  constructor
  · rintro ⟨⟨k, x⟩, hx, t, ht, rfl⟩
    exact (h.mem_succs (Cfg.mem_indexed.mp hx) t).mp ht
  · intro he
    obtain ⟨k, x, hx, hk⟩ := h.exists_source hes he
    refine ⟨(k, x), Cfg.mem_indexed.mpr hx, e.2, ?_, by rw [hk]⟩
    rw [h.mem_succs hx, hk]
    exact he

theorem Records.mem_predEdges {e : Int × Int} :
    e ∈ RawGraph.predEdges b.toRaw.toCfg.indexed ↔ e ∈ es := by
  simp only [RawGraph.predEdges, List.mem_flatMap, List.mem_map]
  constructor
  · rintro ⟨⟨k, x⟩, hx, f, hf, rfl⟩
    exact (h.mem_preds (Cfg.mem_indexed.mp hx) f).mp hf
  · intro he
    obtain ⟨k, x, hx, hk⟩ := h.exists_target hes he
    refine ⟨(k, x), Cfg.mem_indexed.mpr hx, e.1, ?_, by rw [hk]⟩
    rw [h.mem_preds hx, hk]
    exact he

theorem Records.ends {x : RawBlock} (hx : x ∈ b.blocks.toList) :
    (∀ t ∈ x.succs, 0 ≤ t ∧ t < b.blocks.size) ∧ (∀ t ∈ x.preds, 0 ≤ t ∧ t < b.blocks.size) := by
  obtain ⟨k, hk⟩ := List.mem_iff_getElem?.mp hx
  rw [Array.getElem?_toList] at hk
  rw [h.size_eq]
  exact ⟨fun t ht => (hes _ ((h.mem_succs hk t).mp ht)).2,
    fun f hf => (hes _ ((h.mem_preds hk f).mp hf)).1⟩

end Edges

/-- A builder whose blocks tile `[0, ni)` and whose recorded edges join existing blocks builds
the graph of its blocks. -/
theorem build_eq_ok {ni : Int} (h : b.Records rs es) (ht : Tiles rs ni)
    (hes : ∀ e ∈ es, (0 ≤ e.1 ∧ e.1 < rs.length) ∧ (0 ≤ e.2 ∧ e.2 < rs.length)) :
    b.build = .ok ⟨b.blocks.map RawGraph.blockOf, ni.toNat⟩ := by
  have hni : b.toRaw.instrCount = ni := by
    rw [← ht.foldl_max, ← h.ranges_eq, List.foldl_map]
    simp [toRaw, Array.foldl_toList]
  have hvalid : b.toRaw.validate = _ := RawGraph.validate_eq_ok_of
    (by rw [hni]; exact h.ranges_eq ▸ ht) (fun x hx => h.ends hes hx)
    (fun e => (h.mem_succEdges hes).trans (h.mem_predEdges hes).symm)
  rw [hni] at hvalid
  exact hvalid

/-! ### The graph built -/

section Built

variable {g : FlowGraph} (h : b.Records rs es) (hv : b.toRaw.validate = .ok g)
include h hv

theorem Records.blockCount_eq : g.blockCount = rs.length := by
  rw [Cfg.blockCount_of_validate hv]
  exact h.size_eq

theorem Records.mem_indexed {k : Nat} (hk : k < g.blockCount) :
    ∃ x, b.blocks[k]? = some x ∧ (k, x) ∈ b.toRaw.toCfg.indexed := by
  have hlt : k < b.blocks.size := h.size_eq ▸ h.blockCount_eq hv ▸ hk
  exact ⟨_, Array.getElem?_eq_getElem hlt, Cfg.mem_indexed.mpr (Array.getElem?_eq_getElem hlt)⟩

/-- Block `k` of the built graph owns the `k`-th range. -/
theorem Records.block_range {k : Nat} {r : Int × Int} (hk : rs[k]? = some r) :
    ((g.block k).start : Int) = r.1 ∧ ((g.block k).stop : Int) = r.2 := by
  have hlt : k < g.blockCount := h.blockCount_eq hv ▸ (List.getElem?_eq_some_iff.mp hk).1
  obtain ⟨x, hx, hidx⟩ := h.mem_indexed hv hlt
  have hr := h.range hx
  rw [hk, Option.some.injEq] at hr
  obtain ⟨h0, hle, -⟩ := Cfg.bounds_of_validate hv hidx
  rw [Cfg.block_eq_of_indexed hv hidx, hr]
  simp only [RawGraph.blockOf]
  omega

/-- The successors of a built block are the targets of its recorded edges. -/
theorem Records.mem_succs_iff {k c : Nat} (hk : k < g.blockCount) :
    c ∈ g.succs k ↔ ((k : Int), (c : Int)) ∈ es := by
  obtain ⟨x, hx, hidx⟩ := h.mem_indexed hv hk
  rw [Cfg.mem_succs_of_validate hv hidx, h.mem_succs hx]

end Built

end GraphBuilder

end RegisterLiveness
