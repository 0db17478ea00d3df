import RegisterLiveness.Proofs.Cutting
import RegisterLiveness.Proofs.Faults

/-!
# Assembling a graph call by call

A caller builds a graph with any sequence of calls: blocks appended with their ranges, and edges
added between blocks that exist at that point. `GraphBuilder.Assembled b es` says that the builder
`b` comes out of such a sequence, in which the edges `es` were added in this order. An edge
naming a block that does not exist aborts, with a fixed message, before anything is recorded
(`addEdge_eq_error_iff`).

Every such builder keeps its edge lists exact (`Keeps`): each block lists the far ends of the
edges added from it and to it, each once and in the order first added, so successor and
predecessor lists mirror each other and record exactly the edges added. The step lemmas
`Keeps.addBlock` and `Keeps.addEdge` carry this through every call.

Building covers the instructions up to the largest block end, and never less than none. Since
the edges always pass the checks, the check of the built graph fails exactly when the ranges do
not partition those instructions, and then with a fault of the ranges (`Keeps.build_eq_ok_iff`).
-/

namespace RegisterLiveness

namespace GraphBuilder

/-- The builders a sequence of calls makes from the empty builder, with the edges added so far in
the order added: blocks appended, and edges added between blocks that exist. -/
inductive Assembled : GraphBuilder → List (Int × Int) → Prop
  | empty : Assembled {} []
  | block {b : GraphBuilder} {es : List (Int × Int)} (start stop : Int) :
      Assembled b es → Assembled (b.addBlock start stop) es
  | edge {b b' : GraphBuilder} {es : List (Int × Int)} {f t : Int} :
      Assembled b es → b.addEdge f t = .ok b' → Assembled b' (es ++ [(f, t)])

/-- Both ends of the edge name one of the first `nb` blocks. -/
def EdgeIn (nb : Nat) (e : Int × Int) : Prop := 0 ≤ e.1 ∧ e.1 < nb ∧ 0 ≤ e.2 ∧ e.2 < nb

/-! ### One call -/

variable {b b' : GraphBuilder} {es : List (Int × Int)} {f t : Int}

/-- Adding an edge aborts exactly when one of its ends names no block. -/
theorem addEdge_eq_error_iff {a : Abort} :
    b.addEdge f t = .error a ↔
      ¬ EdgeIn b.blocks.size (f, t) ∧ a = .message "flowgraph: edge between non-existing blocks" := by
  unfold addEdge EdgeIn
  dsimp only
  split
  · rename_i hout
    simp only [Except.error.injEq]
    constructor
    · rintro rfl
      exact ⟨by omega, rfl⟩
    · rintro ⟨-, rfl⟩
      rfl
  · rename_i hin
    constructor
    · intro h
      split at h <;> cases h
    · rintro ⟨hout, -⟩
      omega

/-- An edge that is recorded joins existing blocks, and keeps the number of blocks. -/
theorem edgeIn_of_addEdge (h : b.addEdge f t = .ok b') :
    EdgeIn b.blocks.size (f, t) ∧ b'.blocks.size = b.blocks.size := by
  unfold addEdge at h
  dsimp only at h
  split at h
  · cases h
  · rename_i hin
    refine ⟨by simp only [EdgeIn]; omega, ?_⟩
    split at h
    · cases h
      rfl
    · cases h
      simp

/-- A block of the builder after appending is one of those before, or the new one, without
edges. -/
theorem getElem?_addBlock_eq_some {start stop : Int} {k : Nat} {x : RawBlock}
    (hx : (b.addBlock start stop).blocks[k]? = some x) :
    b.blocks[k]? = some x ∨ k = b.blocks.size ∧ x = ⟨start, stop, [], []⟩ := by
  simp only [addBlock, Array.getElem?_push] at hx
  split at hx
  · exact .inr ⟨‹_›, (Option.some.inj hx).symm⟩
  · exact .inl hx

/-- No edge leaves a block that no edge names. -/
theorem ends_eq_nil {es : List (Int × Int)} {k : Int} (h : ∀ e ∈ es, e.1 ≠ k) : ends es k = [] := by
  have hfilter : es.filter (·.1 = k) = [] := by
    rw [List.filter_eq_nil_iff]
    intro e he
    simpa using h e he
  simp [ends, hfilter]

/-! ### What every sequence of calls keeps -/

/-- What a builder made by calls keeps: its edge lists are exactly those of the edges added, and
each edge added joins existing blocks. -/
structure Keeps (b : GraphBuilder) (es : List (Int × Int)) : Prop where
  lists : b.Lists es
  edgeIn : ∀ e ∈ es, EdgeIn b.blocks.size e

theorem keeps_empty : Keeps {} [] where
  lists := by simpa [addBlocks] using lists_addBlocks []
  edgeIn := by simp

/-- No edge added so far names a block past the last one, so such a block has no far ends. -/
theorem Keeps.ends_size (h : b.Keeps es) :
    ends es b.blocks.size = [] ∧ ends (es.map Prod.swap) b.blocks.size = [] := by
  refine ⟨ends_eq_nil fun e he hek => ?_, ends_eq_nil fun e he hek => ?_⟩
  · have := (h.edgeIn e he).2.1
    omega
  · obtain ⟨u, hu, rfl⟩ := List.mem_map.mp he
    have := (h.edgeIn u hu).2.2.2
    simp only [Prod.fst_swap] at hek
    omega

/-- Appending a block keeps the lists exact: the new block has no edges, and none is named. -/
theorem Keeps.addBlock (h : b.Keeps es) (start stop : Int) : (b.addBlock start stop).Keeps es where
  lists := by
    refine ⟨fun {k x} hx => ?_, fun {k x} hx => ?_⟩
    · rcases getElem?_addBlock_eq_some hx with hx | ⟨rfl, rfl⟩
      · exact h.lists.succs hx
      · exact h.ends_size.1.symm
    · rcases getElem?_addBlock_eq_some hx with hx | ⟨rfl, rfl⟩
      · exact h.lists.preds hx
      · exact h.ends_size.2.symm
  edgeIn e he := by
    obtain ⟨h₀, h₁, h₂, h₃⟩ := h.edgeIn e he
    simp only [GraphBuilder.addBlock, Array.size_push]
    exact ⟨h₀, by omega, h₂, by omega⟩

/-- Recording an edge keeps the lists exact, whether or not the edge was there. -/
theorem Keeps.addEdge (h : b.Keeps es) (hb : b.addEdge f t = .ok b') : b'.Keeps (es ++ [(f, t)]) where
  lists := h.lists.addEdge hb
  edgeIn e he := by
    obtain ⟨hin, hsize⟩ := edgeIn_of_addEdge hb
    rw [hsize]
    rcases List.mem_append.mp he with he | he
    · exact h.edgeIn e he
    · rw [List.mem_singleton.mp he]
      exact hin

/-- Every builder made by calls keeps its lists exact. -/
theorem Assembled.keeps (h : b.Assembled es) : b.Keeps es := by
  induction h with
  | empty => exact keeps_empty
  | block start stop _ ih => exact ih.addBlock start stop
  | edge _ hb ih => exact ih.addEdge hb

/-! ### The lists of a builder that keeps them -/

section Kept

variable (h : b.Keeps es)
include h

/-- Each list names each block once. -/
theorem Keeps.nodup {k : Nat} {x : RawBlock} (hx : b.blocks[k]? = some x) :
    x.succs.Nodup ∧ x.preds.Nodup := by
  rw [h.lists.succs hx, h.lists.preds hx]
  exact ⟨nodup_eraseDups _, nodup_eraseDups _⟩

/-- A block lists a successor exactly for the edges added from it. -/
theorem Keeps.succEdge_iff {u v : Int} : b.toRaw.SuccEdge u v ↔ (u, v) ∈ es := by
  constructor
  · rintro ⟨k, x, hx, rfl, hv⟩
    rwa [h.lists.succs hx, mem_ends] at hv
  · intro he
    obtain ⟨hu, hlt, -⟩ := h.edgeIn _ he
    have hk : u.toNat < b.blocks.size := by omega
    refine ⟨u.toNat, b.blocks[u.toNat], Array.getElem?_eq_getElem hk, by omega, ?_⟩
    rw [h.lists.succs (Array.getElem?_eq_getElem hk), mem_ends, Int.toNat_of_nonneg hu]
    exact he

/-- A block lists a predecessor exactly for the edges added to it. -/
theorem Keeps.predEdge_iff {u v : Int} : b.toRaw.PredEdge u v ↔ (u, v) ∈ es := by
  constructor
  · rintro ⟨k, x, hx, rfl, hu⟩
    rw [h.lists.preds hx, mem_ends] at hu
    simpa using hu
  · intro he
    obtain ⟨-, -, hv, hlt⟩ := h.edgeIn _ he
    have hk : v.toNat < b.blocks.size := by omega
    refine ⟨v.toNat, b.blocks[v.toNat], Array.getElem?_eq_getElem hk, by omega, ?_⟩
    rw [h.lists.preds (Array.getElem?_eq_getElem hk), mem_ends, Int.toNat_of_nonneg hv]
    simpa using he

/-- Every listed end names an existing block. -/
theorem Keeps.endsIn {x : RawBlock} (hx : x ∈ b.blocks) : x.EndsIn b.blocks.size := by
  obtain ⟨k, hk⟩ := Array.mem_iff_getElem?.mp hx
  intro s hs
  rcases List.mem_append.mp hs with hs | hs
  · rw [h.lists.succs hk, mem_ends] at hs
    obtain ⟨-, -, h₂, h₃⟩ := h.edgeIn _ hs
    exact ⟨h₂, h₃⟩
  · rw [h.lists.preds hk, mem_ends] at hs
    obtain ⟨h₀, h₁, -, -⟩ := h.edgeIn _ (by simpa using hs)
    exact ⟨h₀, h₁⟩

/-- The edges always pass the checks, so the graph is well formed exactly when its ranges
partition its instructions. -/
theorem Keeps.wellFormed_iff : b.toRaw.WellFormed ↔ b.toRaw.Partition := by
  refine ⟨fun hw => hw.toPartition, fun hp => ⟨hp, fun x hx => h.endsIn hx, fun u v => ?_⟩⟩
  exact h.succEdge_iff.trans h.predEdge_iff.symm

/-- The check of the built graph passes exactly when the ranges partition the instructions. -/
theorem Keeps.build_eq_ok_iff : (∃ g, b.build = .ok g) ↔ b.toRaw.Partition :=
  Cfg.validate_eq_ok_iff.trans h.wellFormed_iff

/-- A failed build reports the first fault of the graph, and the ranges are at fault. -/
theorem Keeps.fault_of_build_eq_error {e : Error} (he : b.build = .error e) :
    b.toRaw.Fault e ∧ ¬ b.toRaw.Partition := by
  refine ⟨Cfg.fault_of_validate_eq_error he, fun hp => ?_⟩
  obtain ⟨g, hg⟩ := h.build_eq_ok_iff.mpr hp
  rw [he] at hg
  cases hg

end Kept

/-! ### The instructions built -/

/-- The running maximum of the block ends, from `m`, is `m` or one of the ends, and bounds them. -/
theorem foldl_max_stop (l : List RawBlock) (m : Int) :
    m ≤ l.foldl (fun m x => max m x.stop) m ∧
      (∀ x ∈ l, x.stop ≤ l.foldl (fun m x => max m x.stop) m) ∧
      (l.foldl (fun m x => max m x.stop) m = m ∨
        ∃ x ∈ l, x.stop = l.foldl (fun m x => max m x.stop) m) := by
  induction l generalizing m with
  | nil => simp
  | cons x l ih =>
    obtain ⟨h₁, h₂, h₃⟩ := ih (max m x.stop)
    simp only [List.foldl_cons]
    refine ⟨by omega, fun y hy => ?_, ?_⟩
    · rcases List.mem_cons.mp hy with rfl | hy
      · omega
      · exact h₂ y hy
    · rcases h₃ with h | ⟨y, hy, hye⟩
      · -- nothing after `x` raised the maximum: it is `m`, or `x` raised it
        by_cases hx : x.stop ≤ m
        · exact .inl (by omega)
        · exact .inr ⟨x, List.mem_cons_self, by omega⟩
      · exact .inr ⟨y, List.mem_cons_of_mem _ hy, hye⟩

/-- The built graph covers the instructions up to the largest block end, and none when there is
no block or every end is negative. -/
theorem toRaw_instrCount (b : GraphBuilder) :
    0 ≤ b.toRaw.instrCount ∧ (∀ x ∈ b.blocks, x.stop ≤ b.toRaw.instrCount) ∧
      (b.toRaw.instrCount = 0 ∨ ∃ x ∈ b.blocks, x.stop = b.toRaw.instrCount) := by
  obtain ⟨h₀, hle, hex⟩ := foldl_max_stop b.blocks.toList 0
  rw [Array.foldl_toList] at h₀ hle hex
  simp only [Array.mem_toList_iff] at hle hex
  exact ⟨h₀, hle, hex⟩

/-- A graph assembled call by call. After any sequence of calls that added the edges `es`, in this
order, between existing blocks: every block lists the far ends of the edges added from it and to
it, in the order first added and each once, so its successor and predecessor lists mirror each
other and record exactly the edges added; an edge with an end that names no block aborts with its
message. Building covers the instructions up to the largest block end, or none, and its check
fails exactly when the ranges do not partition those instructions, with a fault of the ranges and
never of the edges. -/
theorem Assembled.lists_mirror_and_build_checks_ranges (h : b.Assembled es) :
    (∀ (k : Nat) (x : RawBlock), b.blocks[k]? = some x →
      x.succs = ends es k ∧ x.preds = ends (es.map Prod.swap) k ∧ x.succs.Nodup ∧ x.preds.Nodup) ∧
    (∀ u v : Int, (b.toRaw.SuccEdge u v ↔ (u, v) ∈ es) ∧ (b.toRaw.PredEdge u v ↔ (u, v) ∈ es)) ∧
    (∀ (f t : Int) (a : Abort), b.addEdge f t = .error a ↔
      ¬ EdgeIn b.blocks.size (f, t) ∧ a = .message "flowgraph: edge between non-existing blocks") ∧
    (0 ≤ b.toRaw.instrCount ∧ (∀ x ∈ b.blocks, x.stop ≤ b.toRaw.instrCount) ∧
      (b.toRaw.instrCount = 0 ∨ ∃ x ∈ b.blocks, x.stop = b.toRaw.instrCount)) ∧
    ((∃ g, b.build = .ok g) ↔ b.toRaw.Partition) ∧
    ∀ e, b.build = .error e → b.toRaw.Fault e ∧ ¬ b.toRaw.Partition := by
  have hk := h.keeps
  refine ⟨fun k x hx => ⟨hk.lists.succs hx, hk.lists.preds hx, hk.nodup hx⟩,
    fun u v => ⟨hk.succEdge_iff, hk.predEdge_iff⟩, fun f t a => addEdge_eq_error_iff,
    toRaw_instrCount b, hk.build_eq_ok_iff, fun e he => hk.fault_of_build_eq_error he⟩

end GraphBuilder

/-- Two blocks, with the edge between them added twice. -/
def twiceLinked : GraphBuilder := ⟨#[⟨0, 1, [1], []⟩, ⟨1, 2, [], [0]⟩]⟩

theorem lists_mirror_and_build_checks_ranges_twiceLinked :
    twiceLinked.Assembled [(0, 1), (0, 1)] ∧
    (∀ (k : Nat) (x : RawBlock), twiceLinked.blocks[k]? = some x →
      x.succs = GraphBuilder.ends [(0, 1), (0, 1)] k ∧
      x.preds = GraphBuilder.ends ([(0, 1), (0, 1)].map Prod.swap) k ∧
      x.succs.Nodup ∧ x.preds.Nodup) ∧
    (∀ u v : Int, (twiceLinked.toRaw.SuccEdge u v ↔ (u, v) ∈ [(0, 1), (0, 1)]) ∧
      (twiceLinked.toRaw.PredEdge u v ↔ (u, v) ∈ [(0, 1), (0, 1)])) ∧
    (∀ (f t : Int) (a : Abort), twiceLinked.addEdge f t = .error a ↔
      ¬ GraphBuilder.EdgeIn twiceLinked.blocks.size (f, t) ∧
        a = .message "flowgraph: edge between non-existing blocks") ∧
    (0 ≤ twiceLinked.toRaw.instrCount ∧
      (∀ x ∈ twiceLinked.blocks, x.stop ≤ twiceLinked.toRaw.instrCount) ∧
      (twiceLinked.toRaw.instrCount = 0 ∨
        ∃ x ∈ twiceLinked.blocks, x.stop = twiceLinked.toRaw.instrCount)) ∧
    ((∃ g, twiceLinked.build = .ok g) ↔ twiceLinked.toRaw.Partition) ∧
    ∀ e, twiceLinked.build = .error e → twiceLinked.toRaw.Fault e ∧ ¬ twiceLinked.toRaw.Partition := by
  have h : twiceLinked.Assembled [(0, 1), (0, 1)] :=
    .edge (.edge ((GraphBuilder.Assembled.empty.block 0 1).block 1 2) rfl) rfl
  exact ⟨h, GraphBuilder.Assembled.lists_mirror_and_build_checks_ranges h⟩

end RegisterLiveness
