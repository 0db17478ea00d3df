import Mathlib.Data.List.Sort
import RegisterLiveness.Proofs.Blocks

/-!
# The exact cut of a program into blocks

`Program.toGraph` refuses a program exactly when one of its branch targets lies outside it, and
then with an error about the graph naming that branch and target (`toGraph_eq_error_iff`).

Otherwise the graph is determined by the program and the pins alone (`Program.CutAt`): its blocks
start at the leaders, by increasing offset, and each runs to the next leader or to the end of the
program. Its edge lists come out exactly as the last instruction of each block lists its exits.
The builder records an edge once, at the end of both lists, however often it is added;
`GraphBuilder.Lists` says that its lists are then the far ends of the edges added so far, in
order, each once (`Lists.addEdges`). So the successors of a block are the blocks at its exits in
the order they are listed, and since the edges are added block by block, every block lists its
predecessors by increasing number.
-/

namespace RegisterLiveness

/-! ### Refusal -/

/-- A failing loop of checks fails at one of them, with its error. -/
theorem forM_eq_error {ε α : Type} {l : List α} {f : α → Except ε Unit} {e : ε}
    (h : l.forM f = .error e) : ∃ x ∈ l, f x = .error e := by
  induction l with
  | nil => cases h
  | cons x l ih =>
    change (f x >>= fun _ => l.forM f) = _ at h
    cases hx : f x with
    | error e' =>
      rw [hx] at h
      exact ⟨x, List.mem_cons_self, by rw [hx]; exact h⟩
    | ok u =>
      rw [hx] at h
      obtain ⟨y, hy, hfy⟩ := ih h
      exact ⟨y, List.mem_cons_of_mem _ hy, hfy⟩

theorem forM_eq_ok_iff {ε α : Type} {l : List α} {f : α → Except ε Unit} :
    l.forM f = .ok () ↔ ∀ x ∈ l, f x = .ok () := by
  refine ⟨fun h x hx => ?_, Program.forM_eq_ok_of⟩
  cases hfx : f x with
  | ok u => rfl
  | error e =>
    -- a failing check makes the loop fail
    induction l with
    | nil => exact absurd hx List.not_mem_nil
    | cons y l ih =>
      change (f y >>= fun _ => l.forM f) = _ at h
      rcases List.mem_cons.mp hx with rfl | hx
      · rw [hfx] at h
        cases h
      · cases hy : f y with
        | error e' => rw [hy] at h; cases h
        | ok v =>
          rw [hy] at h
          exact ih h hx

namespace Program

variable {p : Program}

/-- A refused target check names a branch whose target lies outside the program. -/
theorem checkTargets_eq_error {e : Error} (h : p.checkTargets = .error e) :
    ∃ (pc : Nat) (i : Instr) (t : Int), p.instrs[pc]? = some i ∧ t ∈ i.targets ∧
      ¬ (0 ≤ t ∧ t < p.size) ∧ e = .graph s!"branch at {pc} targets {t}, which is not within [0, {p.size})" := by
  obtain ⟨⟨i, pc⟩, hx, hi⟩ := forM_eq_error h
  obtain ⟨t, ht, hfail⟩ := forM_eq_error hi
  rw [List.mem_zipIdx_iff_getElem?, Array.getElem?_toList] at hx
  by_cases hin : 0 ≤ t ∧ t < p.size
  · rw [if_pos hin] at hfail
    cases hfail
  · rw [if_neg hin] at hfail
    exact ⟨pc, i, t, hx, ht, hin, (Except.error.inj hfail).symm⟩

theorem checkTargets_eq_ok_iff : p.checkTargets = .ok () ↔ p.TargetsIn := by
  refine ⟨fun h pc i hi t ht => ?_, checkTargets_eq_ok⟩
  have hpc : ((i, pc) : Instr × Nat) ∈ p.instrs.toList.zipIdx := by
    rw [List.mem_zipIdx_iff_getElem?, Array.getElem?_toList]
    exact hi
  have hcheck := forM_eq_ok_iff.mp (forM_eq_ok_iff.mp h _ hpc) t ht
  by_contra hout
  rw [if_neg hout] at hcheck
  cases hcheck

/-- Cutting fails exactly when the target check does, with its error. -/
theorem toGraph_eq_error_iff {pins : List Int} {f : Failure} :
    p.toGraph pins = .error f ↔ ∃ e, p.checkTargets = .error e ∧ f = .error e := by
  constructor
  · intro h
    cases hc : p.checkTargets with
    | ok u =>
      -- the check passed, so every target is in the program and cutting succeeds
      obtain ⟨g, hg, -⟩ := toGraph_eq_ok (checkTargets_eq_ok_iff.mp hc) pins
      rw [hg] at h
      cases h
    | error e =>
      refine ⟨e, rfl, ?_⟩
      simp only [toGraph, hc, Failure.ofError, bind, Except.bind] at h
      exact (Except.error.inj h).symm
  · rintro ⟨e, hc, rfl⟩
    simp [toGraph, hc, Failure.ofError, bind, Except.bind]

end Program

/-! ### The builder's lists -/

theorem eraseDups_concat {α : Type} [BEq α] [LawfulBEq α] (l : List α) (a : α) :
    (l ++ [a]).eraseDups = if a ∈ l then l.eraseDups else l.eraseDups ++ [a] := by
  rw [List.eraseDups_append]
  split <;> simp [List.removeAll, List.eraseDups_cons, *]

theorem eraseDups_sublist {α : Type} [BEq α] : ∀ l : List α, l.eraseDups.Sublist l
  | [] => List.Sublist.slnil
  | a :: as => by
    rw [List.eraseDups_cons]
    exact ((eraseDups_sublist _).trans List.filter_sublist).cons_cons a
termination_by l => l.length
decreasing_by exact Nat.lt_succ_of_le (List.length_filter_le _ _)

/-- Removing repeats commutes with a map that is one-to-one on the list. -/
theorem eraseDups_map {α β : Type} [BEq α] [LawfulBEq α] [BEq β] [LawfulBEq β] {f : α → β}
    {l : List α} (hinj : ∀ x ∈ l, ∀ y ∈ l, f x = f y → x = y) :
    (l.map f).eraseDups = l.eraseDups.map f := by
  induction l using List.reverseRecOn with
  | nil => rfl
  | append_singleton l a ih =>
    have hl : ∀ x ∈ l, ∀ y ∈ l, f x = f y → x = y := fun x hx y hy =>
      hinj x (List.mem_append_left _ hx) y (List.mem_append_left _ hy)
    have hmem : f a ∈ l.map f ↔ a ∈ l := by
      refine ⟨fun h => ?_, List.mem_map_of_mem⟩
      obtain ⟨x, hx, hfx⟩ := List.mem_map.mp h
      rwa [← hinj x (List.mem_append_left _ hx) a (by simp) hfx]
    rw [List.map_append, List.map_singleton, eraseDups_concat, eraseDups_concat, ih hl]
    by_cases ha : a ∈ l <;> simp [ha, hmem]

namespace GraphBuilder

/-- The far ends of the edges of `es` that leave `k`, in the order the edges come, each once. -/
def ends (es : List (Int × Int)) (k : Int) : List Int :=
  ((es.filter (·.1 = k)).map Prod.snd).eraseDups

theorem mem_ends {es : List (Int × Int)} {k t : Int} : t ∈ ends es k ↔ (k, t) ∈ es := by
  simp [ends, List.mem_eraseDups]

/-- An edge added gives its source one more far end, unless it was there already. -/
theorem ends_concat (es : List (Int × Int)) (f t k : Int) :
    ends (es ++ [(f, t)]) k = if f = k ∧ (f, t) ∉ es then ends es k ++ [t] else ends es k := by
  unfold ends
  rw [List.filter_append, List.map_append]
  by_cases hfk : f = k
  · subst hfk
    have hmem : t ∈ (es.filter (·.1 = f)).map Prod.snd ↔ (f, t) ∈ es := by simp
    simp only [List.filter_cons, decide_true, if_true, List.filter_nil, List.map_singleton,
      eraseDups_concat, hmem, true_and]
    by_cases ht : (f, t) ∈ es <;> simp [ht]
  · simp [hfk]

/-- The builder's edge lists are exactly those of the edges `es`: every block lists the far ends
of the edges leaving it and of those entering it, in the order added, each once. -/
structure Lists (b : GraphBuilder) (es : List (Int × Int)) : Prop where
  succs : ∀ {k : Nat} {x : RawBlock}, b.blocks[k]? = some x → x.succs = ends es k
  preds : ∀ {k : Nat} {x : RawBlock}, b.blocks[k]? = some x →
    x.preds = ends (es.map Prod.swap) k

theorem lists_addBlocks (rs : List (Int × Int)) : ({} : GraphBuilder).addBlocks rs |>.Lists [] where
  succs {k x} hx := by
    simp only [addBlocks_blocks, List.getElem?_toArray, Array.empty_append,
      List.getElem?_map, Option.map_eq_some_iff] at hx
    obtain ⟨r, -, rfl⟩ := hx
    rfl
  preds {k x} hx := by
    simp only [addBlocks_blocks, List.getElem?_toArray, Array.empty_append,
      List.getElem?_map, Option.map_eq_some_iff] at hx
    obtain ⟨r, -, rfl⟩ := hx
    rfl

/-- Adding an edge keeps the lists exact, whether the edge is new or not. -/
theorem Lists.addEdge {b b' : GraphBuilder} {es : List (Int × Int)} {f t : Int} (h : b.Lists es)
    (hb : b.addEdge f t = .ok b') : b'.Lists (es ++ [(f, t)]) := by
  have hswap : (es ++ [(f, t)]).map Prod.swap = es.map Prod.swap ++ [(t, f)] := by simp
  unfold GraphBuilder.addEdge at hb
  dsimp only at hb
  split at hb
  · cases hb
  · rename_i hrange
    have hf : 0 ≤ f := by omega
    have ht : 0 ≤ t := by omega
    have hsrc : b.blocks[f.toNat]? = some (b.blocks.getD f.toNat default) := by
      simp [Array.getElem?_eq_getElem (show f.toNat < b.blocks.size by omega)]
    have hrecorded : (b.blocks.getD f.toNat default).succs.contains t ↔ (f, t) ∈ es := by
      rw [List.contains_iff_mem, h.succs hsrc, mem_ends, Int.toNat_of_nonneg hf]
    split at hb
    · -- already recorded: the builder is unchanged, and so are the lists
      rename_i hc
      cases hb
      have hmem := hrecorded.mp hc
      refine ⟨fun hx => ?_, fun hx => ?_⟩
      · rw [ends_concat, if_neg fun h' => h'.2 hmem]
        exact h.succs hx
      · rw [hswap, ends_concat, if_neg fun h' => h'.2 ((List.mem_map_swap _ _ _).mpr hmem)]
        exact h.preds hx
    · rename_i hc
      cases hb
      have hnew : (f, t) ∉ es := fun hmem => hc (hrecorded.mpr hmem)
      refine ⟨fun {k x} hx => ?_, fun {k x} hx => ?_⟩
      · obtain ⟨y, hy, -, -, hs, -⟩ := getElem?_modify_modify_eq_some hx
        rw [hs, h.succs hy, ends_concat]
        by_cases hk : f.toNat = k
        · rw [if_pos hk, if_pos ⟨by omega, hnew⟩]
        · rw [if_neg hk, if_neg fun h' => hk (by omega)]
      · obtain ⟨y, hy, -, -, -, hp⟩ := getElem?_modify_modify_eq_some hx
        rw [hp, h.preds hy, hswap, ends_concat]
        by_cases hk : t.toNat = k
        · rw [if_pos hk, if_pos ⟨by omega, fun hmem => hnew ((List.mem_map_swap _ _ _).mp hmem)⟩]
        · rw [if_neg hk, if_neg fun h' => hk (by omega)]

/-- Adding edges one by one keeps the lists exact. -/
theorem Lists.addEdges {b b' : GraphBuilder} {es new : List (Int × Int)} (h : b.Lists es)
    (hb : b.addEdges new = .ok b') : b'.Lists (es ++ new) := by
  induction new generalizing b es with
  | nil =>
    cases hb
    simpa using h
  | cons e new ih =>
    simp only [GraphBuilder.addEdges, List.foldlM_cons] at hb
    cases h₁ : b.addEdge e.1 e.2 with
    | error a =>
      rw [h₁] at hb
      cases hb
    | ok b₁ =>
      rw [h₁] at hb
      simpa using ih (h.addEdge h₁) hb

end GraphBuilder

/-- The edge lists of `g` are exactly those of the edges `es`: every block lists the far ends of
the edges leaving it and of those entering it, in the order of `es`, each once. -/
def FlowGraph.Listed (g : FlowGraph) (es : List (Int × Int)) : Prop :=
  ∀ k < g.blockCount, g.succs k = (GraphBuilder.ends es k).map Int.toNat ∧
    g.preds k = (GraphBuilder.ends (es.map Prod.swap) k).map Int.toNat

/-- A graph checked from a builder with exact lists has them as its own. -/
theorem GraphBuilder.Lists.listed {b : GraphBuilder} {es : List (Int × Int)} {g : FlowGraph}
    (h : b.Lists es) (hv : b.toRaw.validate = .ok g) : g.Listed es := by
  intro k hk
  have hlt : k < b.blocks.size := by
    rw [Cfg.blockCount_of_validate hv] at hk
    exact hk
  have hx : b.blocks[k]? = some b.blocks[k] := Array.getElem?_eq_getElem hlt
  have hblock := Cfg.block_eq_of_indexed hv (Cfg.mem_indexed.mpr hx)
  simp [FlowGraph.succs, FlowGraph.preds, hblock, RawGraph.blockOf, h.succs hx, h.preds hx]

/-! ### Edges, block by block -/

namespace Instr

/-- Where control may go after `i` when it ends a block that stops at `e`, in a program of `n`
instructions: its targets in order, then `e` when it falls through and the program goes on. -/
def exits (i : Instr) (e n : Nat) : List Nat :=
  i.targets.map Int.toNat ++ if i.fallsThrough ∧ e < n then [e] else []

end Instr

namespace Program

variable {p : Program}

theorem map_snd_exitEdges (ls : List Nat) (k e : Nat) :
    (p.exitEdges ls k e).map Prod.snd =
      ((p.instrs.getD (e - 1) default).exits e p.size).map (blockAt ls) := by
  unfold exitEdges Instr.exits
  dsimp only
  simp only [Bool.and_eq_true, decide_eq_true_eq, List.map_append, List.map_map]
  by_cases hc : (p.instrs.getD (e - 1) default).fallsThrough ∧ e < p.size
  · rw [if_pos hc, if_pos hc]
    rfl
  · rw [if_neg hc, if_neg hc]
    rfl

/-- Edges listed block by block from number `n` on leave blocks numbered `n` or above. -/
theorem le_of_mem_flatMap_exitEdges (ls : List Nat) {l : List (Nat × Nat)} {n : Nat}
    {e : Int × Int} (he : e ∈ (l.zipIdx n).flatMap fun y => p.exitEdges ls y.2 y.1.2) :
    (n : Int) ≤ e.1 := by
  obtain ⟨y, hy, he⟩ := List.mem_flatMap.mp he
  rw [(mem_exitEdges.mp he).1]
  exact_mod_cast List.le_snd_of_mem_zipIdx hy

/-- Of the edges listed block by block, those leaving the block at position `k` are its exit
edges. -/
theorem filter_flatMap_exitEdges (ls : List Nat) {l : List (Nat × Nat)} (n : Nat) {k : Nat}
    {x : Nat × Nat} (hk : l[k]? = some x) :
    ((l.zipIdx n).flatMap fun y => p.exitEdges ls y.2 y.1.2).filter
      (·.1 = ((n + k : Nat) : Int)) = p.exitEdges ls (n + k) x.2 := by
  induction l generalizing n k with
  | nil => simp at hk
  | cons y l ih =>
    rw [List.zipIdx_cons, List.flatMap_cons, List.filter_append]
    cases k with
    | zero =>
      rw [List.getElem?_cons_zero, Option.some.injEq] at hk
      subst hk
      -- the block's own edges all pass, and no later one does
      have hown : ∀ e ∈ p.exitEdges ls n y.2, decide (e.1 = ((n + 0 : Nat) : Int)) = true := by
        intro e he
        simp [(mem_exitEdges.mp he).1]
      have hlater : ∀ e ∈ (l.zipIdx (n + 1)).flatMap (fun y => p.exitEdges ls y.2 y.1.2),
          ¬ decide (e.1 = ((n + 0 : Nat) : Int)) = true := by
        intro e he
        have := le_of_mem_flatMap_exitEdges ls he
        simp only [decide_eq_true_eq]
        omega
      rw [List.filter_eq_self.mpr hown, List.filter_eq_nil_iff.mpr hlater, List.append_nil]
      rfl
    | succ k =>
      have hfirst : ∀ e ∈ p.exitEdges ls n y.2,
          ¬ decide (e.1 = ((n + (k + 1) : Nat) : Int)) = true := by
        intro e he
        simp only [(mem_exitEdges.mp he).1, decide_eq_true_eq]
        omega
      rw [List.filter_eq_nil_iff.mpr hfirst, List.nil_append,
        show n + (k + 1) = n + 1 + k by omega]
      exact ih (n + 1) hk

theorem pairwise_flatMap_exitEdges (ls : List Nat) (l : List (Nat × Nat)) (n : Nat) :
    ((l.zipIdx n).flatMap fun y => p.exitEdges ls y.2 y.1.2).Pairwise (fun e e' => e.1 ≤ e'.1) := by
  induction l generalizing n with
  | nil => exact List.Pairwise.nil
  | cons y l ih =>
    rw [List.zipIdx_cons, List.flatMap_cons, List.pairwise_append]
    refine ⟨?_, ih (n + 1), fun e he e' he' => ?_⟩
    · -- all the edges of one block leave it
      refine List.pairwise_of_forall_mem_list fun e he e' he' => ?_
      rw [(mem_exitEdges.mp he).1, (mem_exitEdges.mp he').1]
    · have := le_of_mem_flatMap_exitEdges ls he'
      rw [(mem_exitEdges.mp he).1]
      omega

/-- The edges come by nondecreasing source. -/
theorem edges_sorted (ls : List Nat) : (p.edges ls).Pairwise (fun e e' => e.1 ≤ e'.1) :=
  pairwise_flatMap_exitEdges ls (p.spans ls) 0

/-- The edges leaving block `k` are its exit edges. -/
theorem filter_edges {ls : List Nat} {k s e : Nat} (hk : (p.spans ls)[k]? = some (s, e)) :
    (p.edges ls).filter (·.1 = (k : Int)) = p.exitEdges ls k e := by
  have := filter_flatMap_exitEdges (p := p) ls 0 hk
  rwa [Nat.zero_add] at this

/-- Distinct leaders start distinct blocks. -/
theorem blockAt_inj {ls : List Nat} (hnd : ls.Nodup) {x y : Nat} (hx : x ∈ ls) (hy : y ∈ ls)
    (h : blockAt ls x = blockAt ls y) : x = y := by
  obtain ⟨j, hj, hbj⟩ := exists_blockAt hnd hx
  obtain ⟨j', hj', hbj'⟩ := exists_blockAt hnd hy
  have hjj : j = j' := by omega
  subst hjj
  rw [hj] at hj'
  exact Option.some.inj hj'

/-- Every exit of a block's last instruction is a leader. -/
theorem mem_leaders_of_exit (ht : p.TargetsIn) (pins : List Int) {k s e x : Nat}
    (hk : (p.spans (p.leaders pins))[k]? = some (s, e))
    (hx : x ∈ (p.instrs.getD (e - 1) default).exits e p.size) : x ∈ p.leaders pins := by
  have hs := p.leaders_sorted pins
  have hlt : ∀ x ∈ p.leaders pins, x < p.size := fun _ => lt_of_mem_leaders
  have hmem := List.mem_of_getElem? hk
  rcases List.mem_append.mp hx with hx | hx
  · obtain ⟨t, htm, rfl⟩ := List.mem_map.mp hx
    exact target_mem_leaders ht pins (getElem?_last hs hlt hmem) htm
  · split at hx
    · rename_i hfall
      rw [List.mem_singleton] at hx
      subst hx
      exact (mem_spans_bounds hs hlt hmem).2.2.2.resolve_left (by omega)
    · exact absurd hx List.not_mem_nil

/-- The far ends of the edges leaving block `k`: the blocks at the exits of its last
instruction, in order, each once. -/
theorem ends_edges (ht : p.TargetsIn) (pins : List Int) {k s e : Nat}
    (hk : (p.spans (p.leaders pins))[k]? = some (s, e)) :
    GraphBuilder.ends (p.edges (p.leaders pins)) k =
      ((p.instrs.getD (e - 1) default).exits e p.size).eraseDups.map (blockAt (p.leaders pins)) := by
  have hnd : (p.leaders pins).Nodup := (p.leaders_sorted pins).imp Nat.ne_of_lt
  rw [GraphBuilder.ends, filter_edges hk, map_snd_exitEdges]
  exact eraseDups_map fun x hx y hy =>
    blockAt_inj hnd (mem_leaders_of_exit ht pins hk hx) (mem_leaders_of_exit ht pins hk hy)

end Program

namespace GraphBuilder

/-- When the edges come by nondecreasing source, every block lists the sources of the edges
entering it by increasing number, each once. -/
theorem ends_swap_sorted {es : List (Int × Int)} (hes : es.Pairwise (fun e e' => e.1 ≤ e'.1))
    (c : Int) : (ends (es.map Prod.swap) c).Pairwise (· < ·) := by
  have hswap : (es.map Prod.swap).Pairwise (fun a b => a.2 ≤ b.2) := List.pairwise_map.mpr hes
  have hle : (((es.map Prod.swap).filter (·.1 = c)).map Prod.snd).Pairwise (· ≤ ·) :=
    List.pairwise_map.mpr (hswap.filter _)
  exact ((hle.sublist (eraseDups_sublist _)).and (nodup_eraseDups _)).imp
    fun h => lt_of_le_of_ne h.1 h.2

end GraphBuilder

/-! ### The cut -/

namespace Program

variable {p : Program}

/-- A leader of the blocks of `p` with the pinned offsets `pins`: an offset inside the program
that starts it, is a branch target, follows a terminator, or is pinned. -/
def IsLeader (p : Program) (pins : List Int) (x : Nat) : Prop :=
  x < p.size ∧ (x = 0 ∨ (∃ pc i, p.instrs[pc]? = some i ∧
    ((x : Int) ∈ i.targets ∨ (i.isTerminator ∧ x = pc + 1))) ∨ (x : Int) ∈ pins)

/-- The block at position `k` runs from the `k`-th leader to the next one, or to the end. -/
theorem getElem?_spans_eq (ls : List Nat) (k : Nat) :
    (p.spans ls)[k]? = ls[k]?.map fun s => (s, ls[k + 1]?.getD p.size) := by
  induction ls generalizing k with
  | nil => rfl
  | cons a ls ih =>
    cases k with
    | zero => simp [spans_cons, List.head?_eq_getElem?]
    | succ k => simp [spans_cons, ih]

/-- A successful cut has the edge lists of the edges listed block by block. -/
theorem toGraph_listed {pins : List Int} {g : FlowGraph} (hg : p.toGraph pins = .ok g) :
    g.Listed (p.edges (p.leaders pins)) := by
  unfold toGraph at hg
  cases hc : p.checkTargets with
  | error e => simp [hc, Failure.ofError, bind, Except.bind] at hg
  | ok u =>
    cases hb : (GraphBuilder.addBlocks {} ((p.spans (p.leaders pins)).map
        fun x => ((x.1 : Int), (x.2 : Int)))).addEdges (p.edges (p.leaders pins)) with
    | error a => simp [hc, hb, Failure.ofError, Failure.ofAbort, bind, Except.bind] at hg
    | ok b =>
      have hv : b.toRaw.validate = .ok g := by
        simp only [hc, hb, Failure.ofError, Failure.ofAbort, bind, Except.bind,
          GraphBuilder.build] at hg
        split at hg <;> simp_all
      have hl := (GraphBuilder.lists_addBlocks _).addEdges hb
      rw [List.nil_append] at hl
      exact hl.listed hv

end Program

namespace FlowGraph

variable {g : FlowGraph}

theorem preds_eq_nil {c : Nat} (hc : g.blockCount ≤ c) : g.preds c = [] := by
  simp [preds, block, Array.getD_eq_getD_getElem?, Array.getElem?_eq_none_iff.mpr hc]

/-- In a well-formed graph the predecessors of a block are the blocks listing it as a
successor. -/
theorem WellFormed.mem_preds_iff (hw : g.WellFormed) {b c : Nat} :
    b ∈ g.preds c ↔ b < g.blockCount ∧ c ∈ g.succs b := by
  constructor
  · intro hb
    have hc : c < g.blockCount := by
      by_contra hc
      rw [preds_eq_nil (by omega)] at hb
      exact List.not_mem_nil hb
    exact ⟨hw.pred_lt c hc b hb, hw.succ_of_pred c hc b hb⟩
  · rintro ⟨hb, hcs⟩
    exact hw.pred_of_succ b hb c hcs

/-- Increasing predecessor lists of a well-formed graph are determined by the successors. -/
theorem WellFormed.preds_eq_filter (hw : g.WellFormed) (hs : ∀ c, (g.preds c).Pairwise (· < ·))
    (c : Nat) : g.preds c = (List.range g.blockCount).filter (fun b => c ∈ g.succs b) :=
  (hs c).eq_of_mem_iff (List.pairwise_lt_range.filter _) fun b => by
    rw [hw.mem_preds_iff, List.mem_filter, List.mem_range, decide_eq_true_eq]

/-- `g` cuts `p` at the leaders `p.IsLeader pins`: a checked graph over the program whose blocks
start at the leaders by increasing offset, each running to the next leader or, the last one, to
the end of the program; no block is empty, and only its last instruction may be a terminator;
the successors of a block are the blocks at the exits of its last instruction, in the order
listed, each once; and every block lists its predecessors by increasing number. -/
structure CutAt (g : FlowGraph) (p : Program) (pins : List Int) : Prop where
  validate : g.toRaw.validate = .ok g
  instrCount_eq : g.instrCount = p.size
  starts_sorted : (g.blocks.toList.map Block.start).Pairwise (· < ·)
  mem_starts : ∀ x, x ∈ g.blocks.toList.map Block.start ↔ p.IsLeader pins x
  stop_eq_start : ∀ k, k + 1 < g.blockCount → (g.block k).stop = (g.block (k + 1)).start
  stop_last : ∀ k, k + 1 = g.blockCount → (g.block k).stop = p.size
  nonempty : ∀ k < g.blockCount, (g.block k).start < (g.block k).stop
  inner : ∀ {k pc : Nat} {i : Instr}, g.Owns k pc → pc + 1 < (g.block k).stop →
    p.instrs[pc]? = some i → ¬ i.isTerminator
  succs_eq : ∀ {k : Nat} {i : Instr}, k < g.blockCount →
    p.instrs[(g.block k).stop - 1]? = some i →
    (g.succs k).map (fun c => (g.block c).start) = (i.exits (g.block k).stop p.size).eraseDups
  preds_eq : ∀ c, g.preds c = (List.range g.blockCount).filter (fun b => c ∈ g.succs b)

variable {p : Program} {ls : List Nat}

/-- The blocks start at the leaders, in order. -/
theorem BuiltFrom.starts_eq (hb : g.BuiltFrom p ls) : g.blocks.toList.map Block.start = ls := by
  apply List.ext_getElem?
  intro k
  rw [List.getElem?_map, Array.getElem?_toList]
  by_cases hk : k < g.blockCount
  · obtain ⟨s, e, hse, hs, -⟩ := hb.exists_span hk
    have hstart := Program.getElem?_spans (p := p) ls k
    rw [hse, Option.map_some] at hstart
    have hblk := (block_eq_of_getElem? (Array.getElem?_eq_getElem hk)).1
    rw [Array.getElem?_eq_getElem hk, Option.map_some, ← hstart, ← hblk, hs]
  · have hls : ls.length ≤ k := by rw [← hb.blockCount_eq]; omega
    rw [Array.getElem?_eq_none_iff.mpr (by simpa [blockCount] using hk),
      List.getElem?_eq_none hls]
    rfl

/-- A block ends at the next leader, the last one at the end of the program. -/
theorem BuiltFrom.stop_eq (hb : g.BuiltFrom p ls) {k : Nat} (hk : k < g.blockCount) :
    (g.block k).stop = ls[k + 1]?.getD p.size := by
  obtain ⟨s, e, hse, -, he⟩ := hb.exists_span hk
  rw [Program.getElem?_spans_eq, Option.map_eq_some_iff] at hse
  obtain ⟨s', -, hpair⟩ := hse
  rw [he]
  exact (Prod.mk.inj hpair).2.symm

section Leaders

variable {pins : List Int}

/-- The successors of a block start at the exits of its last instruction, in order, each once. -/
theorem BuiltFrom.succs_starts (ht : p.TargetsIn) (hb : g.BuiltFrom p (p.leaders pins))
    (hl : g.Listed (p.edges (p.leaders pins))) {k : Nat} {i : Instr} (hk : k < g.blockCount)
    (hi : p.instrs[(g.block k).stop - 1]? = some i) :
    (g.succs k).map (fun c => (g.block c).start) = (i.exits (g.block k).stop p.size).eraseDups := by
  obtain ⟨s, e, hse, -, he⟩ := hb.exists_span hk
  have hlast := Program.getElem?_last (p.leaders_sorted pins) (fun _ => Program.lt_of_mem_leaders)
    (List.mem_of_getElem? hse)
  rw [he] at hi ⊢
  rw [hi, Option.some.injEq] at hlast
  rw [(hl k hk).1, Program.ends_edges ht pins hse, ← hlast, List.map_map, List.map_map]
  conv_rhs => rw [← List.map_id (i.exits e p.size).eraseDups]
  apply List.map_congr_left
  intro t htm
  have hexit : t ∈ (p.instrs.getD (e - 1) default).exits e p.size := by
    rw [← hlast]
    exact List.mem_eraseDups.mp htm
  obtain ⟨j, hbj, -, hjs⟩ := hb.start_blockAt (Program.mem_leaders_of_exit ht pins hse hexit)
  simp [hbj, hjs]

/-- Every block lists its predecessors by increasing number. -/
theorem Listed.preds_sorted (ht : p.TargetsIn) (hl : g.Listed (p.edges (p.leaders pins)))
    (c : Nat) : (g.preds c).Pairwise (· < ·) := by
  by_cases hc : c < g.blockCount
  · rw [(hl c hc).2, List.pairwise_map]
    refine (GraphBuilder.ends_swap_sorted (Program.edges_sorted _) c).imp_of_mem
      fun {a a'} ha _ haa' => ?_
    -- a predecessor is the source of an edge, so a block number
    have hedge := (List.mem_map_swap _ _ _).mp (GraphBuilder.mem_ends.mp ha)
    have := (Program.edges_valid ht pins hedge).1
    simp only at this
    omega
  · rw [preds_eq_nil (by omega)]
    exact List.Pairwise.nil

/-- The graph of the leaders' blocks, with the edge lists of its edges, cuts the program at its
leaders. -/
theorem BuiltFrom.cutAt (ht : p.TargetsIn) (hb : g.BuiltFrom p (p.leaders pins))
    (hl : g.Listed (p.edges (p.leaders pins))) : g.CutAt p pins where
  validate := hb.validate
  instrCount_eq := hb.instrCount_eq
  starts_sorted := hb.starts_eq ▸ p.leaders_sorted pins
  mem_starts x := hb.starts_eq ▸ Program.mem_leaders
  stop_eq_start k hk := by
    have hlt : k + 1 < (p.leaders pins).length := hb.blockCount_eq ▸ hk
    rw [hb.stop_eq (by omega), List.getElem?_eq_getElem hlt, Option.getD_some]
    exact (hb.start_of_getElem? (List.getElem?_eq_getElem hlt)).2.symm
  stop_last k hk := by
    have hnone : (p.leaders pins)[k + 1]? = none :=
      List.getElem?_eq_none (by rw [← hb.blockCount_eq]; omega)
    rw [hb.stop_eq (by omega), hnone, Option.getD_none]
  nonempty := hb.nonempty
  inner hown hnext hi := hb.not_isTerminator hown hnext hi
  succs_eq hk hi := hb.succs_starts ht hl hk hi
  preds_eq := (Cfg.validate_wellFormed hb.validate).preds_eq_filter (hl.preds_sorted ht)

end Leaders

end FlowGraph

namespace Program

variable {p : Program}

/-- With every branch target in the program, cutting it succeeds whatever the pins, and cuts it
at its leaders. -/
theorem toGraph_cutAt (ht : p.TargetsIn) (pins : List Int) :
    ∃ g, p.toGraph pins = .ok g ∧ g.CutAt p pins := by
  obtain ⟨g, hg, hb⟩ := toGraph_eq_ok ht pins
  exact ⟨g, hg, hb.cutAt ht (toGraph_listed hg)⟩

/-- Cutting a program into blocks, whatever the pins: it fails exactly when some branch target
lies outside the program, and then with an error about the graph naming such a branch and its
target; otherwise it cuts the program at its leaders. -/
theorem toGraph_cuts_at_leaders (p : Program) (pins : List Int) :
    ((∃ f, p.toGraph pins = .error f) ↔
      ∃ (pc : Nat) (i : Instr) (t : Int), p.instrs[pc]? = some i ∧ t ∈ i.targets ∧
        ¬ (0 ≤ t ∧ t < p.size)) ∧
    (∀ f, p.toGraph pins = .error f → ∃ e, f = .error e ∧ e.isInvalidGraph = true ∧
      ∃ (pc : Nat) (i : Instr) (t : Int), p.instrs[pc]? = some i ∧ t ∈ i.targets ∧
        ¬ (0 ≤ t ∧ t < p.size) ∧
        e = .graph s!"branch at {pc} targets {t}, which is not within [0, {p.size})") ∧
    (p.TargetsIn → ∃ g, p.toGraph pins = .ok g ∧ g.CutAt p pins) := by
  refine ⟨⟨fun ⟨f, hf⟩ => ?_, fun ⟨pc, i, t, hi, htm, hout⟩ => ?_⟩, fun f hf => ?_,
    fun ht => toGraph_cutAt ht pins⟩
  · obtain ⟨e, hc, -⟩ := toGraph_eq_error_iff.mp hf
    obtain ⟨pc, i, t, hi, htm, hout, -⟩ := checkTargets_eq_error hc
    exact ⟨pc, i, t, hi, htm, hout⟩
  · -- an outside target fails the check, and cutting fails with it
    cases hc : p.checkTargets with
    | ok u => exact absurd (checkTargets_eq_ok_iff.mp hc pc i hi t htm) hout
    | error e => exact ⟨.error e, toGraph_eq_error_iff.mpr ⟨e, hc, rfl⟩⟩
  · obtain ⟨e, hc, rfl⟩ := toGraph_eq_error_iff.mp hf
    obtain ⟨pc, i, t, hi, htm, hout, rfl⟩ := checkTargets_eq_error hc
    exact ⟨_, rfl, rfl, pc, i, t, hi, htm, hout, rfl⟩

end Program

/-- A switch whose table names the last instruction twice and the next one, which it also falls
through to. -/
def switchTable : Program :=
  ⟨#[{ op := 12, rx := 2, sw := [2, 1, 2] }, { op := 14 }, { op := 15 }]⟩

theorem toGraph_cuts_at_leaders_switchTable :
    switchTable.TargetsIn ∧ ∃ g, switchTable.toGraph [] = .ok g ∧ g.CutAt switchTable [] :=
  ⟨by decide, (Program.toGraph_cuts_at_leaders switchTable []).2.2 (by decide)⟩

example : (switchTable.toGraph []).map (fun g => (g.succs 0, g.preds 1, g.preds 2)) =
    .ok ([2, 1], [0], [0]) := by
  cbv

end RegisterLiveness
