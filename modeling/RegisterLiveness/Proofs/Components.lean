import RegisterLiveness.Proofs.Reach
import RegisterLiveness.Proofs.Steady
import RegisterLiveness.Proofs.Preconditions

/-!
# The components, sinks first

`FlowGraph.components` tabulates, for every block, the blocks it reaches; groups the blocks by
mutual reachability, in order of their first block; and sorts the groups by how many blocks their
first block reaches. The groups are the strongly connected components (`mem_components_iff`),
they partition the blocks, and no block has a successor in a later group
(`sinksFirst_components`): a block reaches every block its successor reaches and, when the
successor does not reach back, the block itself besides.

With the `scc` schedule the components are settled in turn. Whatever split the analysis is given,
as long as its components come sinks first (`FlowGraph.SinksFirst`), when the last one is settled
the equations of every block hold and the state is already the least solution: the closing sweep
changes nothing and is the only one (`scc_closing_sweep_changes_nothing`).
-/

namespace RegisterLiveness

/-- Counting is monotone along a pointwise implication, and strictly so when one element passes
the weaker test only. -/
theorem length_filter_lt_of_imp {α : Type} {p q : α → Bool} :
    ∀ {l : List α}, (∀ x ∈ l, p x = true → q x = true) → ∀ a ∈ l, q a = true → p a = false →
      (l.filter p).length < (l.filter q).length
  | [], _, a, ha, _, _ => absurd ha List.not_mem_nil
  | x :: l, hpq, a, ha, hqa, hpa => by
    have htail : ∀ y ∈ l, p y = true → q y = true := fun y hy => hpq y (List.mem_cons_of_mem x hy)
    have hle : (l.filter p).length ≤ (l.filter q).length := by
      rw [← List.countP_eq_length_filter, ← List.countP_eq_length_filter]
      exact List.countP_mono_left htail
    rcases List.mem_cons.mp ha with rfl | ha
    · simp only [List.filter_cons, hpa, hqa, if_true, List.length_cons]
      simpa using Nat.lt_succ_of_le hle
    · have ih := length_filter_lt_of_imp htail a ha hqa hpa
      by_cases hpx : p x = true
      · simp only [List.filter_cons, hpx, hpq x List.mem_cons_self hpx, if_true, List.length_cons]
        exact Nat.succ_lt_succ ih
      · cases hqx : q x <;> simp [hpx, hqx] <;> omega

/-- The marks of an array, counted by position. -/
theorem length_filter_id_toList (a : Array Bool) :
    (a.toList.filter id).length = ((List.range a.size).filter fun i => a.getD i true).length := by
  have hl : a.toList = (List.range a.size).map fun i => a.getD i true := by
    apply List.ext_getElem (by simp)
    intro i h₁ h₂
    simp [Array.getD_eq_getD_getElem?, Array.getElem?_eq_getElem (Array.length_toList ▸ h₁)]
  rw [hl, List.filter_map, List.length_map]
  rfl

namespace FlowGraph

variable {g : FlowGraph}

/-! ### The tables `components` reads -/

variable (g) in
/-- The marks of every block, as `components` tabulates them. -/
def reachTable : Array (Array Bool) := (List.range g.blockCount).toArray.map g.reachFrom

variable (g) in
/-- Whether `u` reaches `v`, read off the table. -/
def reachesB (u v : Nat) : Bool := (g.reachTable.getD u #[]).getD v false

variable (g) in
/-- The blocks that `v` reaches and that reach `v`, by increasing index. -/
def componentOf (v : Nat) : List Nat :=
  (List.range g.blockCount).filter fun u => g.reachesB v u && g.reachesB u v

variable (g) in
/-- Add the component of `v` unless a listed one holds `v` already. -/
def addComponent (acc : List (List Nat)) (v : Nat) : List (List Nat) :=
  if acc.any (·.contains v) then acc else acc ++ [g.componentOf v]

variable (g) in
/-- How many blocks the first block of `c` reaches. -/
def reachWeight (c : List Nat) : Nat :=
  ((g.reachTable.getD (c.headD 0) #[]).toList.filter id).length

theorem components_eq : g.components =
    ((List.range g.blockCount).foldl g.addComponent []).mergeSort
      fun c d => g.reachWeight c ≤ g.reachWeight d := rfl

variable (g) in
/-- Blocks that reach each other. -/
def Mutual (u v : Nat) : Prop := g.Reaches u v ∧ g.Reaches v u

theorem Mutual.refl (u : Nat) : g.Mutual u u := ⟨.refl, .refl⟩

theorem Mutual.symm {u v : Nat} (h : g.Mutual u v) : g.Mutual v u := ⟨h.2, h.1⟩

theorem Mutual.trans {u v w : Nat} (h₁ : g.Mutual u v) (h₂ : g.Mutual v w) : g.Mutual u w :=
  ⟨h₁.1.trans h₂.1, h₂.2.trans h₁.2⟩

theorem reachTable_getD {u : Nat} (hu : u < g.blockCount) :
    g.reachTable.getD u #[] = g.reachFrom u := by
  simp [reachTable, Array.getD_eq_getD_getElem?, hu]

section Table

variable (hr : g.SuccsInRange)
include hr

theorem size_reachFrom {v : Nat} (hv : v < g.blockCount) : (g.reachFrom v).size = g.blockCount :=
  (spreading_reachFrom hr hv).size

theorem reachesB_iff {u v : Nat} (hu : u < g.blockCount) (hv : v < g.blockCount) :
    g.reachesB u v = true ↔ g.Reaches u v := by
  rw [reachesB, reachTable_getD hu, ← reachFrom_iff hr hu hv]
  -- inside the array the default of `getD` is never read
  have hs : v < (g.reachFrom u).size := (size_reachFrom hr hu).symm ▸ hv
  simp [Array.getD_eq_getD_getElem?, Array.getElem?_eq_getElem hs]

theorem mem_componentOf {v u : Nat} (hv : v < g.blockCount) :
    u ∈ g.componentOf v ↔ u < g.blockCount ∧ g.Mutual v u := by
  simp only [componentOf, List.mem_filter, List.mem_range, Bool.and_eq_true]
  constructor
  · rintro ⟨hu, h₁, h₂⟩
    exact ⟨hu, (reachesB_iff hr hv hu).mp h₁, (reachesB_iff hr hu hv).mp h₂⟩
  · rintro ⟨hu, h₁, h₂⟩
    exact ⟨hu, (reachesB_iff hr hv hu).mpr h₁, (reachesB_iff hr hu hv).mpr h₂⟩

/-! ### Grouping -/

variable (g) in
/-- Lists of components: each the component of a block, no two sharing a block. -/
structure Classes (acc : List (List Nat)) : Prop where
  comp : ∀ c ∈ acc, ∃ w < g.blockCount, c = g.componentOf w
  disjoint : acc.Pairwise fun c d => ∀ b ∈ c, b ∉ d

/-- Adding the component of a block keeps the components apart, and lists one holding the
block. -/
theorem Classes.addComponent {acc : List (List Nat)} (h : g.Classes acc) {v : Nat}
    (hv : v < g.blockCount) :
    g.Classes (g.addComponent acc v) ∧ (∃ c ∈ g.addComponent acc v, v ∈ c) ∧
      ∀ c ∈ acc, c ∈ g.addComponent acc v := by
  unfold FlowGraph.addComponent
  split
  · rename_i hany
    obtain ⟨c, hc, hvc⟩ := List.any_eq_true.mp hany
    exact ⟨h, ⟨c, hc, List.contains_iff_mem.mp hvc⟩, fun c hc => hc⟩
  · rename_i hany
    have hnone : ∀ c ∈ acc, v ∉ c := by simpa using hany
    have hself : v ∈ g.componentOf v := (mem_componentOf hr hv).mpr ⟨hv, Mutual.refl v⟩
    refine ⟨⟨fun c hc => ?_, ?_⟩, ⟨_, List.mem_append_right _ (List.mem_singleton_self _), hself⟩,
      fun c hc => List.mem_append_left _ hc⟩
    · rcases List.mem_append.mp hc with hc | hc
      · exact h.comp c hc
      · exact ⟨v, hv, List.mem_singleton.mp hc⟩
    · refine List.pairwise_append.mpr ⟨h.disjoint, List.pairwise_singleton _ _, ?_⟩
      intro c hc d hd b hbc hbd
      rw [List.mem_singleton.mp hd] at hbd
      obtain ⟨w, hw, rfl⟩ := h.comp c hc
      -- a block shared with the component of `w` would put `v` in it
      have hwb := ((mem_componentOf hr hw).mp hbc).2
      have hvb := ((mem_componentOf hr hv).mp hbd).2
      exact hnone _ hc ((mem_componentOf hr hw).mpr ⟨hv, hwb.trans hvb.symm⟩)

theorem classes_foldl_addComponent :
    ∀ (vs : List Nat) (acc : List (List Nat)), (∀ v ∈ vs, v < g.blockCount) → g.Classes acc →
      g.Classes (vs.foldl g.addComponent acc) ∧
        (∀ v ∈ vs, ∃ c ∈ vs.foldl g.addComponent acc, v ∈ c) ∧
        ∀ c ∈ acc, c ∈ vs.foldl g.addComponent acc := by
  intro vs
  induction vs with
  | nil => intro acc _ h; exact ⟨h, by simp, fun c hc => hc⟩
  | cons v vs ih =>
    intro acc hvs h
    obtain ⟨h₁, ⟨c, hc, hvc⟩, hmono₁⟩ := h.addComponent hr (hvs v List.mem_cons_self)
    obtain ⟨h₂, hcov₂, hmono₂⟩ := ih _ (fun w hw => hvs w (List.mem_cons_of_mem v hw)) h₁
    refine ⟨h₂, fun w hw => ?_, fun d hd => hmono₂ d (hmono₁ d hd)⟩
    rcases List.mem_cons.mp hw with rfl | hw
    · exact ⟨c, hmono₂ c hc, hvc⟩
    · exact hcov₂ w hw

/-- The groups of `components` are components, pairwise disjoint, and every block is in one. -/
theorem classes_components :
    g.Classes g.components ∧ ∀ b < g.blockCount, ∃ c ∈ g.components, b ∈ c := by
  obtain ⟨h, hcov, -⟩ := classes_foldl_addComponent hr (List.range g.blockCount) []
    (fun v hv => List.mem_range.mp hv) ⟨by simp, List.Pairwise.nil⟩
  rw [components_eq]
  refine ⟨⟨fun c hc => h.comp c (List.mem_mergeSort.mp hc), ?_⟩, fun b hb => ?_⟩
  · exact ((List.mergeSort_perm _ _).pairwise_iff fun hcd b hbd hbc => hcd b hbc hbd).mpr
      h.disjoint
  · obtain ⟨c, hc, hbc⟩ := hcov b (List.mem_range.mpr hb)
    exact ⟨c, List.mem_mergeSort.mpr hc, hbc⟩

/-- The groups of `components` are exactly the strongly connected components. -/
theorem mem_components_iff {c : List Nat} {b : Nat} (hc : c ∈ g.components) (hb : b ∈ c) (u : Nat) :
    u ∈ c ↔ u < g.blockCount ∧ g.Mutual b u := by
  obtain ⟨w, hw, rfl⟩ := (classes_components hr).1.comp c hc
  have hwb := ((mem_componentOf hr hw).mp hb).2
  rw [mem_componentOf hr hw]
  exact and_congr_right fun _ => ⟨fun h => hwb.symm.trans h, fun h => hwb.trans h⟩

/-! ### The weights -/

variable (g) in
/-- How many blocks `b` reaches. -/
def reachCount (b : Nat) : Nat :=
  ((List.range g.blockCount).filter fun i => (g.reachFrom b).getD i true).length

/-- A group weighs what any of its blocks reaches. -/
theorem reachWeight_eq {c : List Nat} (hc : c ∈ g.components) {b : Nat} (hb : b ∈ c) :
    g.reachWeight c = g.reachCount b := by
  have hlt := lt_of_mem_components hc
  -- the first block of the group reaches the blocks that `b` reaches
  obtain ⟨h, t, rfl⟩ : ∃ h t, c = h :: t := List.exists_cons_of_ne_nil (List.ne_nil_of_mem hb)
  have hh : h < g.blockCount := hlt h List.mem_cons_self
  have hb' : b < g.blockCount := hlt b hb
  have hhb := ((mem_components_iff hr hc List.mem_cons_self b).mp hb).2
  rw [reachWeight, List.headD_cons, reachTable_getD hh, length_filter_id_toList,
    size_reachFrom hr hh, reachCount]
  congr 1
  refine List.filter_congr fun i hi => Bool.eq_iff_iff.mpr ?_
  have hi' := List.mem_range.mp hi
  rw [reachFrom_iff hr hh hi', reachFrom_iff hr hb' hi']
  exact ⟨hhb.2.trans, hhb.1.trans⟩

/-- A block reaches more blocks than a successor that does not reach back. -/
theorem reachCount_lt {b s : Nat} (hb : b < g.blockCount) (hs : s ∈ g.succs b)
    (hsb : ¬ g.Reaches s b) : g.reachCount s < g.reachCount b := by
  have hs' : s < g.blockCount := hr b hb s hs
  refine length_filter_lt_of_imp (fun i hi hsi => ?_) b (List.mem_range.mpr hb)
    ((reachFrom_iff hr hb hb).mpr .refl) ?_
  · have hi' := List.mem_range.mp hi
    rw [reachFrom_iff hr hs' hi'] at hsi
    exact (reachFrom_iff hr hb hi').mpr (.head hs hsi)
  · have hnot : (g.reachFrom s).getD b true ≠ true := fun h => hsb ((reachFrom_iff hr hs' hb).mp h)
    simpa using hnot

end Table

variable (g) in
/-- Groups of blocks that partition the blocks, listed so that no block has a successor in a
later group. -/
structure SinksFirst (cs : List (List Nat)) : Prop where
  lt : ∀ c ∈ cs, ∀ b ∈ c, b < g.blockCount
  covers : ∀ b < g.blockCount, ∃ c ∈ cs, b ∈ c
  ordered : cs.Pairwise fun c d => ∀ b ∈ c, b ∉ d ∧ ∀ s ∈ g.succs b, s ∉ d

/-- The components come sinks first: a successor in another component has a lighter one, and the
components are sorted by weight. -/
theorem sinksFirst_components (hr : g.SuccsInRange) : g.SinksFirst g.components := by
  obtain ⟨hcl, hcov⟩ := classes_components hr
  have hsorted : g.components.Pairwise fun c d => g.reachWeight c ≤ g.reachWeight d := by
    rw [components_eq]
    simpa using List.pairwise_mergeSort (fun a b c (h₁ : decide (_ ≤ _) = true) h₂ => by
      simp only [decide_eq_true_eq] at h₁ h₂ ⊢; exact h₁.trans h₂)
      (fun a b => by simpa using le_total _ _) ((List.range g.blockCount).foldl g.addComponent [])
  refine ⟨fun c hc => lt_of_mem_components hc, hcov, ?_⟩
  refine (hsorted.and hcl.disjoint).imp_of_mem fun {c d} hc hd ⟨hw, hdisj⟩ b hb => ?_
  refine ⟨hdisj b hb, fun s hs hsd => ?_⟩
  have hb' : b < g.blockCount := lt_of_mem_components hc b hb
  -- a successor that reached back would share the component of `b`
  have hsb : ¬ g.Reaches s b := fun hsb =>
    hdisj s ((mem_components_iff hr hc hb s).mpr ⟨hr b hb' s hs, .single hs, hsb⟩) hsd
  have hlt := reachCount_lt hr hb' hs hsb
  rw [← reachWeight_eq hr hc hb, ← reachWeight_eq hr hd hsd] at hlt
  exact absurd hw (Nat.not_le.mpr hlt)

end FlowGraph

namespace Problem

variable {p : Problem}

/-- Settling groups that come sinks first leaves the equations of every block holding. -/
theorem SettlesAll.holds_of_sinksFirst (hwf : p.graph.WellFormed) {cs : List (List Nat)}
    {st st' : Flow p.n} {ks : List Nat} (h : p.SettlesAll cs st ks st') (ha : Approx p st)
    (hsf : p.graph.SinksFirst cs) : ∀ b < p.graph.blockCount, Holds p st' b :=
  fun b hb => h.holds hwf ha hsf.lt hsf.ordered b (.inl (hsf.covers b hb))

end Problem

/-- With the `scc` schedule the analysis may split the graph into components any way that comes
sinks first: the components partition the blocks, and an edge from one component into another leads
to an earlier one. Once they are settled the state is the least solution, so the closing sweep
changes nothing and is the only sweep. The split `Liveness.analyze` uses, `FlowGraph.components`,
comes sinks first. -/
theorem scc_closing_sweep_changes_nothing {rg : RawGraph} {g : FlowGraph} {d : Decoder}
    {o : Options} {n : Nat} (hg : rg.validate = .ok g) (hn : o.operandCount = some n)
    (hal : ∀ r ∈ o.alwaysLive, r < n) (hd : d.Decodes g.instrCount n) (hs : o.schedule = .scc) :
    g.SinksFirst g.components ∧
      ∀ sccs : FlowGraph → List (List Nat), g.SinksFirst (sccs g) →
        ∃ lv, Liveness.analyzeWith sccs rg d o = .ok lv ∧ lv.sweeps = 1 ∧
          lv.flow.sweeps = [false] ∧
          ∃ st ks, lv.problem.SettlesAll (sccs g) lv.problem.start ks st ∧
            Problem.SameSets st lv.flow ∧
            g.IsLeastSolution {r | r ∈ o.alwaysLive} (g.blockTransfer d {r | r ∈ o.alwaysLive})
              st.liveIn st.liveOut := by
  obtain ⟨p, hprep, hp, -, hal', hsched, -⟩ := Problem.prepare_eq_ok hg hn hal hd
  have hwf := hp.graph_wellFormed
  have hleast := Problem.isLeastSolution_solveWith hp
  obtain rfl := hp.graph_eq
  refine ⟨FlowGraph.sinksFirst_components hwf.succsInRange, fun sccs hsf => ?_⟩
  obtain ⟨st, ks, hset, hsw, -⟩ := Problem.solveWith_settlesAll hwf (hsched.trans hs) hsf.lt
  -- once the components are settled every equation holds, so the sweep changes nothing
  have hholds := hset.holds_of_sinksFirst hwf Problem.approx_start hsf
  obtain ⟨hsweeps, hsame⟩ :=
    hsw.of_holds fun b hb => hholds b (Problem.lt_of_mem_backwardOrder b hb)
  have hfalse : (p.solveWith sccs).sweeps = [false] := by
    rw [hsweeps, hset.sweeps_eq]
    rfl
  have hin : st.liveIn = (p.solveWith sccs).liveIn := funext fun b => ((hsame b).1).symm
  have hout : st.liveOut = (p.solveWith sccs).liveOut := funext fun b => ((hsame b).2).symm
  refine ⟨⟨p, p.solveWith sccs⟩, Liveness.analyzeWith_eq_ok_of_prepare sccs hprep, ?_, hfalse,
    st, ks, hset, hsame, ?_⟩
  · simp [Liveness.sweeps, hfalse]
  · rw [hin, hout, ← hal']
    exact hleast sccs

theorem scc_closing_sweep_changes_nothing_swapLoop :
    swapLoopGraph.SinksFirst swapLoopGraph.components ∧
      ∃ lv, Liveness.analyzeWith FlowGraph.components swapLoop swapDecoder
          { operandCount := some 2, schedule := .scc } = .ok lv ∧ lv.sweeps = 1 ∧
        lv.flow.sweeps = [false] ∧
        ∃ st ks, lv.problem.SettlesAll swapLoopGraph.components lv.problem.start ks st ∧
          Problem.SameSets st lv.flow ∧
          swapLoopGraph.IsLeastSolution
            {r | r ∈ ({ operandCount := some 2, schedule := .scc } : Options).alwaysLive}
            (swapLoopGraph.blockTransfer swapDecoder
              {r | r ∈ ({ operandCount := some 2, schedule := .scc } : Options).alwaysLive})
            st.liveIn st.liveOut := by
  obtain ⟨hg, hd⟩ := swapLoop_valid
  obtain ⟨hsf, hall⟩ := scc_closing_sweep_changes_nothing
    (o := { operandCount := some 2, schedule := .scc }) hg rfl (fun r hr => by simp at hr) hd rfl
  exact ⟨hsf, hall FlowGraph.components hsf⟩

end RegisterLiveness
