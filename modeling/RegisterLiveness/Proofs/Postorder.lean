import RegisterLiveness.Proofs.DepthFirst
import RegisterLiveness.Proofs.Steady
import RegisterLiveness.Proofs.Preconditions

/-!
# Depth-first order on a graph without cycles

On a graph without cycles the depth-first search from block 0 finishes a block only after all of
its successors: a successor finished later would reach back to the block (`DepthFirst.succ_before`),
closing a cycle. The search finishes each block once, so reverse postorder lists every block before
its successors (`reversePostorder_pairwise`), once every block is reachable from block 0, and the
backward order lists every block after its successors.

That order is what makes the schedules cheap. A first sweep over it leaves every equation
holding, so a second sweep, if any, changes nothing; and the worklist never puts a block back in
the queue, since the predecessors of a block are still queued when it is updated
(`acyclic_backward_order_bounds_work`).
-/

namespace RegisterLiveness

namespace FlowGraph

variable {g : FlowGraph}

/-! ### Cycles -/

variable (g) in
/-- No path of one or more edges leads from a block back to itself. -/
def Acyclic : Prop := ∀ b, ¬ Relation.TransGen g.Edge b b

/-- A graph whose edges all lead to higher-numbered blocks has no cycle. -/
theorem acyclic_of_lt (h : ∀ u, ∀ v ∈ g.succs u, u < v) : g.Acyclic := by
  have hlt : ∀ {u v}, Relation.TransGen g.Edge u v → u < v := by
    intro u v huv
    induction huv with
    | single he => exact h _ _ he
    | tail _ he ih => exact ih.trans (h _ _ he)
  exact fun b hb => Nat.lt_irrefl b (hlt hb)

/-- Without cycles no successor reaches back to its block. -/
theorem Acyclic.not_reaches_of_succ (hac : g.Acyclic) {b s : Nat} (hs : s ∈ g.succs b) :
    ¬ g.Reaches s b :=
  fun h => hac s (.tail' h hs)

theorem Acyclic.not_succ_self (hac : g.Acyclic) (b : Nat) : b ∉ g.succs b :=
  fun h => hac.not_reaches_of_succ h .refl

/-! ### The search -/

/-- A list without repeats holds two entries in one order only. -/
theorem pair_sublist_asymm {α : Type} {a b : α} :
    ∀ {l : List α}, l.Nodup → [a, b].Sublist l → [b, a].Sublist l → False
  | [], _, hab, _ => by simp at hab
  | x :: l, hl, hab, hba => by
    obtain ⟨hx, hl⟩ := List.nodup_cons.mp hl
    rw [List.sublist_cons_iff] at hab hba
    -- an entry taken as the head of the list cannot appear again in its tail
    rcases hab with hab | ⟨_, ⟨rfl, rfl⟩, hb⟩ <;> rcases hba with hba | ⟨_, ⟨rfl, rfl⟩, ha⟩
    · exact pair_sublist_asymm hl hab hba
    · exact hx (hab.subset (by simp))
    · exact hx (hba.subset (by simp))
    · exact hx (List.singleton_sublist.mp hb)

/-- On a graph without cycles whose blocks are all reachable from block 0, reverse postorder lists
every block before its successors. -/
theorem reversePostorder_pairwise (hr : g.SuccsInRange) (hac : g.Acyclic)
    (hreach : ∀ b < g.blockCount, g.Reaches 0 b) :
    g.reversePostorder.Pairwise fun a b => a ∉ g.succs b := by
  obtain ⟨seen, post, h⟩ := depthFirst_entry (g := g)
  -- the search marks every block, so no block trails its postorder
  have hnil : (List.range g.blockCount).filter (· ∉ seen) = [] := by
    refine List.filter_eq_nil_iff.mpr fun b hb => ?_
    have hb' := List.mem_range.mp hb
    simpa using (h.mem_iff_reaches b).mpr ⟨hb', hreach b hb'⟩
  rw [reversePostorder_eq_of_depthFirst h, hnil, List.append_nil, List.pairwise_reverse,
    List.pairwise_iff_forall_sublist]
  intro u v huv hv
  -- without cycles the search finishes a successor before its block
  have hu : u ∈ post := huv.subset List.mem_cons_self
  rcases h.succ_before u hu v hv (hr u (lt_of_mem_succs hv) v hv) with hv₀ | hback | hvu
  · simp at hv₀
  · exact hac.not_reaches_of_succ hv hback
  · exact pair_sublist_asymm h.nodup.1 huv hvu

end FlowGraph

namespace Problem

variable {p : Problem}

/-- On a graph without cycles whose blocks are all reachable from block 0, the backward order
lists every block after its successors. -/
theorem backwardOrder_pairwise (hwf : p.graph.WellFormed) (hac : p.graph.Acyclic)
    (hreach : ∀ b < p.graph.blockCount, p.graph.Reaches 0 b) :
    p.backwardOrder.Pairwise fun a b => b ∉ p.graph.succs a :=
  List.pairwise_reverse.mpr (p.graph.reversePostorder_pairwise hwf.succsInRange hac hreach)

theorem nodup_backwardOrder : p.backwardOrder.Nodup :=
  ((List.reverse_perm _).trans p.graph.reversePostorder_perm).nodup_iff.mpr List.nodup_range

/-! ### Sweeps -/

/-- Sweeping in an order where every block comes after its successors makes one sweep, or two
when the first changed something: the first leaves every equation holding. -/
theorem solve_sweeps_of_succs_first (hwf : p.graph.WellFormed) (hs : p.schedule = .sweep)
    (hord : p.backwardOrder.Pairwise fun a b => b ∉ p.graph.succs a)
    (hloop : ∀ b, b ∉ p.graph.succs b) :
    p.solve.sweeps = [false] ∨ p.solve.sweeps = [true, false] := by
  have hh : ∀ b ∈ p.backwardOrder, Holds p (p.pass p.backwardOrder p.start).2 b :=
    holds_pass_of_succs_first hwf lt_of_mem_backwardOrder nodup_backwardOrder hord
      (fun b _ => hloop b) approx_start
  have hsw := (solve_sweepsTo hwf hs).1
  generalize p.solve = fin at hsw ⊢
  cases hsw with
  | last hc =>
    left
    rw [(counters_sweep _ _).2, hc]
    rfl
  | more hc hrest =>
    right
    rw [(hrest.of_holds fun b hb => holds_sweep (hh b hb)).1, (counters_sweep _ _).2, hc]
    rfl

/-! ### The worklist -/

/-- Putting flagged predecessors in the queue changes nothing. -/
theorem enqueuePreds_of_flagged {bb : Nat} {q : List Nat} {queued : Array Bool}
    (h : ∀ pr ∈ p.graph.preds bb, queued.getD pr true = true) :
    p.enqueuePreds bb q queued = (q, queued) := by
  rw [enqueuePreds_eq]
  generalize p.graph.preds bb = L at h
  induction L with
  | nil => rfl
  | cons pr L ih =>
    rw [List.foldl_cons, enqueueStep, if_pos (h pr List.mem_cons_self)]
    exact ih fun x hx => h x (List.mem_cons_of_mem pr hx)

variable (p) in
/-- A queue in which every block comes before its predecessors, all of them queued and flagged. -/
structure TopoQueue (q : List Nat) (queued : Array Bool) : Prop where
  lt : ∀ b ∈ q, b < p.graph.blockCount
  nodup : q.Nodup
  ordered : q.Pairwise fun a b => b ∉ p.graph.succs a
  preds : ∀ a ∈ q, ∀ pr ∈ p.graph.preds a, pr ∈ q
  flagged : ∀ b ∈ q, queued.getD b true = true

/-- Taking the front block off such a queue leaves such a queue, whose flags already cover the
front block's predecessors. -/
theorem TopoQueue.pop (hwf : p.graph.WellFormed) (hloop : ∀ b, b ∉ p.graph.succs b) {bb : Nat}
    {q : List Nat} {queued : Array Bool} (h : p.TopoQueue (bb :: q) queued) :
    p.TopoQueue q (queued.setIfInBounds bb false) ∧
      ∀ pr ∈ p.graph.preds bb, (queued.setIfInBounds bb false).getD pr true = true := by
  obtain ⟨hbq, hnd⟩ := List.nodup_cons.mp h.nodup
  obtain ⟨hlater, hord⟩ := List.pairwise_cons.mp h.ordered
  have hflag : ∀ b ∈ q, (queued.setIfInBounds bb false).getD b true = true := by
    intro b hb
    have hne : bb ≠ b := fun he => hbq (he ▸ hb)
    rw [getD_setIfInBounds, if_neg fun h => hne h.1]
    exact h.flagged b (List.mem_cons_of_mem bb hb)
  -- a predecessor of a block is never the front block, which comes before its successors
  have hpred : ∀ a ∈ bb :: q, ∀ pr ∈ p.graph.preds a, pr ∈ q := by
    intro a ha pr hpr
    have has : a ∈ p.graph.succs pr :=
      hwf.succ_of_pred a (h.lt a ha) pr hpr
    rcases List.mem_cons.mp (h.preds a ha pr hpr) with rfl | hq
    · rcases List.mem_cons.mp ha with rfl | ha
      · exact absurd has (hloop a)
      · exact absurd has (hlater a ha)
    · exact hq
  exact ⟨⟨fun b hb => h.lt b (List.mem_cons_of_mem bb hb), hnd, hord,
    fun a ha pr hpr => hpred a (List.mem_cons_of_mem bb ha) pr hpr, hflag⟩,
    fun pr hpr => hflag pr (hpred bb List.mem_cons_self pr hpr)⟩

/-- Draining such a queue updates each of its blocks once: a block whose live-in set grows finds
its predecessors still queued. -/
theorem DrainsTo.visits_of_topoQueue (hwf : p.graph.WellFormed) (hloop : ∀ b, b ∉ p.graph.succs b)
    {q : List Nat} {queued : Array Bool} {st st' : Flow p.n} (h : p.DrainsTo q queued st st')
    (hq : p.TopoQueue q queued) : st'.visits = st.visits + q.length := by
  induction h with
  | done => rfl
  | keep _ _ ih =>
    rw [ih (hq.pop hwf hloop).1, visits_update, List.length_cons]
    omega
  | grow _ _ ih =>
    obtain ⟨hq', hflag⟩ := hq.pop hwf hloop
    simp only [enqueuePreds_of_flagged hflag] at ih
    rw [ih hq', visits_update, List.length_cons]
    omega

/-- The worklist over an order where every block comes after its successors updates every block
once. -/
theorem solve_visits_of_succs_first (hwf : p.graph.WellFormed) (hs : p.schedule = .worklist)
    (hord : p.backwardOrder.Pairwise fun a b => b ∉ p.graph.succs a)
    (hloop : ∀ b, b ∉ p.graph.succs b) : p.solve.visits = p.graph.blockCount := by
  have hq : p.TopoQueue p.backwardOrder (Array.replicate p.graph.blockCount true) :=
    ⟨lt_of_mem_backwardOrder, nodup_backwardOrder, hord,
      fun a ha pr hpr => mem_backwardOrder.mpr (hwf.pred_lt a (mem_backwardOrder.mp ha) pr hpr),
      fun b _ => by
        simp only [Array.getD_eq_getD_getElem?, Array.getElem?_replicate]
        split <;> rfl⟩
  rw [(solve_drainsTo hwf hs).1.visits_of_topoQueue hwf hloop hq, length_backwardOrder]
  exact Nat.zero_add _

end Problem

/-- On a graph without cycles whose blocks are all reachable from block 0, the backward order
lists every block after its successors; so sweeping makes at most two sweeps, the last changing
nothing, and the worklist updates every block exactly once. -/
theorem acyclic_backward_order_bounds_work {rg : RawGraph} {g : FlowGraph} {d : Decoder}
    {o : Options} {n : Nat} (hg : rg.validate = .ok g) (hn : o.operandCount = some n)
    (hal : ∀ r ∈ o.alwaysLive, r < n) (hd : d.Decodes g.instrCount n) (hac : g.Acyclic)
    (hreach : ∀ b < g.blockCount, g.Reaches 0 b) :
    g.reversePostorder.reverse.Pairwise (fun a b => b ∉ g.succs a) ∧
      ∃ lv, Liveness.analyze rg d o = .ok lv ∧ lv.graph = g ∧
        (o.schedule = .sweep →
          lv.sweeps ≤ 2 ∧ (lv.flow.sweeps = [false] ∨ lv.flow.sweeps = [true, false])) ∧
        (o.schedule = .worklist → lv.visits = lv.blockCount) := by
  obtain ⟨p, hprep, hp, -, -, hsched, -⟩ := Problem.prepare_eq_ok hg hn hal hd
  have hwf := hp.graph_wellFormed
  rw [← hp.graph_eq] at hac hreach ⊢
  have hord := Problem.backwardOrder_pairwise hwf hac hreach
  refine ⟨hord, ⟨p, p.solve⟩, Liveness.analyze_eq_ok_of_prepare hprep, rfl,
    fun hs => ?_, fun hs => Problem.solve_visits_of_succs_first hwf (hsched.trans hs) hord
      hac.not_succ_self⟩
  have hsw := Problem.solve_sweeps_of_succs_first hwf (hsched.trans hs) hord hac.not_succ_self
  refine ⟨?_, hsw⟩
  rcases hsw with h | h <;> simp [Liveness.sweeps, h]

/-- A diamond: block 0 branches to blocks 1 and 2, which join at block 3; each block holds one
instruction. -/
def diamond : RawGraph :=
  ⟨#[⟨0, 1, [1, 2], []⟩, ⟨1, 2, [3], [0]⟩, ⟨2, 3, [3], [0]⟩, ⟨3, 4, [], [1, 2]⟩], 4⟩

/-- The graph `diamond` checks to. -/
def diamondGraph : FlowGraph :=
  ⟨#[⟨0, 1, [1, 2], []⟩, ⟨1, 2, [3], [0]⟩, ⟨2, 3, [3], [0]⟩, ⟨3, 4, [], [1, 2]⟩], 4⟩

theorem diamondGraph_acyclic : diamondGraph.Acyclic := by
  apply FlowGraph.acyclic_of_lt
  intro u v hv
  simp only [FlowGraph.succs, FlowGraph.block, diamondGraph] at hv
  by_cases hu : u < 4
  · obtain rfl | rfl | rfl | rfl : u = 0 ∨ u = 1 ∨ u = 2 ∨ u = 3 := by omega
    all_goals simp at hv
    all_goals omega
  · -- past the last block there are no edges
    rw [Array.getD_eq_getD_getElem?, Array.getElem?_eq_none (by simp; omega)] at hv
    simp at hv

theorem diamondGraph_reaches : ∀ b < diamondGraph.blockCount, diamondGraph.Reaches 0 b := by
  have h01 : diamondGraph.Edge 0 1 := show 1 ∈ diamondGraph.succs 0 by decide
  have h02 : diamondGraph.Edge 0 2 := show 2 ∈ diamondGraph.succs 0 by decide
  have h13 : diamondGraph.Edge 1 3 := show 3 ∈ diamondGraph.succs 1 by decide
  intro b hb
  have hb4 : b < 4 := hb
  obtain rfl | rfl | rfl | rfl : b = 0 ∨ b = 1 ∨ b = 2 ∨ b = 3 := by omega
  · exact .refl
  · exact .single h01
  · exact .single h02
  · exact .tail (.single h01) h13

theorem acyclic_backward_order_bounds_work_diamond :
    diamondGraph.reversePostorder.reverse.Pairwise (fun a b => b ∉ diamondGraph.succs a) ∧
      ∃ lv, Liveness.analyze diamond swapDecoder { operandCount := some 2 } = .ok lv ∧
        lv.graph = diamondGraph ∧
        (({ operandCount := some 2 } : Options).schedule = .sweep →
          lv.sweeps ≤ 2 ∧ (lv.flow.sweeps = [false] ∨ lv.flow.sweeps = [true, false])) ∧
        (({ operandCount := some 2 } : Options).schedule = .worklist →
          lv.visits = lv.blockCount) := by
  have hg : diamond.validate = .ok diamondGraph := by cbv
  have hd : swapDecoder.Decodes diamondGraph.instrCount 2 := by
    intro pc _
    by_cases h : pc = 0 <;> simp [swapDecoder, h]
  exact acyclic_backward_order_bounds_work hg rfl (fun r hr => by simp at hr) hd
    diamondGraph_acyclic diamondGraph_reaches

end RegisterLiveness
