import RegisterLiveness.Proofs.Chaotic

/-!
# The work each schedule does

The loops of the schedules have no bound of their own: sweep until a sweep changes nothing
(`SweepsTo`), pass over a component until a pass changes nothing (`SettlesTo`, and `SettlesAll`
over the components in turn), update from a queue until it is empty (`DrainsTo`). These
relations are the loops as written, without fuel. The fuel `Problem.solve` gives each loop is more
than any of them uses, so the state it returns is where the unbounded loop ends
(`sweepAll_sweepsTo`, `settle_settlesTo`, `drain_drainsTo`): every schedule terminates.

The work is then bounded by how much the live-in sets grow, by induction on the loops. A sweep
updates every block once, and every sweep but the last adds a member to some live-in set. A pass
over a component that changes something adds a member to a live-in set of the component. A
dequeued block that grows puts at most its distinct predecessors back in the queue, and it can
grow only as often as its live-in set gains members; so the queue, counted with its potential
`weighted` (each block's members weighted by its distinct predecessors), never grows.
-/

namespace RegisterLiveness

namespace FlowGraph

/-- A fold that adds only lists of a kind, starting from such lists, gives only lists of that
kind. -/
theorem forall_mem_foldl {α β : Type} (P : β → Prop) {f : List β → α → List β}
    (hf : ∀ acc a, (∀ x ∈ acc, P x) → ∀ x ∈ f acc a, P x) :
    ∀ (l : List α) (acc : List β), (∀ x ∈ acc, P x) → ∀ x ∈ l.foldl f acc, P x := by
  intro l
  induction l with
  | nil => exact fun acc h => h
  | cons a l ih => exact fun acc h => ih (f acc a) (hf acc a h)

/-- The components list blocks of the graph. -/
theorem lt_of_mem_components {g : FlowGraph} {c : List Nat} (hc : c ∈ g.components) :
    ∀ b ∈ c, b < g.blockCount := by
  simp only [components, List.mem_mergeSort] at hc
  refine forall_mem_foldl (fun c => ∀ b ∈ c, b < g.blockCount) ?_ _ [] (by simp) c hc
  intro acc v hacc x hx
  split at hx
  · exact hacc x hx
  · rcases List.mem_append.mp hx with hx | hx
    · exact hacc x hx
    · -- a new component: blocks of the graph that `v` reaches and that reach `v`
      rw [List.mem_singleton.mp hx]
      intro b hb
      exact List.mem_range.mp (List.mem_filter.mp hb).1

end FlowGraph

namespace Problem

variable {p : Problem}

/-! ### The loops without fuel -/

variable (p) in
/-- Sweeping over `order` until a sweep changes nothing: the loop from `st` ends in `st'`. -/
inductive SweepsTo (order : List Nat) : Flow p.n → Flow p.n → Prop
  | last {st : Flow p.n} : (p.sweep order st).1 = false → SweepsTo order st (p.sweep order st).2
  | more {st st' : Flow p.n} : (p.sweep order st).1 = true →
      SweepsTo order (p.sweep order st).2 st' → SweepsTo order st st'

variable (p) in
/-- Passing over `bbs` until a pass changes nothing: the loop from `st` makes `k` passes and ends
in `st'`. -/
inductive SettlesTo (bbs : List Nat) : Flow p.n → Nat → Flow p.n → Prop
  | last {st : Flow p.n} : (p.pass bbs st).1 = false → SettlesTo bbs st 1 (p.pass bbs st).2
  | more {st st' : Flow p.n} {k : Nat} : (p.pass bbs st).1 = true →
      SettlesTo bbs (p.pass bbs st).2 k st' → SettlesTo bbs st (k + 1) st'

@[simp] theorem mem_descending {c : List Nat} {b : Nat} : b ∈ descending c ↔ b ∈ c :=
  List.mem_mergeSort

theorem toFinset_descending (c : List Nat) : (descending c).toFinset = c.toFinset := by
  ext b
  simp

variable (p) in
/-- Settling the components in turn, each by passes over its blocks by decreasing index: from
`st` the components take `ks` passes each and leave `st'`. -/
inductive SettlesAll : List (List Nat) → Flow p.n → List Nat → Flow p.n → Prop
  | nil {st : Flow p.n} : SettlesAll [] st [] st
  | cons {c : List Nat} {cs : List (List Nat)} {st st₁ st' : Flow p.n} {k : Nat} {ks : List Nat} :
      p.SettlesTo (descending c) st k st₁ → SettlesAll cs st₁ ks st' →
      SettlesAll (c :: cs) st (k :: ks) st'

variable (p) in
/-- Updating blocks from the front of the queue until it is empty, a block whose live-in set grew
putting its predecessors that are not queued at the back: the loop from `st` ends in `st'`. -/
inductive DrainsTo : List Nat → Array Bool → Flow p.n → Flow p.n → Prop
  | done {queued : Array Bool} {st : Flow p.n} : DrainsTo [] queued st st
  | keep {bb : Nat} {q : List Nat} {queued : Array Bool} {st st' : Flow p.n} :
      (p.update st bb).1 = false →
      DrainsTo q (queued.setIfInBounds bb false) (p.update st bb).2 st' →
      DrainsTo (bb :: q) queued st st'
  | grow {bb : Nat} {q : List Nat} {queued : Array Bool} {st st' : Flow p.n} :
      (p.update st bb).1 = true →
      DrainsTo (p.enqueuePreds bb q (queued.setIfInBounds bb false)).1
        (p.enqueuePreds bb q (queued.setIfInBounds bb false)).2 (p.update st bb).2 st' →
      DrainsTo (bb :: q) queued st st'

/-! ### Counters -/

@[simp] theorem visits_update (st : Flow p.n) (bb : Nat) :
    (p.update st bb).2.visits = st.visits + 1 := rfl

@[simp] theorem sweeps_update (st : Flow p.n) (bb : Nat) :
    (p.update st bb).2.sweeps = st.sweeps := rfl

/-- A pass updates each listed block once and makes no sweep. -/
theorem counters_pass (l : List Nat) : ∀ st : Flow p.n,
    (p.pass l st).2.visits = st.visits + l.length ∧ (p.pass l st).2.sweeps = st.sweeps := by
  induction l with
  | nil => intro st; exact ⟨rfl, rfl⟩
  | cons bb l ih =>
    intro st
    rw [pass_cons]
    obtain ⟨hv, hs⟩ := ih (p.update st bb).2
    refine ⟨?_, hs⟩
    rw [hv, visits_update, List.length_cons]
    omega

/-- A sweep is a pass recorded as one more sweep. -/
theorem counters_sweep (order : List Nat) (st : Flow p.n) :
    (p.sweep order st).2.visits = st.visits + order.length ∧
      (p.sweep order st).2.sweeps = st.sweeps ++ [(p.sweep order st).1] :=
  ⟨(counters_pass order st).1, by rw [← (counters_pass order st).2]; rfl⟩

theorem card_le_pass (l : List Nat) : ∀ (st : Flow p.n) (b : Nat),
    (st.ins.getD b .empty).card ≤ ((p.pass l st).2.ins.getD b .empty).card := by
  induction l with
  | nil => intro st b; exact le_rfl
  | cons bb l ih =>
    intro st b
    rw [pass_cons]
    exact (card_le_update b).trans (ih _ b)

theorem ins_size_pass (l : List Nat) : ∀ st : Flow p.n, (p.pass l st).2.ins.size = st.ins.size := by
  induction l with
  | nil => intro st; rfl
  | cons bb l ih =>
    intro st
    rw [pass_cons, ih, ins_size_update]

/-! ### Weighted sizes of the live-in sets -/

variable (p) in
/-- The members of the live-in sets of the blocks `S`, those of block `b` counted `w b` times. -/
def weighted (w : ℕ → ℕ) (S : Finset ℕ) (st : Flow p.n) : ℕ :=
  ∑ b ∈ S, w b * (st.ins.getD b .empty).card

theorem weighted_mono {w : ℕ → ℕ} {S : Finset ℕ} {st st' : Flow p.n}
    (h : ∀ b, (st.ins.getD b .empty).card ≤ (st'.ins.getD b .empty).card) :
    p.weighted w S st ≤ p.weighted w S st' :=
  Finset.sum_le_sum fun b _ => Nat.mul_le_mul_left _ (h b)

/-- An update of a block of `S` that grows its live-in set adds at least its weight. -/
theorem weighted_add_le_update {w : ℕ → ℕ} {S : Finset ℕ} {st : Flow p.n} {bb : Nat}
    (hbb : bb ∈ S) (hi : bb < st.ins.size) (hc : (p.update st bb).1 = true) :
    p.weighted w S st + w bb ≤ p.weighted w S (p.update st bb).2 := by
  unfold weighted
  rw [← Finset.add_sum_erase S _ hbb, ← Finset.add_sum_erase S _ hbb]
  have hlt := card_lt_update hi hc
  have hrest : ∑ b ∈ S.erase bb, w b * (st.ins.getD b .empty).card ≤
      ∑ b ∈ S.erase bb, w b * ((p.update st bb).2.ins.getD b .empty).card :=
    Finset.sum_le_sum fun b _ => Nat.mul_le_mul_left _ (card_le_update b)
  have hbb' : w bb * (st.ins.getD bb .empty).card + w bb ≤
      w bb * ((p.update st bb).2.ins.getD bb .empty).card := by
    calc w bb * (st.ins.getD bb .empty).card + w bb
        = w bb * ((st.ins.getD bb .empty).card + 1) := by ring
      _ ≤ w bb * ((p.update st bb).2.ins.getD bb .empty).card := Nat.mul_le_mul_left _ hlt
  omega

/-- A pass over blocks of `S` that reports a change adds a member to a live-in set of `S`. -/
theorem weighted_lt_pass {S : Finset ℕ} {l : List Nat} :
    ∀ {st : Flow p.n}, (∀ b ∈ l, b ∈ S ∧ b < st.ins.size) → (p.pass l st).1 = true →
      p.weighted (fun _ => 1) S st < p.weighted (fun _ => 1) S (p.pass l st).2 := by
  induction l with
  | nil => intro st _ hc; simp [pass_nil] at hc
  | cons bb l ih =>
    intro st hl hc
    have hl' : ∀ b ∈ l, b ∈ S ∧ b < (p.update st bb).2.ins.size := fun b hb => by
      rw [ins_size_update]
      exact hl b (List.mem_cons_of_mem _ hb)
    rw [pass_cons] at hc ⊢
    rcases Bool.or_eq_true_iff.mp hc with hc | hc
    · obtain ⟨hbb, hi⟩ := hl bb List.mem_cons_self
      calc p.weighted (fun _ => 1) S st < p.weighted (fun _ => 1) S (p.update st bb).2 :=
            Nat.lt_of_add_one_le (weighted_add_le_update (w := fun _ => 1) hbb hi hc)
        _ ≤ _ := weighted_mono (card_le_pass l _)
    · exact (weighted_mono (card_le_update ·)).trans_lt (ih hl' hc)

/-! ### Sweeps -/

section Sweeps

variable {order : List Nat}

theorem SweepsTo.card_le {st st' : Flow p.n} (h : p.SweepsTo order st st') (b : Nat) :
    (st.ins.getD b .empty).card ≤ (st'.ins.getD b .empty).card := by
  induction h with
  | last => exact card_le_pass order _ b
  | more _ _ ih => exact (card_le_pass order _ b).trans ih

/-- Every sweep updates every block of the order once. -/
theorem SweepsTo.visits_eq {st st' : Flow p.n} (h : p.SweepsTo order st st') :
    st'.visits + st.sweeps.length * order.length =
      st.visits + st'.sweeps.length * order.length := by
  induction h with
  | last =>
    rw [(counters_sweep ..).1, (counters_sweep ..).2, List.length_append, List.length_singleton,
      Nat.add_mul, Nat.one_mul]
    omega
  | more _ _ ih =>
    rw [(counters_sweep ..).1, (counters_sweep ..).2, List.length_append,
      List.length_singleton] at ih
    rw [Nat.add_mul, Nat.one_mul] at ih
    omega

/-- The loop makes at least one sweep. -/
theorem SweepsTo.sweeps_lt {st st' : Flow p.n} (h : p.SweepsTo order st st') :
    st.sweeps.length < st'.sweeps.length := by
  induction h with
  | last => simp [(counters_sweep ..).2]
  | more _ _ ih =>
    rw [(counters_sweep ..).2, List.length_append] at ih
    omega

/-- Every sweep but the last adds a member to some live-in set. -/
theorem SweepsTo.sweeps_le (hwf : p.graph.WellFormed) (hl : ∀ b ∈ order, b < p.graph.blockCount)
    {st st' : Flow p.n} (h : p.SweepsTo order st st') (ha : Approx p st) :
    st'.sweeps.length + weight p st ≤ st.sweeps.length + 1 + weight p st' := by
  induction h with
  | @last st _ =>
    rw [(counters_sweep ..).2, List.length_append, List.length_singleton, weight_sweep]
    have := weight_le_pass order st
    omega
  | more hc _ ih =>
    have hlt := weight_lt_pass hwf hl ha hc
    have h' := ih (approx_sweep (approx_pass hwf order ha))
    rw [(counters_sweep ..).2, List.length_append, List.length_singleton, weight_sweep] at h'
    omega

/-- Sweeping with fuel beyond the members still missing ends where the unbounded loop does. -/
theorem sweepAll_sweepsTo (hwf : p.graph.WellFormed) (hl : ∀ b ∈ order, b < p.graph.blockCount) :
    ∀ fuel (st : Flow p.n), Approx p st → p.graph.blockCount * p.n < fuel + weight p st →
      p.SweepsTo order st (p.sweepAll order fuel st) := by
  intro fuel
  induction fuel with
  | zero =>
    intro st _ hw
    have := weight_le st
    omega
  | succ fuel ih =>
    intro st ha hw
    rw [sweepAll_succ]
    by_cases hc : (p.sweep order st).1 = true
    · rw [if_pos hc]
      have hlt := weight_lt_pass hwf hl ha hc
      exact .more hc (ih _ (approx_sweep (approx_pass hwf order ha)) (by rw [weight_sweep]; omega))
    · rw [if_neg hc]
      exact .last (by simpa using hc)

end Sweeps

/-! ### Components -/

section Settle

variable {bbs : List Nat}

theorem settle_succ (fuel : Nat) (st : Flow p.n) :
    p.settle bbs (fuel + 1) st =
      if (p.pass bbs st).1 then p.settle bbs fuel (p.pass bbs st).2 else (p.pass bbs st).2 := rfl

theorem SettlesTo.approx (hwf : p.graph.WellFormed) {st st' : Flow p.n} {k : Nat}
    (h : p.SettlesTo bbs st k st') (ha : Approx p st) : Approx p st' := by
  induction h with
  | last => exact approx_pass hwf bbs ha
  | more _ _ ih => exact ih (approx_pass hwf bbs ha)

theorem SettlesTo.card_le {st st' : Flow p.n} {k : Nat} (h : p.SettlesTo bbs st k st') (b : Nat) :
    (st.ins.getD b .empty).card ≤ (st'.ins.getD b .empty).card := by
  induction h with
  | last => exact card_le_pass bbs _ b
  | more _ _ ih => exact (card_le_pass bbs _ b).trans ih

/-- Every pass but the last adds a member to a live-in set of the component. -/
theorem SettlesTo.passes_le {st st' : Flow p.n} {k : Nat} (h : p.SettlesTo bbs st k st')
    (hl : ∀ b ∈ bbs, b < st.ins.size) :
    k + p.weighted (fun _ => 1) bbs.toFinset st ≤ 1 + p.weighted (fun _ => 1) bbs.toFinset st' := by
  have hS : ∀ {st : Flow p.n}, (∀ b ∈ bbs, b < st.ins.size) →
      ∀ b ∈ bbs, b ∈ bbs.toFinset ∧ b < st.ins.size :=
    fun hl b hb => ⟨List.mem_toFinset.mpr hb, hl b hb⟩
  induction h with
  | @last st _ =>
    have := weighted_mono (w := fun _ => 1) (S := bbs.toFinset) (card_le_pass bbs st)
    omega
  | more hc _ ih =>
    have hlt := weighted_lt_pass (hS hl) hc
    have h' := ih (fun b hb => by rw [ins_size_pass]; exact hl b hb)
    omega

/-- Settling with fuel beyond the members still missing ends where the unbounded loop does. -/
theorem settle_settlesTo (hwf : p.graph.WellFormed) (hl : ∀ b ∈ bbs, b < p.graph.blockCount) :
    ∀ fuel (st : Flow p.n), Approx p st → p.graph.blockCount * p.n < fuel + weight p st →
      ∃ k, p.SettlesTo bbs st k (p.settle bbs fuel st) := by
  intro fuel
  induction fuel with
  | zero =>
    intro st _ hw
    have := weight_le st
    omega
  | succ fuel ih =>
    intro st ha hw
    rw [settle_succ]
    by_cases hc : (p.pass bbs st).1 = true
    · rw [if_pos hc]
      have hlt := weight_lt_pass hwf hl ha hc
      obtain ⟨k, hk⟩ := ih _ (approx_pass hwf bbs ha) (by omega)
      exact ⟨k + 1, .more hc hk⟩
    · rw [if_neg hc]
      exact ⟨1, .last (by simpa using hc)⟩

end Settle

theorem SettlesAll.approx (hwf : p.graph.WellFormed) {cs : List (List Nat)} {st st' : Flow p.n}
    {ks : List Nat} (h : p.SettlesAll cs st ks st') (ha : Approx p st) : Approx p st' := by
  induction h with
  | nil => exact ha
  | cons hc _ ih => exact ih (hc.approx hwf ha)

theorem SettlesAll.card_le {cs : List (List Nat)} {st st' : Flow p.n} {ks : List Nat}
    (h : p.SettlesAll cs st ks st') (b : Nat) :
    (st.ins.getD b .empty).card ≤ (st'.ins.getD b .empty).card := by
  induction h with
  | nil => exact le_rfl
  | cons hc _ ih => exact (hc.card_le b).trans ih

/-- Each component's loop makes at most one pass more than the members its live-in sets gain
beyond the always-live operands, up to the end of the loops. -/
theorem SettlesAll.passes_le (hwf : p.graph.WellFormed) {cs : List (List Nat)} {st st' : Flow p.n}
    {ks : List Nat} (h : p.SettlesAll cs st ks st') (ha : Approx p st)
    (hl : ∀ c ∈ cs, ∀ b ∈ c, b < p.graph.blockCount) :
    List.Forall₂ (fun c k => k + c.toFinset.card * p.alwaysLive.card ≤
      1 + ∑ b ∈ c.toFinset, (st'.ins.getD b .empty).card) cs ks := by
  induction h with
  | nil => exact .nil
  | @cons c cs st st₁ st' k ks hc hrest ih =>
    have hlc : ∀ b ∈ descending c, b < st.ins.size := fun b hb => by
      rw [ha.ins_size]
      exact hl c List.mem_cons_self b (mem_descending.mp hb)
    have hpass := hc.passes_le hlc
    simp only [weighted, one_mul, toFinset_descending] at hpass
    -- the component starts from at least the always-live operands, and only grows afterwards
    have hal : c.toFinset.card * p.alwaysLive.card ≤
        ∑ b ∈ c.toFinset, (st.ins.getD b .empty).card := by
      rw [← smul_eq_mul]
      exact Finset.card_nsmul_le_sum _ _ _ fun b hb => OperandSet.card_le_card
        (ha.al_in b (hl c List.mem_cons_self b (List.mem_toFinset.mp hb)))
    have hend : ∑ b ∈ c.toFinset, (st₁.ins.getD b .empty).card ≤
        ∑ b ∈ c.toFinset, (st'.ins.getD b .empty).card :=
      Finset.sum_le_sum fun b _ => hrest.card_le b
    refine .cons (by omega) (ih (hc.approx hwf ha) fun c' hc' => hl c' (List.mem_cons_of_mem _ hc'))

/-- Settling every component with the fuel of `solve` ends where the unbounded loops do. -/
theorem foldl_settle_settlesAll (hwf : p.graph.WellFormed) :
    ∀ (cs : List (List Nat)) (st : Flow p.n), Approx p st →
      (∀ c ∈ cs, ∀ b ∈ c, b < p.graph.blockCount) →
      ∃ ks, p.SettlesAll cs st ks
        (cs.foldl (fun st c => p.settle (descending c) (p.growthBound + 1) st) st) := by
  intro cs
  induction cs with
  | nil => intro st _ _; exact ⟨[], .nil⟩
  | cons c cs ih =>
    intro st ha hl
    have hlc : ∀ b ∈ descending c, b < p.graph.blockCount :=
      fun b hb => hl c List.mem_cons_self b (mem_descending.mp hb)
    obtain ⟨k, hk⟩ := settle_settlesTo hwf hlc (p.growthBound + 1) st ha
      (lt_growthBound_succ_add st)
    obtain ⟨ks, hks⟩ := ih _ (hk.approx hwf ha) fun c' hc' => hl c' (List.mem_cons_of_mem _ hc')
    exact ⟨k :: ks, .cons hk hks⟩

/-! ### The worklist -/

/-- The blocks one round of queueing adds are distinct, come from the round's list, and were not
flagged. -/
theorem foldl_enqueueStep_added (L : List Nat) : ∀ (q : List Nat) (queued : Array Bool),
    ∃ added, (L.foldl enqueueStep (q, queued)).1 = q ++ added ∧ added.Nodup ∧
      ∀ b ∈ added, b ∈ L ∧ queued.getD b true = false := by
  induction L with
  | nil => intro q queued; exact ⟨[], by simp, .nil, by simp⟩
  | cons x L ih =>
    intro q queued
    by_cases hx : queued.getD x true = true
    · -- already flagged: `x` is skipped
      have hstep : enqueueStep (q, queued) x = (q, queued) := by simp [enqueueStep, hx]
      obtain ⟨added, hq, hnd, hmem⟩ := ih q queued
      refine ⟨added, by rw [List.foldl_cons, hstep]; exact hq, hnd, fun b hb => ?_⟩
      exact ⟨List.mem_cons_of_mem _ (hmem b hb).1, (hmem b hb).2⟩
    · -- not flagged: `x` joins the queue and is flagged, so it is not added again
      have hlt : x < queued.size := by
        by_contra hge
        simp [Array.getD_eq_getD_getElem?, Nat.not_lt.mp hge] at hx
      have hstep : enqueueStep (q, queued) x = (q ++ [x], queued.setIfInBounds x true) := by
        simp [enqueueStep, hx]
      obtain ⟨added, hq, hnd, hmem⟩ := ih (q ++ [x]) (queued.setIfInBounds x true)
      have hflag : ∀ b ∈ added, b ≠ x ∧ queued.getD b true = false := by
        intro b hb
        have hb' := (hmem b hb).2
        rw [getD_setIfInBounds] at hb'
        by_cases hbx : b = x
        · subst hbx
          simp [hlt] at hb'
        · rw [if_neg (fun h => hbx h.1.symm)] at hb'
          exact ⟨hbx, hb'⟩
      refine ⟨x :: added, ?_, ?_, fun b hb => ?_⟩
      · rw [List.foldl_cons, hstep, hq]; simp
      · exact List.nodup_cons.mpr ⟨fun hx' => (hflag x hx').1 rfl, hnd⟩
      · rcases List.mem_cons.mp hb with rfl | hb
        · exact ⟨List.mem_cons_self, by simpa using hx⟩
        · exact ⟨List.mem_cons_of_mem _ (hmem b hb).1, (hflag b hb).2⟩

/-- A block whose live-in set grew puts at most its distinct predecessors at the back of the
queue. -/
theorem enqueuePreds_added (bb : Nat) (q : List Nat) (queued : Array Bool) :
    ∃ added, (p.enqueuePreds bb q queued).1 = q ++ added ∧
      added.length ≤ (p.graph.preds bb).dedup.length ∧ ∀ b ∈ added, b ∈ p.graph.preds bb := by
  obtain ⟨added, hq, hnd, hmem⟩ := foldl_enqueueStep_added (p.graph.preds bb) q queued
  refine ⟨added, by rw [enqueuePreds_eq]; exact hq, ?_, fun b hb => (hmem b hb).1⟩
  exact (hnd.subperm fun b hb => List.mem_dedup.mpr (hmem b hb).1).length_le

theorem DrainsTo.sweeps_eq {q : List Nat} {queued : Array Bool} {st st' : Flow p.n}
    (h : p.DrainsTo q queued st st') : st'.sweeps = st.sweeps := by
  induction h with
  | done => rfl
  | keep _ _ ih => exact ih
  | grow _ _ ih => exact ih

/-- Every block in the queue is updated at least once. -/
theorem DrainsTo.visits_ge {q : List Nat} {queued : Array Bool} {st st' : Flow p.n}
    (h : p.DrainsTo q queued st st') : st.visits + q.length ≤ st'.visits := by
  induction h with
  | done => simp
  | keep _ _ ih =>
    rw [visits_update] at ih
    simp only [List.length_cons]
    omega
  | @grow bb q queued st st' _ _ ih =>
    obtain ⟨added, hq, -, -⟩ := enqueuePreds_added (p := p) bb q (queued.setIfInBounds bb false)
    rw [visits_update, hq, List.length_append] at ih
    simp only [List.length_cons]
    omega

variable (p) in
/-- The number of distinct predecessors of a block. -/
def predCount (b : Nat) : Nat := (p.graph.preds b).dedup.length

/-- The updates of the worklist are its queue plus, for every member a live-in set gains, the
distinct predecessors of its block. -/
theorem DrainsTo.visits_le (hwf : p.graph.WellFormed) {q : List Nat} {queued : Array Bool}
    {st st' : Flow p.n} (h : p.DrainsTo q queued st st') (ha : Approx p st)
    (hq : ∀ b ∈ q, b < p.graph.blockCount) :
    st'.visits + p.weighted p.predCount (Finset.range p.graph.blockCount) st ≤
      st.visits + q.length + p.weighted p.predCount (Finset.range p.graph.blockCount) st' := by
  induction h with
  | done => omega
  | @keep bb q queued st st' hc _ ih =>
    have h' := ih (approx_update hwf ha bb) fun b hb => hq b (List.mem_cons_of_mem _ hb)
    have hmono : p.weighted p.predCount (Finset.range p.graph.blockCount) st ≤
        p.weighted p.predCount (Finset.range p.graph.blockCount) (p.update st bb).2 :=
      weighted_mono card_le_update
    rw [visits_update] at h'
    simp only [List.length_cons]
    omega
  | @grow bb q queued st st' hc _ ih =>
    have hbb := hq bb List.mem_cons_self
    obtain ⟨added, hq', hlen, hmem⟩ :=
      enqueuePreds_added (p := p) bb q (queued.setIfInBounds bb false)
    have h' := ih (approx_update hwf ha bb) fun b hb => by
      rw [hq'] at hb
      rcases List.mem_append.mp hb with hb | hb
      · exact hq b (List.mem_cons_of_mem _ hb)
      · exact hwf.pred_lt bb hbb b (hmem b hb)
    -- the growth pays for the predecessors queued
    have hgrow := weighted_add_le_update (w := p.predCount) (Finset.mem_range.mpr hbb)
      (ha.ins_size ▸ hbb) hc
    rw [visits_update, hq', List.length_append] at h'
    simp only [List.length_cons, predCount] at hgrow hlen ⊢
    omega

/-- Draining the queue with the fuel of `drain_spec` ends where the unbounded loop does. -/
theorem drain_drainsTo (hwf : p.graph.WellFormed) {K : Nat}
    (hK : ∀ bb < p.graph.blockCount, (p.graph.preds bb).length < K) :
    ∀ fuel (q : List Nat) (queued : Array Bool) (st : Flow p.n), Queue p q queued st →
      (p.graph.blockCount * p.n - weight p st) * K + q.length < fuel →
      p.DrainsTo q queued st (p.drain fuel q queued st) := by
  intro fuel
  induction fuel with
  | zero => intro q queued st _ hm; omega
  | succ fuel ih =>
    intro q queued st hq hm
    cases q with
    | nil => exact .done
    | cons bb q =>
      have hbb := hq.lt_of_mem bb List.mem_cons_self
      have hw₁ := weight_le (p.update st bb).2
      rw [drain_cons]
      by_cases hc : (p.update st bb).1 = true
      · rw [if_pos hc]
        obtain ⟨added, he⟩ :=
          enqueued_enqueuePreds (p := p) bb q (queued.setIfInBounds bb false)
        have hlt := weight_lt_update hbb (hq.approx.ins_size ▸ hbb) hc
        have hadd : added.length < K := lt_of_le_of_lt he.length_le (hK bb hbb)
        -- one member fewer to add pays for the predecessors queued
        have hmul : (p.graph.blockCount * p.n - weight p (p.update st bb).2 + 1) * K ≤
            (p.graph.blockCount * p.n - weight p st) * K :=
          Nat.mul_le_mul_right K (by omega)
        apply DrainsTo.grow hc (ih _ _ _ (queue_of_fst hwf hq he) ?_)
        rw [he.queue_eq, List.length_append]
        simp only [List.length_cons, Nat.add_mul, Nat.one_mul] at hm hmul
        omega
      · rw [if_neg hc]
        have hmul : (p.graph.blockCount * p.n - weight p (p.update st bb).2) * K ≤
            (p.graph.blockCount * p.n - weight p st) * K :=
          Nat.mul_le_mul_right K (Nat.sub_le_sub_left weight_le_update _)
        apply DrainsTo.keep (by simpa using hc)
          (ih _ _ _ (queue_of_not_fst hwf hq (by simpa using hc)) ?_)
        simp only [List.length_cons] at hm
        omega

/-! ### What `solve` does under each schedule -/

theorem lt_of_mem_backwardOrder : ∀ b ∈ p.backwardOrder, b < p.graph.blockCount :=
  fun _ hb => mem_backwardOrder.mp hb

/-- At the start every block's live-in set is the always-live operands. -/
theorem weighted_start (w : ℕ → ℕ) :
    p.weighted w (Finset.range p.graph.blockCount) p.start =
      ∑ b ∈ Finset.range p.graph.blockCount, w b * p.alwaysLive.card := by
  unfold weighted
  exact Finset.sum_congr rfl fun b hb => by simp [start, Finset.mem_range.mp hb]

theorem weight_start : weight p p.start = p.graph.blockCount * p.alwaysLive.card := by
  have h := weighted_start (p := p) fun _ => 1
  simp only [weighted, one_mul, Finset.sum_const, Finset.card_range, smul_eq_mul] at h
  exact h

/-- With `sweep`, `solve` returns where the sweeps from the start end: every sweep updates every
block, and there is at least one sweep and at most one more than the members all live-in sets
gained. -/
theorem solve_sweepsTo (hwf : p.graph.WellFormed) (hs : p.schedule = .sweep) :
    p.SweepsTo p.backwardOrder p.start p.solve ∧
      p.solve.visits = p.solve.sweeps.length * p.graph.blockCount ∧ 1 ≤ p.solve.sweeps.length ∧
      p.solve.sweeps.length + p.graph.blockCount * p.alwaysLive.card ≤ 1 + weight p p.solve := by
  have hsolve : p.solve = p.sweepAll p.backwardOrder (p.growthBound + 1) p.start := by
    simp only [solve, solveWith, hs]
  have hsw := sweepAll_sweepsTo hwf lt_of_mem_backwardOrder (p.growthBound + 1) p.start
    approx_start (lt_growthBound_succ_add _)
  rw [← hsolve] at hsw
  have hvis := hsw.visits_eq
  have hlt := hsw.sweeps_lt
  have hle := hsw.sweeps_le hwf lt_of_mem_backwardOrder approx_start
  rw [weight_start] at hle
  simp only [start, List.length_nil, Nat.zero_mul, Nat.add_zero, Nat.zero_add,
    length_backwardOrder] at hvis hlt hle
  exact ⟨hsw, by omega, hlt, by omega⟩

/-- With `worklist`, `solve` returns where the queue of every block drains: there is no sweep,
every block is updated, and the updates beyond one per block are paid for by the members the
live-in sets gained, each weighted by its block's distinct predecessors. -/
theorem solve_drainsTo (hwf : p.graph.WellFormed) (hs : p.schedule = .worklist) :
    p.DrainsTo p.backwardOrder (Array.replicate p.graph.blockCount true) p.start p.solve ∧
      p.solve.sweeps = [] ∧ p.graph.blockCount ≤ p.solve.visits ∧
      p.solve.visits + ∑ b ∈ Finset.range p.graph.blockCount, p.predCount b * p.alwaysLive.card ≤
        p.graph.blockCount + p.weighted p.predCount (Finset.range p.graph.blockCount) p.solve := by
  have hsolve : p.solve = p.drain ((p.growthBound + 1) * (p.graph.blockCount +
      p.graph.blocks.foldl (fun m b => m + b.preds.length) 0 + 1)) p.backwardOrder
      (Array.replicate p.graph.blockCount true) p.start := by
    simp only [solve, solveWith, hs]
  have hdr : p.DrainsTo p.backwardOrder (Array.replicate p.graph.blockCount true) p.start
      p.solve := by
    rw [hsolve]
    exact drain_drainsTo hwf length_preds_lt_worklist _ _ _ _ queue_start worklist_measure_lt
  have hge := hdr.visits_ge
  have hle := hdr.visits_le hwf approx_start lt_of_mem_backwardOrder
  rw [weighted_start] at hle
  simp only [start, Nat.zero_add, length_backwardOrder] at hge hle
  exact ⟨hdr, by simpa [start] using hdr.sweeps_eq, hge, hle⟩

/-- With `scc`, `solveWith` returns where the sweeps end after the components are settled in
turn, whatever the components, as long as they list blocks; and each component's loop makes at most
one pass more than the members its blocks' live-in sets gained beyond the always-live operands. -/
theorem solveWith_settlesAll (hwf : p.graph.WellFormed) (hs : p.schedule = .scc)
    {sccs : FlowGraph → List (List Nat)}
    (hcomp : ∀ c ∈ sccs p.graph, ∀ b ∈ c, b < p.graph.blockCount) :
    ∃ st ks, p.SettlesAll (sccs p.graph) p.start ks st ∧
      p.SweepsTo p.backwardOrder st (p.solveWith sccs) ∧
      List.Forall₂ (fun c k => k + c.toFinset.card * p.alwaysLive.card ≤
        1 + ∑ b ∈ c.toFinset, ((p.solveWith sccs).ins.getD b .empty).card) (sccs p.graph) ks := by
  have hsolve : p.solveWith sccs = p.sweepAll p.backwardOrder (p.growthBound + 1)
      ((sccs p.graph).foldl (fun st c => p.settle (descending c) (p.growthBound + 1) st)
        p.start) := by
    simp only [solveWith, hs]
  obtain ⟨ks, hks⟩ := foldl_settle_settlesAll hwf _ _ approx_start hcomp
  have hsw := sweepAll_sweepsTo hwf lt_of_mem_backwardOrder (p.growthBound + 1) _
    (hks.approx hwf approx_start) (lt_growthBound_succ_add _)
  rw [← hsolve] at hsw
  -- the sets only grow from the end of the components' loops to the end of the sweeps
  refine ⟨_, ks, hks, hsw, (hks.passes_le hwf approx_start hcomp).imp fun c k hk => ?_⟩
  have hfinal := Finset.sum_le_sum (s := c.toFinset) fun b _ => hsw.card_le b
  omega

/-- With `scc`, `solve` settles the components `FlowGraph.components` gives, then sweeps. -/
theorem solve_settlesAll (hwf : p.graph.WellFormed) (hs : p.schedule = .scc) :
    ∃ st ks, p.SettlesAll p.graph.components p.start ks st ∧
      p.SweepsTo p.backwardOrder st p.solve ∧
      List.Forall₂ (fun c k => k + c.toFinset.card * p.alwaysLive.card ≤
        1 + ∑ b ∈ c.toFinset, (p.solve.ins.getD b .empty).card) p.graph.components ks :=
  solveWith_settlesAll hwf hs fun _ hc => FlowGraph.lt_of_mem_components hc

end Problem

namespace Liveness

/-- How many members the live-in set of block `b` gained beyond the always-live operands it
started with. -/
def gain (lv : Liveness) (b : Nat) : Nat :=
  (lv.flow.ins.getD b .empty).card - lv.alwaysLive.card

/-- How many members all live-in sets gained. -/
def growth (lv : Liveness) : Nat := ∑ b ∈ Finset.range lv.blockCount, lv.gain b

/-- Each block gains at most the operands that are not always live. -/
theorem growth_le (lv : Liveness) : lv.growth ≤ lv.blockCount * (lv.n - lv.alwaysLive.card) :=
  calc lv.growth ≤ ∑ b ∈ Finset.range lv.blockCount, (lv.n - lv.alwaysLive.card) :=
        Finset.sum_le_sum fun b _ => Nat.sub_le_sub_right (OperandSet.card_le _) _
    _ = lv.blockCount * (lv.n - lv.alwaysLive.card) := by
        rw [Finset.sum_const, Finset.card_range, smul_eq_mul]

/-- The members of the final live-in sets, weighted, are the always-live ones and the gains. -/
theorem sum_mul_gain {lv : Liveness} (w : ℕ → ℕ) {S : Finset ℕ}
    (h : ∀ b ∈ S, lv.alwaysLive.card ≤ (lv.flow.ins.getD b .empty).card) :
    ∑ b ∈ S, w b * lv.gain b + ∑ b ∈ S, w b * lv.alwaysLive.card =
      ∑ b ∈ S, w b * (lv.flow.ins.getD b .empty).card := by
  rw [← Finset.sum_add_distrib]
  refine Finset.sum_congr rfl fun b hb => ?_
  rw [gain, ← Nat.mul_add, Nat.sub_add_cancel (h b hb)]

end Liveness

/-- Every schedule terminates, with work bounded by how much the live-in sets grow. For every valid
input the analysis succeeds, and the loops of its schedule, run without any bound, end in the
state it returns. With `sweep`, every sweep visits every block, there is at least one sweep, and
at most one more than the members gained by all live-in sets, which is at most every block's
share of the operands that are not always live. With `worklist` there is no sweep, every block is
visited, and the visits beyond one per block are at most, block by block, its distinct
predecessors times the members its live-in set gained. With `scc`, the components are settled in
turn and then swept, and each component's loop makes at most one pass more than the members its
blocks' live-in sets gained. -/
theorem schedule_work_bounded_by_growth {rg : RawGraph} {g : FlowGraph} {d : Decoder}
    {o : Options} {n : Nat} (hg : rg.validate = .ok g) (hn : o.operandCount = some n)
    (hal : ∀ r ∈ o.alwaysLive, r < n) (hd : d.Decodes g.instrCount n) :
    ∃ lv, Liveness.analyze rg d o = .ok lv ∧ lv.graph = g ∧ lv.n = n ∧
      (o.schedule = .sweep →
        lv.problem.SweepsTo lv.problem.backwardOrder lv.problem.start lv.flow ∧
        lv.visits = lv.sweeps * lv.blockCount ∧ 1 ≤ lv.sweeps ∧ lv.sweeps ≤ 1 + lv.growth ∧
        lv.growth ≤ lv.blockCount * (lv.n - lv.alwaysLive.card)) ∧
      (o.schedule = .worklist →
        lv.problem.DrainsTo lv.problem.backwardOrder (Array.replicate lv.blockCount true)
          lv.problem.start lv.flow ∧
        lv.sweeps = 0 ∧ lv.blockCount ≤ lv.visits ∧
        lv.visits ≤ lv.blockCount +
          ∑ b ∈ Finset.range lv.blockCount, (lv.graph.preds b).dedup.length * lv.gain b) ∧
      (o.schedule = .scc → ∃ st ks,
        lv.problem.SettlesAll lv.graph.components lv.problem.start ks st ∧
        lv.problem.SweepsTo lv.problem.backwardOrder st lv.flow ∧
        List.Forall₂ (fun c k => k ≤ 1 + ∑ b ∈ c.toFinset, lv.gain b) lv.graph.components ks) := by
  obtain ⟨p, hprep, hp, hpn, -, hsched, -⟩ := Problem.prepare_eq_ok hg hn hal hd
  have hwf := hp.graph_wellFormed
  -- the final live-in sets hold the always-live operands, so the gains account for the rest
  have hal_card : ∀ b ∈ Finset.range p.graph.blockCount,
      p.alwaysLive.card ≤ (p.solve.ins.getD b .empty).card := fun b hb =>
    OperandSet.card_le_card ((Problem.solve_spec hwf).1.al_in b (Finset.mem_range.mp hb))
  have hgain : ∀ (w : ℕ → ℕ) (S : Finset ℕ), S ⊆ Finset.range p.graph.blockCount →
      ∑ b ∈ S, w b * Liveness.gain ⟨p, p.solve⟩ b + ∑ b ∈ S, w b * p.alwaysLive.card =
        ∑ b ∈ S, w b * (p.solve.ins.getD b .empty).card :=
    fun w S hS => Liveness.sum_mul_gain w fun b hb => hal_card b (hS hb)
  refine ⟨⟨p, p.solve⟩, Liveness.analyze_eq_ok_of_prepare hprep, hp.graph_eq, hpn, fun hs => ?_,
    fun hs => ?_, fun hs => ?_⟩
  · obtain ⟨hsw, hvis, hone, hle⟩ := Problem.solve_sweepsTo hwf (hsched.trans hs)
    have h := hgain (fun _ => 1) _ subset_rfl
    simp only [one_mul, Finset.sum_const, Finset.card_range, smul_eq_mul] at h
    refine ⟨hsw, hvis, hone, ?_, Liveness.growth_le _⟩
    show p.solve.sweeps.length ≤
      1 + ∑ b ∈ Finset.range p.graph.blockCount, Liveness.gain ⟨p, p.solve⟩ b
    unfold Problem.weight at hle
    omega
  · obtain ⟨hdr, hsw, hge, hle⟩ := Problem.solve_drainsTo hwf (hsched.trans hs)
    have h := hgain p.predCount _ subset_rfl
    refine ⟨hdr, by simp [Liveness.sweeps, hsw], hge, ?_⟩
    show p.solve.visits ≤ p.graph.blockCount +
      ∑ b ∈ Finset.range p.graph.blockCount, p.predCount b * Liveness.gain ⟨p, p.solve⟩ b
    unfold Problem.weighted at hle
    omega
  · obtain ⟨st, ks, hks, hsw, hpass⟩ := Problem.solve_settlesAll hwf (hsched.trans hs)
    -- every component lies among the blocks, which is what the gains need
    have hmem := (List.forall₂_and_left _ _).mpr
      ⟨fun c hc => FlowGraph.lt_of_mem_components hc, hpass⟩
    refine ⟨st, ks, hks, hsw, hmem.imp fun c k ⟨hc, hk⟩ => ?_⟩
    have h := hgain (fun _ => 1) c.toFinset fun b hb =>
      Finset.mem_range.mpr (hc b (List.mem_toFinset.mp hb))
    simp only [one_mul, Finset.sum_const, smul_eq_mul] at h
    omega

theorem schedule_work_bounded_by_growth_swapLoop :
    ∃ lv, Liveness.analyze swapLoop swapDecoder { operandCount := some 2 } = .ok lv ∧
      lv.graph = swapLoopGraph ∧ lv.n = 2 ∧
      ((({ operandCount := some 2 } : Options)).schedule = .sweep →
        lv.problem.SweepsTo lv.problem.backwardOrder lv.problem.start lv.flow ∧
        lv.visits = lv.sweeps * lv.blockCount ∧ 1 ≤ lv.sweeps ∧ lv.sweeps ≤ 1 + lv.growth ∧
        lv.growth ≤ lv.blockCount * (lv.n - lv.alwaysLive.card)) ∧
      ((({ operandCount := some 2 } : Options)).schedule = .worklist →
        lv.problem.DrainsTo lv.problem.backwardOrder (Array.replicate lv.blockCount true)
          lv.problem.start lv.flow ∧
        lv.sweeps = 0 ∧ lv.blockCount ≤ lv.visits ∧
        lv.visits ≤ lv.blockCount +
          ∑ b ∈ Finset.range lv.blockCount, (lv.graph.preds b).dedup.length * lv.gain b) ∧
      ((({ operandCount := some 2 } : Options)).schedule = .scc → ∃ st ks,
        lv.problem.SettlesAll lv.graph.components lv.problem.start ks st ∧
        lv.problem.SweepsTo lv.problem.backwardOrder st lv.flow ∧
        List.Forall₂ (fun c k => k ≤ 1 + ∑ b ∈ c.toFinset, lv.gain b) lv.graph.components ks) := by
  obtain ⟨hg, hd⟩ := swapLoop_valid
  exact schedule_work_bounded_by_growth hg rfl (fun r hr => by simp at hr) hd

end RegisterLiveness
