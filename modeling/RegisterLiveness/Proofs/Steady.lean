import RegisterLiveness.Proofs.Work

/-!
# Updates of blocks whose equations hold

Two facts decide how much work a schedule does once its order of updates follows the edges.
Updating a block whose equations already hold reports no change and changes no set
(`update_of_holds`), so a pass, or a sweep, over such blocks leaves every set as it is. And a pass
keeps the equations of a block when it updates neither the block nor any of its successors
(`holds_pass_of_not_succ`).

From them: settling components in an order where no block has a successor in a later component
leaves the equations of every block holding (`SettlesAll.holds`); a pass in which every block
comes after its successors does the same (`holds_pass_of_succs_first`); and sweeping from a state
where every equation holds stops after one sweep that changes nothing (`SweepsTo.of_holds`).
-/

namespace RegisterLiveness

namespace Problem

variable {p : Problem}

/-- Two states with the same sets. -/
def SameSets (st st' : Flow p.n) : Prop :=
  ∀ b, st'.liveIn b = st.liveIn b ∧ st'.liveOut b = st.liveOut b

theorem SameSets.refl (st : Flow p.n) : SameSets st st := fun _ => ⟨rfl, rfl⟩

theorem SameSets.trans {st₁ st₂ st₃ : Flow p.n} (h₁ : SameSets st₁ st₂) (h₂ : SameSets st₂ st₃) :
    SameSets st₁ st₃ :=
  fun b => ⟨((h₂ b).1).trans (h₁ b).1, ((h₂ b).2).trans (h₁ b).2⟩

/-- The equations of a block read only the sets. -/
theorem SameSets.holds {st st' : Flow p.n} {b : Nat} (h : SameSets st st') (hh : Holds p st b) :
    Holds p st' b where
  succ_out s hs := by
    rw [(h s).1, (h b).2]
    exact hh.succ_out s hs
  transfer_in := by
    rw [(h b).2, (h b).1]
    exact hh.transfer_in

variable {st : Flow p.n} {bb : Nat}

/-- Updating a block whose equations hold reports no change and changes no set. -/
theorem update_of_holds (hh : Holds p st bb) :
    (p.update st bb).1 = false ∧ SameSets st (p.update st bb).2 := by
  -- the live-out set already holds every successor's live-in set
  have hg : p.gathered st bb = st.liveOut bb :=
    Set.Subset.antisymm
      (Set.union_subset le_rfl fun _ ⟨s, hs, hr⟩ => hh.succ_out s hs hr) liveOut_subset_gathered
  have hc : (p.update st bb).1 = false := by
    have hn : ¬ (p.update st bb).1 = true := by
      rw [update_fst_iff, not_not, hg]
      exact hh.transfer_in
    simpa using hn
  refine ⟨hc, fun b => ⟨liveIn_update_of_not_fst hc b, ?_⟩⟩
  rw [liveOut_update]
  split
  · rename_i h
    rw [hg, h.1]
  · rfl

/-- A pass over blocks whose equations hold reports no change and changes no set. -/
theorem pass_of_holds {l : List Nat} :
    ∀ {st : Flow p.n}, (∀ b ∈ l, Holds p st b) →
      (p.pass l st).1 = false ∧ SameSets st (p.pass l st).2 := by
  induction l with
  | nil => intro st _; exact ⟨rfl, SameSets.refl st⟩
  | cons x l ih =>
    intro st hh
    obtain ⟨hc, hsame⟩ := update_of_holds (hh x List.mem_cons_self)
    obtain ⟨hc', hsame'⟩ := ih fun b hb => hsame.holds (hh b (List.mem_cons_of_mem x hb))
    rw [pass_cons, hc, hc']
    exact ⟨rfl, hsame.trans hsame'⟩

/-- A pass keeps the equations of a block when it updates neither the block nor any of its
successors. -/
theorem holds_pass_of_not_succ {l : List Nat} {b : Nat} (hb : b ∉ l)
    (hs : ∀ x ∈ l, x ∉ p.graph.succs b) : ∀ {st : Flow p.n}, Holds p st b →
      Holds p (p.pass l st).2 b := by
  induction l with
  | nil => intro st hh; exact hh
  | cons x l ih =>
    intro st hh
    have hbx : b ≠ x := fun h => hb (h ▸ List.mem_cons_self)
    rw [pass_cons]
    exact ih (fun h => hb (List.mem_cons_of_mem x h))
      (fun y hy => hs y (List.mem_cons_of_mem x hy))
      (holds_update_other hbx hh (.inl (hs x List.mem_cons_self)))

/-- A pass in which every block comes after its successors, and no block is its own successor,
leaves the equations of all its blocks holding. -/
theorem holds_pass_of_succs_first (hwf : p.graph.WellFormed) {l : List Nat}
    (hl : ∀ b ∈ l, b < p.graph.blockCount) (hnd : l.Nodup)
    (hord : l.Pairwise fun a b => b ∉ p.graph.succs a) (hloop : ∀ b ∈ l, b ∉ p.graph.succs b) :
    ∀ {st : Flow p.n}, Approx p st → ∀ b ∈ l, Holds p (p.pass l st).2 b := by
  induction l with
  | nil => intro st _ b hb; exact absurd hb List.not_mem_nil
  | cons x l ih =>
    intro st ha b hb
    obtain ⟨hxl, hndl⟩ := List.nodup_cons.mp hnd
    obtain ⟨hxs, hordl⟩ := List.pairwise_cons.mp hord
    have hx : x < p.graph.blockCount := hl x List.mem_cons_self
    rw [pass_cons]
    rcases List.mem_cons.mp hb with rfl | hb
    · -- the first block is settled by its own update, and nothing after it touches its successors
      have hself : Holds p (p.update st b).2 b :=
        holds_update_self (ha.ins_size ▸ hx) (ha.outs_size ▸ hx)
          (.inl (hloop b List.mem_cons_self))
      exact holds_pass_of_not_succ hxl (fun y hy => hxs y hy) hself
    · exact ih (fun y hy => hl y (List.mem_cons_of_mem x hy)) hndl hordl
        (fun y hy => hloop y (List.mem_cons_of_mem x hy)) (approx_update hwf ha x) b hb

/-- Sweeping from a state where the equations of every block of the order hold stops after one
sweep, which changes nothing. -/
theorem SweepsTo.of_holds {order : List Nat} {st st' : Flow p.n} (h : p.SweepsTo order st st')
    (hh : ∀ b ∈ order, Holds p st b) : st'.sweeps = st.sweeps ++ [false] ∧ SameSets st st' := by
  obtain ⟨hc, hsame⟩ := pass_of_holds hh
  cases h with
  | last _ =>
    refine ⟨?_, hsame⟩
    rw [(counters_sweep order st).2, sweep_fst, hc]
  | more hc' _ =>
    rw [sweep_fst, hc] at hc'
    cases hc'

/-- Passes keep the list of sweeps. -/
theorem SettlesTo.sweeps_eq {bbs : List Nat} {st st' : Flow p.n} {k : Nat}
    (h : p.SettlesTo bbs st k st') : st'.sweeps = st.sweeps := by
  induction h with
  | last => exact (counters_pass bbs _).2
  | more _ _ ih => exact ih.trans (counters_pass bbs _).2

theorem SettlesAll.sweeps_eq {cs : List (List Nat)} {st st' : Flow p.n} {ks : List Nat}
    (h : p.SettlesAll cs st ks st') : st'.sweeps = st.sweeps := by
  induction h with
  | nil => rfl
  | cons hc _ ih => exact ih.trans hc.sweeps_eq

/-- Settling one component leaves the equations of its blocks holding, and keeps those of a block
outside it none of whose successors is in it. -/
theorem SettlesTo.holds (hwf : p.graph.WellFormed) {bbs : List Nat}
    (hl : ∀ b ∈ bbs, b < p.graph.blockCount) {st st' : Flow p.n} {k : Nat}
    (h : p.SettlesTo bbs st k st') (ha : Approx p st) (b : Nat)
    (hb : b ∈ bbs ∨ (Holds p st b ∧ b ∉ bbs ∧ ∀ x ∈ bbs, x ∉ p.graph.succs b)) :
    Holds p st' b := by
  induction h with
  | last hc => exact holds_pass hwf hl ha hc b (hb.imp_right fun h => h.1)
  | more _ _ ih =>
    refine ih (approx_pass hwf bbs ha) (hb.imp_right fun ⟨hh, hnb, hs⟩ => ?_)
    exact ⟨holds_pass_of_not_succ hnb hs hh, hnb, hs⟩

/-- Settling components in turn, when no block of a component has a successor in a later one,
leaves the equations of every block of every component holding, and keeps those of a block outside
them none of whose successors is in one. -/
theorem SettlesAll.holds (hwf : p.graph.WellFormed) {cs : List (List Nat)} {st st' : Flow p.n}
    {ks : List Nat} (h : p.SettlesAll cs st ks st') (ha : Approx p st)
    (hl : ∀ c ∈ cs, ∀ b ∈ c, b < p.graph.blockCount)
    (hord : cs.Pairwise fun c d => ∀ b ∈ c, b ∉ d ∧ ∀ s ∈ p.graph.succs b, s ∉ d) (b : Nat)
    (hb : (∃ c ∈ cs, b ∈ c) ∨
      (Holds p st b ∧ ∀ c ∈ cs, b ∉ c ∧ ∀ s ∈ p.graph.succs b, s ∉ c)) :
    Holds p st' b := by
  induction h with
  | nil =>
    rcases hb with ⟨c, hc, _⟩ | ⟨hh, _⟩
    · exact absurd hc List.not_mem_nil
    · exact hh
  | @cons c cs st st₁ st' k ks hc _ ih =>
    have hlc : ∀ x ∈ descending c, x < p.graph.blockCount :=
      fun x hx => hl c List.mem_cons_self x (mem_descending.mp hx)
    obtain ⟨hlater, hordl⟩ := List.pairwise_cons.mp hord
    refine ih (hc.approx hwf ha) (fun d hd => hl d (List.mem_cons_of_mem c hd)) hordl ?_
    rcases hb with ⟨d, hd, hbd⟩ | ⟨hh, hout⟩
    · rcases List.mem_cons.mp hd with rfl | hd
      · -- a block of the first component holds once it is settled, and no later one touches it
        have hh₁ := hc.holds hwf hlc ha b (.inl (mem_descending.mpr hbd))
        exact .inr ⟨hh₁, fun e he => hlater e he b hbd⟩
      · exact .inl ⟨d, hd, hbd⟩
    · obtain ⟨hbc, hsc⟩ := hout c List.mem_cons_self
      have hh₁ := hc.holds hwf hlc ha b
        (.inr ⟨hh, fun h => hbc (mem_descending.mp h),
          fun x hx hs => hsc x hs (mem_descending.mp hx)⟩)
      exact .inr ⟨hh₁, fun e he => hout e (List.mem_cons_of_mem c he)⟩

end Problem

end RegisterLiveness
