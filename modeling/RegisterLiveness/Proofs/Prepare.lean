import RegisterLiveness.Proofs.Members
import RegisterLiveness.Proofs.Order
import RegisterLiveness.Proofs.Validate
import RegisterLiveness.Analysis.Summary

/-!
# Preparing an analysis

On sets of operand indices, an instruction with access `a` turns the operands live after it
into `a.liveBefore al X`: its definitions leave unless always live, then its uses join. A block
transfers liveness by composing these from its last instruction to its first,
`Decoder.transferRange`.

`Problem.prepare` records, for every block, a summary `X ↦ (X \ defs) ∪ uses`, and for every
instruction its effect. `prepare_eq_ok` proves that on a checked graph, with operands and a
decoder inside the universe, it succeeds and records exactly these transfers
(`Problem.Prepared`): a summary is the composition of its block's instruction transfers, and
each effect transfers as its instruction does.
-/

namespace RegisterLiveness

open OperandSet (listSet)

theorem except_ok_bind {ε α β : Type} (a : α) (f : α → Except ε β) :
    (Except.ok a >>= f) = f a :=
  rfl

namespace Access

/-- The operands live right before an instruction with this access, from those live after it:
its definitions are removed unless always live, then its uses are added. -/
def liveBefore (al : Set ℕ) (a : Access) (X : Set ℕ) : Set ℕ :=
  {r | (r ∈ X ∧ ((r : Int) ∉ a.defs ∨ r ∈ al)) ∨ (r : Int) ∈ a.uses}

theorem liveBefore_mono (al : Set ℕ) (a : Access) {X Y : Set ℕ} (h : X ⊆ Y) :
    a.liveBefore al X ⊆ a.liveBefore al Y := by
  rintro r (⟨hr, hd⟩ | hu)
  · exact .inl ⟨h hr, hd⟩
  · exact .inr hu

end Access

namespace Effect

variable {n : Nat}

/-- Removing the listed operands that are not always live removes their indices. -/
theorem toSet_foldl_erase (al : OperandSet n) (l : List (Fin n)) (s : OperandSet n) :
    (l.foldl (fun s r => if r ∈ al then s else s.erase r) s).toSet =
      s.toSet \ (listSet l \ al.toSet) := by
  induction l generalizing s with
  | nil => simp
  | cons x l ih =>
    rw [List.foldl_cons, ih, OperandSet.listSet_cons]
    split
    · rw [Set.insert_sdiff_of_mem _ (OperandSet.val_mem_toSet.mpr ‹_›)]
    · rw [Set.insert_sdiff_of_notMem _ (fun h => ‹x ∉ al› (OperandSet.val_mem_toSet.mp h)),
        OperandSet.toSet_erase, Set.sdiff_sdiff, Set.singleton_union]

/-- The transfer of an instruction, on sets of indices. -/
theorem toSet_transfer (al : OperandSet n) (e : Effect n) (X : OperandSet n) :
    (e.transfer al X).toSet =
      {r | (r ∈ X.toSet ∧ (r ∉ listSet e.defs ∨ r ∈ al.toSet)) ∨
        r ∈ listSet e.uses} := by
  simp only [transfer, OperandSet.toSet_foldl_insert, toSet_foldl_erase]
  ext r
  simp only [Set.mem_union, Set.mem_sdiff, Set.mem_ofPred_eq]
  by_cases hd : r ∈ listSet e.defs <;> by_cases ha : r ∈ al.toSet <;> simp [hd, ha]

end Effect

namespace Summary

variable {n : Nat}

/-- The block transfer, on sets of indices. -/
def applySet (s : Summary n) (X : Set ℕ) : Set ℕ := (X \ s.defs.toSet) ∪ s.uses.toSet

@[simp] theorem toSet_apply (s : Summary n) (X : OperandSet n) :
    (s.apply X).toSet = s.applySet X.toSet := by
  simp [apply, applySet]

@[simp] theorem applySet_id (X : Set ℕ) : (Summary.id : Summary n).applySet X = X := by
  simp [applySet, Summary.id]

theorem applySet_mono (s : Summary n) {X Y : Set ℕ} (h : X ⊆ Y) :
    s.applySet X ⊆ s.applySet Y :=
  Set.union_subset_union_left _ (Set.sdiff_subset_sdiff_left h)

/-- Folding the definitions of an instruction into a summary adds the ones that are not always
live to its kills and removes them from its uses. -/
theorem toSet_foldl_kill (al : OperandSet n) (l : List (Fin n)) (d u : OperandSet n) :
    let acc := l.foldl (fun (acc : OperandSet n × OperandSet n) r =>
      if r ∈ al then acc else (acc.1.insert r, acc.2.erase r)) (d, u)
    acc.1.toSet = d.toSet ∪ (listSet l \ al.toSet) ∧
      acc.2.toSet = u.toSet \ (listSet l \ al.toSet) := by
  induction l generalizing d u with
  | nil => simp
  | cons x l ih =>
    simp only [List.foldl_cons, OperandSet.listSet_cons]
    split
    · rw [Set.insert_sdiff_of_mem _ (OperandSet.val_mem_toSet.mpr ‹_›)]
      exact ih d u
    · have hx : x.val ∉ al.toSet := fun h => ‹x ∉ al› (OperandSet.val_mem_toSet.mp h)
      obtain ⟨h₁, h₂⟩ := ih (d.insert x) (u.erase x)
      rw [Set.insert_sdiff_of_notMem _ hx]
      refine ⟨h₁.trans ?_, h₂.trans ?_⟩
      · rw [OperandSet.toSet_insert, Set.insert_union, Set.union_insert]
      · rw [OperandSet.toSet_erase, Set.sdiff_sdiff, Set.singleton_union]

/-- Putting an instruction in front of a summary applies its transfer after the summary's. -/
theorem applySet_prepend (al : OperandSet n) (s : Summary n) (e : Effect n) (X : Set ℕ) :
    (s.prepend al e).applySet X =
      {r | (r ∈ s.applySet X ∧ (r ∉ listSet e.defs ∨ r ∈ al.toSet)) ∨
        r ∈ listSet e.uses} := by
  obtain ⟨h₁, h₂⟩ := toSet_foldl_kill al e.defs s.defs s.uses
  simp only [prepend, applySet, OperandSet.toSet_foldl_insert] at h₁ h₂ ⊢
  rw [h₁, h₂]
  ext r
  simp only [Set.mem_union, Set.mem_sdiff, Set.mem_ofPred_eq]
  by_cases hd : r ∈ listSet e.defs <;> by_cases ha : r ∈ al.toSet <;>
    by_cases hk : r ∈ s.defs.toSet <;> simp [hd, ha, hk, or_assoc]

end Summary
namespace Decoder

/-- The access decoded at `pc`, or no access when decoding aborts. -/
def accessAt (d : Decoder) (pc : Nat) : Access :=
  match d pc with
  | .ok a => a
  | .error _ => {}

/-- Every offset below `ni` decodes, to operands of the universe `[0, n)`. -/
def Decodes (d : Decoder) (ni n : Nat) : Prop :=
  ∀ pc < ni, ∃ a, d pc = .ok a ∧ ∀ r ∈ a.defs ++ a.uses, 0 ≤ r ∧ r < n

/-- The transfer of the instructions `[lo, hi)`, composed from the last down to the first. -/
def transferRange (d : Decoder) (al : Set ℕ) (lo hi : Nat) (X : Set ℕ) : Set ℕ :=
  (List.range' lo (hi - lo)).foldr (fun pc X => (d.accessAt pc).liveBefore al X) X

theorem accessAt_of_eq_ok {d : Decoder} {pc : Nat} {a : Access} (h : d pc = .ok a) :
    d.accessAt pc = a := by
  simp [accessAt, h]

end Decoder

namespace Problem

/-- Checking operands one by one succeeds exactly on those of the universe, keeping their
indices. -/
theorem mapM_operand_eq_ok {n : Nat} {f : Error → Error} {l : List Int} {l' : List (Fin n)}
    (h : l.mapM (fun r => (operand n r).mapError f) = .ok l') :
    listSet l' = {r : ℕ | (r : Int) ∈ l} := by
  induction l generalizing l' with
  | nil =>
    simp only [List.mapM_nil, pure, Except.pure, Except.ok.injEq] at h
    subst h
    simp
  | cons r l ih =>
    rw [List.mapM_cons] at h
    obtain ⟨x, hx, h⟩ := except_bind_eq_ok.mp h
    obtain ⟨xs, hxs, h⟩ := except_bind_eq_ok.mp h
    simp only [pure, Except.pure, Except.ok.injEq] at h
    subst h
    by_cases hr : 0 ≤ r ∧ r.toNat < n
    · simp only [operand, hr, and_self, dite_true, Except.mapError, Except.ok.injEq] at hx
      subst hx
      rw [OperandSet.listSet_cons, ih hxs]
      ext m
      simp only [Set.mem_insert_iff, Set.mem_ofPred_eq, List.mem_cons]
      have hm : m = r.toNat ↔ (m : Int) = r := by omega
      rw [hm]
    · simp [operand, hr, Except.mapError] at hx

theorem mapM_operand_ok {n : Nat} (f : Error → Error) {l : List Int}
    (h : ∀ r ∈ l, 0 ≤ r ∧ r < n) :
    ∃ l', l.mapM (fun r => (operand n r).mapError f) = .ok l' := by
  induction l with
  | nil => exact ⟨[], rfl⟩
  | cons r l ih =>
    obtain ⟨l', hl'⟩ := ih fun r' hr' => h r' (List.mem_cons_of_mem _ hr')
    have hr := h r List.mem_cons_self
    have hop : operand n r = .ok ⟨r.toNat, by omega⟩ := by
      simp only [operand]
      rw [dif_pos (by omega)]
    refine ⟨⟨r.toNat, by omega⟩ :: l', ?_⟩
    rw [List.mapM_cons, hop, hl']
    rfl

/-- A checked access keeps the indices of its definitions and uses. -/
theorem listSet_of_checkAccess {n pc : Nat} {a : Access} {e : Effect n}
    (h : checkAccess n pc a = .ok e) :
    listSet e.defs = {r : ℕ | (r : Int) ∈ a.defs} ∧
      listSet e.uses = {r : ℕ | (r : Int) ∈ a.uses} := by
  simp only [checkAccess] at h
  obtain ⟨defs, hd, h⟩ := except_bind_eq_ok.mp h
  obtain ⟨uses, hu, h⟩ := except_bind_eq_ok.mp h
  simp only [pure, Except.pure, Except.ok.injEq] at h
  subst h
  exact ⟨mapM_operand_eq_ok hd, mapM_operand_eq_ok hu⟩

/-- A checked access transfers liveness as the access says. -/
theorem transfer_of_checkAccess {n pc : Nat} {a : Access} {e : Effect n}
    (h : checkAccess n pc a = .ok e) (al : OperandSet n) (X : OperandSet n) :
    (e.transfer al X).toSet = a.liveBefore al.toSet X.toSet := by
  obtain ⟨hd, hu⟩ := listSet_of_checkAccess h
  rw [Effect.toSet_transfer, hd, hu]
  rfl

/-- A checked access put in front of a summary applies its transfer after the summary's. -/
theorem applySet_prepend_of_checkAccess {n pc : Nat} {a : Access} {e : Effect n}
    (h : checkAccess n pc a = .ok e) (al : OperandSet n) (s : Summary n) (X : Set ℕ) :
    (s.prepend al e).applySet X = a.liveBefore al.toSet (s.applySet X) := by
  obtain ⟨hd, hu⟩ := listSet_of_checkAccess h
  rw [Summary.applySet_prepend, hd, hu]
  rfl

theorem checkAccess_ok {n : Nat} (pc : Nat) {a : Access}
    (h : ∀ r ∈ a.defs ++ a.uses, 0 ≤ r ∧ r < n) :
    ∃ e : Effect n, checkAccess n pc a = .ok e := by
  obtain ⟨defs, hd⟩ := mapM_operand_ok (n := n) (.context s!"definition at instruction {pc}")
    (l := a.defs) fun r hr => h r (List.mem_append_left _ hr)
  obtain ⟨uses, hu⟩ := mapM_operand_ok (n := n) (.context s!"usage at instruction {pc}")
    (l := a.uses) fun r hr => h r (List.mem_append_right _ hr)
  refine ⟨⟨defs, uses⟩, ?_⟩
  simp only [checkAccess, hd, hu]
  rfl

variable {n : Nat} {al : OperandSet n} {d : Decoder}

/-- The effect stored at offset `q` transfers liveness as the decoder says. -/
def EffectAt (d : Decoder) (al : OperandSet n) (effects : Array (Effect n)) (q : Nat) : Prop :=
  ∀ X : OperandSet n,
    ((effects.getD q ⟨[], []⟩).transfer al X).toSet = (d.accessAt q).liveBefore al.toSet X.toSet

variable (al) in
/-- Summarizing offsets that all decode succeeds; the summary applies their transfers in the order
given after the starting one, and each offset's effect is recorded. -/
theorem summarize_eq_ok {pcs : List Nat}
    (hd : ∀ pc ∈ pcs, ∃ a, d pc = .ok a ∧ ∀ r ∈ a.defs ++ a.uses, 0 ≤ r ∧ r < n)
    (effects : Array (Effect n)) (s : Summary n) :
    ∃ effects' s', summarize n al d pcs (effects, s) = .ok (effects', s') ∧
      (∀ X, s'.applySet X =
        pcs.foldl (fun X pc => (d.accessAt pc).liveBefore al.toSet X) (s.applySet X)) ∧
      effects'.size = effects.size ∧
      (∀ q, EffectAt d al effects q → EffectAt d al effects' q) ∧
      (∀ q ∈ pcs, q < effects.size → EffectAt d al effects' q) := by
  induction pcs generalizing effects s with
  | nil =>
    exact ⟨effects, s, rfl, fun _ => rfl, rfl, fun _ h => h, fun _ h => absurd h List.not_mem_nil⟩
  | cons pc pcs ih =>
    obtain ⟨a, ha, hr⟩ := hd pc List.mem_cons_self
    obtain ⟨e, he⟩ := checkAccess_ok (n := n) pc hr
    obtain ⟨effects', s', hsum, happ, hsize, hkeep, hset⟩ :=
      ih (fun q hq => hd q (List.mem_cons_of_mem _ hq)) (effects.setIfInBounds pc e)
        (s.prepend al e)
    have hpc : EffectAt d al (effects.setIfInBounds pc e) pc ∨ effects.size ≤ pc := by
      by_cases hlt : pc < effects.size
      · refine .inl fun X => ?_
        rw [getD_setIfInBounds, if_pos ⟨rfl, hlt⟩, transfer_of_checkAccess he,
          Decoder.accessAt_of_eq_ok ha]
      · exact .inr (Nat.le_of_not_lt hlt)
    refine ⟨effects', s', ?_, fun X => ?_, by simpa using hsize, fun q hq => hkeep q fun X => ?_,
      fun q hq hlt => ?_⟩
    · simp only [summarize, Failure.ofAbort, ha, bind, Except.bind, Failure.ofError,
        Except.mapError, he]
      exact hsum
    · rw [happ, List.foldl_cons, applySet_prepend_of_checkAccess he, Decoder.accessAt_of_eq_ok ha]
    · rw [getD_setIfInBounds]
      split
      · rename_i hq'
        obtain ⟨rfl, hlt⟩ := hq'
        rw [transfer_of_checkAccess he, Decoder.accessAt_of_eq_ok ha]
      · exact hq X
    · rcases List.mem_cons.mp hq with rfl | hq
      · exact hkeep q (hpc.resolve_right (Nat.not_le_of_lt hlt))
      · exact hset q hq (by simpa using hlt)

/-- Collecting always-live operands of the universe adds their indices. -/
theorem forIn_alwaysLive_eq_ok {e : Nat → Failure} {l : List Nat} (hl : ∀ r ∈ l, r < n)
    (al : OperandSet n) :
    ∃ al', (forIn l al fun r al =>
      if h : r < n then pure (ForInStep.yield (al.insert ⟨r, h⟩))
      else do throw (e r); pure (ForInStep.yield al) : Except Failure (OperandSet n)) = .ok al' ∧
      al'.toSet = al.toSet ∪ {r | r ∈ l} := by
  induction l generalizing al with
  | nil => exact ⟨al, rfl, by simp⟩
  | cons r l ih =>
    have hr := hl r List.mem_cons_self
    obtain ⟨al', h, hset⟩ :=
      ih (fun r' hr' => hl r' (List.mem_cons_of_mem _ hr')) (al.insert ⟨r, hr⟩)
    refine ⟨al', ?_, ?_⟩
    · rw [List.forIn_cons, dif_pos hr]
      exact h
    · rw [hset, OperandSet.toSet_insert]
      ext m
      simp only [Set.mem_union, Set.mem_insert_iff, Set.mem_ofPred_eq, List.mem_cons]
      tauto

/-- Every offset of the listed blocks decodes, to operands of the universe. -/
def BlocksDecode (d : Decoder) (n : Nat) (bs : List Block) : Prop :=
  ∀ b ∈ bs, ∀ pc ∈ offsetsDown b,
    ∃ a, d pc = .ok a ∧ ∀ r ∈ a.defs ++ a.uses, 0 ≤ r ∧ r < n

/-- The transfer of a block's instructions, on sets of indices. -/
theorem foldl_offsetsDown (b : Block) (X : Set ℕ) :
    (offsetsDown b).foldl (fun X pc => (d.accessAt pc).liveBefore al.toSet X) X =
      d.transferRange al.toSet b.start b.stop X := by
  simp [offsetsDown, Decoder.transferRange, List.foldl_reverse, Block.size]

variable (al) in
/-- Summarizing the listed blocks one after the other: summaries are appended in order, and every
offset of every block gets its effect. -/
theorem forIn_blocks_eq_ok {bs : List Block} (hbs : BlocksDecode d n bs)
    (effects : Array (Effect n)) (summaries : Array (Summary n)) :
    ∃ effects' summaries', (forIn bs (effects, summaries) fun b st =>
      have effects := st.fst
      have summaries := st.snd
      do
      let x ← summarize n al d (offsetsDown b) (effects, Summary.id)
      match x with
      | (es, s) =>
        have effects := es
        have summaries := summaries.push s
        pure (ForInStep.yield (effects, summaries))) = .ok (effects', summaries') ∧
      summaries'.size = summaries.size + bs.length ∧
      (∀ i < summaries.size, summaries'.getD i .id = summaries.getD i .id) ∧
      (∀ i (hi : i < bs.length), ∀ X, (summaries'.getD (summaries.size + i) .id).applySet X =
        d.transferRange al.toSet bs[i].start bs[i].stop X) ∧
      effects'.size = effects.size ∧
      (∀ q, EffectAt d al effects q → EffectAt d al effects' q) ∧
      (∀ b ∈ bs, ∀ q ∈ offsetsDown b, q < effects.size → EffectAt d al effects' q) := by
  induction bs generalizing effects summaries with
  | nil =>
    exact ⟨effects, summaries, rfl, rfl, fun _ _ => rfl,
      fun i hi => absurd hi (Nat.not_lt_zero _),
      rfl, fun _ h => h, fun _ hb => absurd hb List.not_mem_nil⟩
  | cons b bs ih =>
    obtain ⟨es, s, hsum, happ, hsize, hkeep, hset⟩ :=
      summarize_eq_ok al (hbs b List.mem_cons_self) effects Summary.id
    obtain ⟨effects', summaries', hfor, hsz, hpre, hnew, hesz, hekeep, heset⟩ :=
      ih (fun b' hb' => hbs b' (List.mem_cons_of_mem _ hb')) es (summaries.push s)
    refine ⟨effects', summaries', ?_, ?_, fun i hi => ?_, fun i hi X => ?_, hesz.trans hsize,
      fun q hq => hekeep q (hkeep q hq), fun b' hb' q hq hlt => ?_⟩
    · rw [List.forIn_cons]
      simp only [hsum, bind, Except.bind]
      exact hfor
    · simp only [hsz, Array.size_push, List.length_cons]
      omega
    · rw [hpre i (by simp; omega)]
      simp [Array.getD_eq_getD_getElem?, Array.getElem?_push, Nat.ne_of_lt hi]
    · cases i with
      | zero =>
        rw [Nat.add_zero, hpre summaries.size (by simp)]
        simp only [Array.getD_eq_getD_getElem?, Array.getElem?_push_size, Option.getD_some,
          happ, Summary.applySet_id, foldl_offsetsDown, List.getElem_cons_zero]
      | succ i =>
        have := hnew i (by simpa using hi) X
        simp only [Array.size_push] at this
        rw [show summaries.size + (i + 1) = summaries.size + 1 + i by omega, this]
        rfl
    · rcases List.mem_cons.mp hb' with rfl | hb'
      · exact hekeep q (hset q hq hlt)
      · exact heset b' hb' q hq (by omega)

/-- What a prepared analysis holds for the checked graph `g` and the decoder `d`: each block's
summary is the composed transfer of its instructions, and each instruction's step is its own
transfer. -/
structure Prepared (p : Problem) (g : FlowGraph) (d : Decoder) : Prop where
  graph_eq : p.graph = g
  wellFormed : g.WellFormed
  summaries_size : p.summaries.size = g.blockCount
  applySet_summary : ∀ bb < g.blockCount, ∀ X, (p.summaries.getD bb .id).applySet X =
    d.transferRange p.alwaysLive.toSet (g.block bb).start (g.block bb).stop X
  toSet_step : ∀ pc < g.instrCount, ∀ X,
    (p.step pc X).toSet = (d.accessAt pc).liveBefore p.alwaysLive.toSet X.toSet

/-- An analysis of a graph that validates, with an operand count, always-live operands of the
universe and a decoder that decodes every offset into the universe, is prepared. -/
theorem prepare_eq_ok {rg : RawGraph} {g : FlowGraph} {o : Options} (hg : rg.validate = .ok g)
    (hn : o.operandCount = some n) (hal : ∀ r ∈ o.alwaysLive, r < n)
    (hd : d.Decodes g.instrCount n) :
    ∃ p, prepare rg d o = .ok p ∧ p.Prepared g d ∧ p.n = n ∧
      p.alwaysLive.toSet = {r | r ∈ o.alwaysLive} ∧ p.schedule = o.schedule ∧
      p.verify = o.verify := by
  have wf := Cfg.validate_wellFormed hg
  obtain ⟨al, hfor, hal'⟩ := forIn_alwaysLive_eq_ok
    (e := fun r => .error (.context "liveness" (.outOfRange "always-live operand" r n))) hal .empty
  rw [OperandSet.toSet_empty, Set.empty_union] at hal'
  have hblocks : BlocksDecode d n g.blocks.toList := by
    intro b hb pc hpc
    obtain ⟨bb, hbb⟩ := List.mem_iff_getElem?.mp hb
    obtain ⟨rfl, hlt⟩ := FlowGraph.block_eq_of_getElem? (by simpa using hbb)
    have hstop := wf.stop_le bb hlt
    simp only [offsetsDown, List.mem_reverse, List.mem_range'_1, Block.size] at hpc
    exact hd pc (by omega)
  obtain ⟨effects, summaries, hfor', hsz, -, happ, hesz, -, heset⟩ :=
    forIn_blocks_eq_ok al hblocks (Array.replicate g.instrCount ⟨[], []⟩) #[]
  refine ⟨⟨n, g, al, effects, summaries, o.schedule, o.verify⟩, ?_, ⟨rfl, wf, ?_, ?_, ?_⟩,
    rfl, hal', rfl, rfl⟩
  · simp only [prepare, hn, hg, Failure.ofError, Except.mapError, except_ok_bind]
    rw [hfor, except_ok_bind, ← Array.forIn_toList, hfor', except_ok_bind]
    rfl
  · simpa [FlowGraph.blockCount] using hsz
  · intro bb hbb X
    have hlt : bb < g.blocks.size := hbb
    have := happ bb (by simpa using hlt) X
    simp only [Array.size_empty, Nat.zero_add, Array.getElem_toList] at this
    simpa [FlowGraph.block, hlt] using this
  · intro pc hpc X
    obtain ⟨bb, hown⟩ := wf.covered pc hpc
    have hlt : bb < g.blocks.size := hown.1
    have hb : g.block bb ∈ g.blocks.toList := by
      rw [show g.block bb = g.blocks[bb] by simp [FlowGraph.block, hlt]]
      exact Array.mem_toList_iff.mpr (Array.getElem_mem hlt)
    apply heset _ hb pc ?_ (by simpa using hpc)
    simp only [offsetsDown, List.mem_reverse, List.mem_range'_1, Block.size]
    obtain ⟨-, h₁, h₂⟩ := hown
    omega

end Problem

end RegisterLiveness
