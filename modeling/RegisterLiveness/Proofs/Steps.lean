import RegisterLiveness.Proofs.Lockstep

/-!
# What one step reads, writes and where it goes

The decoder of a program (`Program.access`) and the control-flow flags of an instruction
(`Instr.targets`, `Instr.fallsThrough`, `Instr.isTerminator`) are written apart from the machine
that runs the instruction. Here they are checked against the machine, one step at a time
(`step_agrees_with_access`). A step that succeeds reads exactly the registers the decoder reports
as used, in order and at the instruction's offset. It changes no register outside those the
decoder reports as defined, and the values it writes are the same from every machine with the same
arguments and the same values in the registers read. Control goes to a branch target, to the next
instruction when the instruction falls through, or out of the program after `ret` or `halt`.

Two kinds of statement carry the argument. `Ensures P Q x` says that every successful run of `x`
from a state in `P` ends in `Q`; with `Partway`, what an instruction has read and written so far,
it gives the reads, the frame and the control flow (`exec_ensures`). `Determined R S x` says that
two successful runs from states related by `R` return the same value in states related by `S`;
with `Agrees`, the values two machines share, it gives the values written (`exec_determined`).
Each has one rule per access to the machine, and the instruction lemmas chain them.
-/

namespace RegisterLiveness

namespace Machine

variable {α β : Type}

/-! ### Successful runs -/

/-- Every successful run of `x` from a state satisfying `P` ends in a state satisfying `Q`, with
its value. -/
def Ensures (P : Machine → Prop) (Q : α → Machine → Prop) (x : Exec α) : Prop :=
  ∀ m a m', P m → x.run m = .ok a m' → Q a m'

section Ensures

variable {P : Machine → Prop} {Q : α → Machine → Prop}

theorem ensures_pure {a : α} (h : ∀ m, P m → Q a m) : Ensures P Q (pure a) := by
  intro m b m' hP hrun
  rw [EStateM.run_pure] at hrun
  injection hrun with ha hm
  subst ha hm
  exact h m hP

theorem Ensures.bind {R : β → Machine → Prop} {x : Exec α} {f : α → Exec β}
    (hx : Ensures P Q x) (hf : ∀ a, Ensures (Q a) R (f a)) : Ensures P R (x >>= f) := by
  intro m b m' hP hrun
  rw [EStateM.run_bind] at hrun
  cases hx' : x.run m with
  | ok a s =>
    rw [hx'] at hrun
    exact hf a s b m' (hx m a s hP hx') hrun
  | error e s =>
    rw [hx'] at hrun
    cases hrun

theorem Ensures.post {R : α → Machine → Prop} {x : Exec α} (hx : Ensures P Q x)
    (h : ∀ a m, Q a m → R a m) : Ensures P R x :=
  fun m a m' hP hrun => h a m' (hx m a m' hP hrun)

theorem ensures_throw {e : Abort} : Ensures P Q (throw e : Exec α) :=
  fun _ _ _ _ hrun => nomatch hrun

/-- Looking at the machine changes nothing. -/
theorem ensures_get {f : Machine → Exec α} (h : ∀ m, Ensures P Q (f m)) :
    Ensures P Q (get >>= f) := by
  intro m a m' hP hrun
  simp only [EStateM.run_bind, EStateM.run_get] at hrun
  exact h m m a m' hP hrun

end Ensures

/-- A machine partway through the instruction begun at `m₀`: it has read the registers `rs`, in
order and at the instruction's offset, and written no register outside `W`; its register file has
kept its size, and control is at `c` with the continuation flag `l`. -/
structure Partway (m₀ : Machine) (rs : List Register) (W : Set ℕ) (c : Int) (l : Bool)
    (m : Machine) : Prop where
  reads : m.reads.toList = m₀.reads.toList ++ rs.map fun r => (m₀.pc, r)
  frame : ∀ r ∉ W, m.regs[r]? = m₀.regs[r]?
  size : m.regs.size = m₀.regs.size
  pc : m.pc = c
  ln : m.ln = l

section Partway

variable {m₀ m : Machine} {rs : List Register} {W : Set ℕ} {c : Int} {l : Bool}
  {r : Register} {v : Int64}

/-- What has been read is a list and what has been written a bound, so either may be restated. -/
theorem Partway.mono {rs' : List Register} {W' : Set ℕ} (h : Partway m₀ rs W c l m)
    (hrs : rs = rs') (hW : W ⊆ W') : Partway m₀ rs' W' c l m :=
  { h with
    reads := hrs ▸ h.reads
    frame := fun r hr => h.frame r fun hw => hr (hW hw) }

theorem partway_start (m₀ : Machine) : Partway m₀ [] ∅ m₀.pc m₀.ln m₀ :=
  ⟨by simp, fun _ _ => rfl, rfl, rfl, rfl⟩

theorem partway_read :
    Ensures (Partway m₀ rs W m₀.pc l) (fun _ => Partway m₀ (rs ++ [r]) W m₀.pc l) (read r) := by
  intro m a m' h hrun
  cases hv : m.regs[r]? with
  | none =>
    rw [run_read_of_size_le (Array.getElem?_eq_none_iff.mp hv)] at hrun
    cases hrun
  | some v =>
    rw [run_read_of_getElem? hv] at hrun
    injection hrun with _ hm
    subst hm
    exact { h with reads := by simp [h.reads, h.pc] }

theorem partway_write :
    Ensures (Partway m₀ rs W c l) (fun _ => Partway m₀ rs (insert r W) c l) (write r v) := by
  intro m a m' h hrun
  by_cases hr : r < m.regs.size
  · rw [run_write_of_lt hr] at hrun
    injection hrun with _ hm
    subst hm
    refine { h with frame := fun r' hr' => ?_, size := by simp [h.size] }
    have hne : r ≠ r' := fun he => hr' (he ▸ Set.mem_insert r W)
    rw [Array.getElem?_set, if_neg hne]
    exact h.frame r' fun hw => hr' (Set.mem_insert_of_mem r hw)
  · rw [run_write_of_size_le (Nat.le_of_not_lt hr)] at hrun
    cases hrun

theorem partway_jump (dst : Int) :
    Ensures (Partway m₀ rs W c l) (fun _ => Partway m₀ rs W dst false) (jump dst) := by
  intro m a m' h hrun
  rw [run_jump] at hrun
  injection hrun with _ hm
  subst hm
  exact { h with pc := rfl, ln := rfl }

theorem partway_setRv :
    Ensures (Partway m₀ rs W c l) (fun _ => Partway m₀ rs W c l)
      (modify fun m => { m with rv := v }) := by
  intro m a m' h hrun
  rw [EStateM.run_modify] at hrun
  injection hrun with _ hm
  subst hm
  exact ⟨h.reads, h.frame, h.size, h.pc, h.ln⟩

theorem partway_mapM_read (ar : List Register) :
    Ensures (Partway m₀ rs W m₀.pc l) (fun _ => Partway m₀ (rs ++ ar) W m₀.pc l)
      (ar.mapM read) := by
  induction ar generalizing rs with
  | nil => exact ensures_pure fun _ h => by simpa using h
  | cons r ar ih =>
    rw [List.mapM_cons]
    exact partway_read.bind fun _ => ih.bind fun _ => ensures_pure fun _ h => by simpa using h

theorem partway_forM_write (ws : List (Register × Int64)) :
    Ensures (Partway m₀ rs W c l) (fun _ => Partway m₀ rs (W ∪ {r | r ∈ ws.map Prod.fst}) c l)
      (ws.forM fun w => write w.1 w.2) := by
  induction ws generalizing W with
  | nil => exact ensures_pure fun _ h => h.mono rfl fun r hr => by simp [hr]
  | cons w ws ih =>
    simp only [List.forM]
    refine partway_write.bind fun _ => ih.post fun _ _ h => h.mono rfl fun r hr => ?_
    simp only [List.map_cons, List.mem_cons, Set.mem_union, Set.mem_ofPred_eq,
      Set.mem_insert_iff] at hr ⊢
    tauto

end Partway

/-! ### What one instruction does -/

/-- Where control stands after the instruction `i` at `c` ran: still at `c` and continuing, when
`i` falls through; at a branch target after a jump; at `-1`, out of the program, after `ret` or
`halt`. -/
def Leaves (i : Instr) (c c' : Int) (l : Bool) : Prop :=
  (l = true ∧ c' = c ∧ i.fallsThrough) ∨
    (l = false ∧ (c' ∈ i.targets ∨ ((i.opcode? = some .ret ∨ i.opcode? = some .halt) ∧ c' = -1)))

section Leaves

variable {m₀ m : Machine} {rs rs' : List Register} {W W' : Set ℕ} {i : Instr}

theorem Partway.stay (h : Partway m₀ rs W m₀.pc true m) (hf : i.fallsThrough) (hrs : rs = rs')
    (hW : W ⊆ W') : ∃ c l, Leaves i m₀.pc c l ∧ Partway m₀ rs' W' c l m :=
  ⟨m₀.pc, true, .inl ⟨rfl, rfl, hf⟩, h.mono hrs hW⟩

theorem Partway.left {t : Int} (h : Partway m₀ rs W t false m)
    (ht : t ∈ i.targets ∨ ((i.opcode? = some .ret ∨ i.opcode? = some .halt) ∧ t = -1))
    (hrs : rs = rs') (hW : W ⊆ W') : ∃ c l, Leaves i m₀.pc c l ∧ Partway m₀ rs' W' c l m :=
  ⟨t, false, .inr ⟨rfl, ht⟩, h.mono hrs hW⟩

end Leaves

/-- An instruction run from the start reads the registers its access lists as used, in order,
writes only registers its access lists as defined, and leaves control where its flags allow. -/
theorem exec_ensures {i : Instr} {o : Opcode} {a : Access} (calls : CallTable) (m₀ : Machine)
    (hop : i.opcode? = some o) (ha : i.access = .ok a) :
    Ensures (Partway m₀ [] ∅ m₀.pc true)
      (fun _ m => ∃ c l, Leaves i m₀.pc c l ∧
        Partway m₀ (a.uses.map Int.toNat) {r | (r : Int) ∈ a.defs} c l m)
      (exec calls i o) := by
  have hfalls := Instr.fallsThrough_of_opcode hop
  simp only [Instr.access, hop] at ha
  cases o with
  | nop =>
    cases ha
    exact ensures_pure fun _ h => h.stay (hfalls (by simp)) (by simp) (by simp)
  | iq =>
    cases ha
    exact partway_write.post fun _ _ h => h.stay (hfalls (by simp)) (by simp) (by simp)
  | mov =>
    cases ha
    exact partway_read.bind fun _ => partway_write.post fun _ _ h =>
      h.stay (hfalls (by simp)) (by simp) (by simp)
  | add | sub | mul =>
    cases ha
    exact partway_read.bind fun _ => partway_read.bind fun _ => partway_write.post fun _ _ h =>
      h.stay (hfalls (by simp)) (by simp) (by simp)
  | addi =>
    cases ha
    exact partway_read.bind fun _ => partway_write.post fun _ _ h =>
      h.stay (hfalls (by simp)) (by simp) (by simp)
  | ldarg =>
    cases ha
    refine ensures_get fun m => ?_
    dsimp only
    split
    · exact partway_write.post fun _ _ h => h.stay (hfalls (by simp)) (by simp) (by simp)
    · exact ensures_throw
  | beq | bne | blt =>
    cases ha
    have ht : i.targets = [i.br] := by simp [Instr.targets, hop]
    refine partway_read.bind fun x => partway_read.bind fun y => ?_
    split
    · exact (partway_jump i.br).post fun _ _ h =>
        h.left (.inl (by simp [ht])) (by simp) (by simp)
    · exact ensures_pure fun _ h => h.stay (hfalls (by simp)) (by simp) (by simp)
  | jmp =>
    cases ha
    have ht : i.targets = [i.br] := by simp [Instr.targets, hop]
    exact (partway_jump i.br).post fun _ _ h => h.left (.inl (by simp [ht])) (by simp) (by simp)
  | bsw =>
    cases ha
    have ht : i.targets = i.sw := by simp [Instr.targets, hop]
    refine partway_read.bind fun x => ?_
    dsimp only
    split
    · rename_i t htx
      exact (partway_jump t).post fun _ _ h =>
        h.left (.inl (ht ▸ List.mem_of_getElem? htx)) (by simp) (by simp)
    · exact ensures_pure fun _ h => h.stay (hfalls (by simp)) (by simp) (by simp)
  | call =>
    cases ha
    cases hf : calls i.fn with
    | none =>
      simp only [exec, hf]
      exact ensures_throw
    | some f =>
      simp only [exec, hf]
      refine (partway_mapM_read i.ar).bind fun vs => ?_
      split
      · exact ensures_throw
      · rename_i hlen
        -- the function returned one value per result register, so all of them are written
        have hlen : (f vs).length = i.rr.length := by simpa using hlen
        exact (partway_forM_write _).post fun _ _ h =>
          h.stay (hfalls (by simp)) (by simp [Function.comp_def]) fun r hr => by
            simpa [List.map_fst_zip (Nat.le_of_eq hlen.symm)] using hr
  | ret =>
    cases ha
    exact partway_read.bind fun _ => partway_setRv.bind fun _ =>
      (partway_jump (-1)).post fun _ _ h => h.left (.inr ⟨.inl hop, rfl⟩) (by simp) (by simp)
  | halt =>
    cases ha
    exact (partway_jump (-1)).post fun _ _ h => h.left (.inr ⟨.inr hop, rfl⟩) (by simp) (by simp)

/-! ### Two successful runs -/

/-- Two successful runs of `x` from states related by `R` return the same value, in states
related by `S`. -/
def Determined (R S : Machine → Machine → Prop) (x : Exec α) : Prop :=
  ∀ m₁ m₂ a₁ a₂ s₁ s₂, R m₁ m₂ → x.run m₁ = .ok a₁ s₁ → x.run m₂ = .ok a₂ s₂ → a₁ = a₂ ∧ S s₁ s₂

/-- Two machines with the same arguments, and the same value or none in every register of `U`. -/
structure Agrees (U : Set ℕ) (m₁ m₂ : Machine) : Prop where
  args : m₁.args = m₂.args
  regs : ∀ r ∈ U, m₁.regs[r]? = m₂.regs[r]?

section Determined

variable {R S : Machine → Machine → Prop} {U : Set ℕ} {r : Register} {v : Int64}

theorem determined_pure {a : α} (h : ∀ m₁ m₂, R m₁ m₂ → S m₁ m₂) : Determined R S (pure a) := by
  intro m₁ m₂ a₁ a₂ s₁ s₂ hR h₁ h₂
  rw [EStateM.run_pure] at h₁ h₂
  injection h₁ with ha₁ hs₁
  injection h₂ with ha₂ hs₂
  subst ha₁ ha₂ hs₁ hs₂
  exact ⟨rfl, h m₁ m₂ hR⟩

theorem Determined.bind {T : Machine → Machine → Prop} {x : Exec α} {f : α → Exec β}
    (hx : Determined R S x) (hf : ∀ a, Determined S T (f a)) : Determined R T (x >>= f) := by
  intro m₁ m₂ b₁ b₂ s₁ s₂ hR h₁ h₂
  rw [EStateM.run_bind] at h₁ h₂
  cases hx₁ : x.run m₁ with
  | error e t => rw [hx₁] at h₁; cases h₁
  | ok a₁ t₁ =>
    cases hx₂ : x.run m₂ with
    | error e t => rw [hx₂] at h₂; cases h₂
    | ok a₂ t₂ =>
      rw [hx₁] at h₁
      rw [hx₂] at h₂
      obtain ⟨rfl, hS⟩ := hx m₁ m₂ a₁ a₂ t₁ t₂ hR hx₁ hx₂
      exact hf a₁ t₁ t₂ b₁ b₂ s₁ s₂ hS h₁ h₂

theorem Determined.post {x : Exec α} {T : Machine → Machine → Prop} (hx : Determined R S x)
    (h : ∀ m₁ m₂, S m₁ m₂ → T m₁ m₂) : Determined R T x := by
  intro m₁ m₂ a₁ a₂ s₁ s₂ hR h₁ h₂
  obtain ⟨ha, hS⟩ := hx m₁ m₂ a₁ a₂ s₁ s₂ hR h₁ h₂
  exact ⟨ha, h s₁ s₂ hS⟩

theorem determined_throw {e : Abort} : Determined R S (throw e : Exec α) :=
  fun _ _ _ _ _ _ _ h₁ _ => nomatch h₁

theorem Agrees.mono {V : Set ℕ} {m₁ m₂ : Machine} (h : Agrees U m₁ m₂) (hV : V ⊆ U) :
    Agrees V m₁ m₂ :=
  ⟨h.args, fun r hr => h.regs r (hV hr)⟩

/-- A register both machines agree on reads the same value in both. -/
theorem determined_read (hr : r ∈ U) : Determined (Agrees U) (Agrees U) (read r) := by
  intro m₁ m₂ a₁ a₂ s₁ s₂ h h₁ h₂
  cases hv : m₁.regs[r]? with
  | none =>
    rw [run_read_of_size_le (Array.getElem?_eq_none_iff.mp hv)] at h₁
    cases h₁
  | some v =>
    have hv₂ : m₂.regs[r]? = some v := (h.regs r hr).symm.trans hv
    rw [run_read_of_getElem? hv] at h₁
    rw [run_read_of_getElem? hv₂] at h₂
    injection h₁ with ha₁ hs₁
    injection h₂ with ha₂ hs₂
    subst ha₁ ha₂ hs₁ hs₂
    exact ⟨rfl, h.args, h.regs⟩

/-- Writing the same value into a register leaves both machines agreeing on it. -/
theorem determined_write : Determined (Agrees U) (Agrees (insert r U)) (write r v) := by
  intro m₁ m₂ a₁ a₂ s₁ s₂ h h₁ h₂
  by_cases hr₁ : r < m₁.regs.size
  · by_cases hr₂ : r < m₂.regs.size
    · rw [run_write_of_lt hr₁] at h₁
      rw [run_write_of_lt hr₂] at h₂
      injection h₁ with ha₁ hs₁
      injection h₂ with ha₂ hs₂
      subst ha₁ ha₂ hs₁ hs₂
      refine ⟨rfl, h.args, fun r' hr' => ?_⟩
      simp only [Array.getElem?_set]
      split
      · rfl
      · exact h.regs r' (hr'.resolve_left (Ne.symm ‹_›))
    · rw [run_write_of_size_le (Nat.le_of_not_lt hr₂)] at h₂
      cases h₂
  · rw [run_write_of_size_le (Nat.le_of_not_lt hr₁)] at h₁
    cases h₁

theorem determined_jump (dst : Int) : Determined (Agrees U) (Agrees U) (jump dst) := by
  intro m₁ m₂ a₁ a₂ s₁ s₂ h h₁ h₂
  rw [run_jump] at h₁ h₂
  injection h₁ with ha₁ hs₁
  injection h₂ with ha₂ hs₂
  subst ha₁ ha₂ hs₁ hs₂
  exact ⟨rfl, h.args, h.regs⟩

theorem determined_setRv : Determined (Agrees U) (Agrees U) (modify fun m => { m with rv := v }) := by
  intro m₁ m₂ a₁ a₂ s₁ s₂ h h₁ h₂
  rw [EStateM.run_modify] at h₁ h₂
  injection h₁ with ha₁ hs₁
  injection h₂ with ha₂ hs₂
  subst ha₁ ha₂ hs₁ hs₂
  exact ⟨rfl, h.args, h.regs⟩

/-- A computation that looks at the machine only for its arguments is determined as its body is. -/
theorem determined_get_args {f : Machine → Exec α}
    (hf : ∀ m m' : Machine, m.args = m'.args → f m = f m')
    (hg : ∀ m, Determined (Agrees U) S (f m)) : Determined (Agrees U) S (get >>= f) := by
  intro m₁ m₂ a₁ a₂ s₁ s₂ h h₁ h₂
  simp only [EStateM.run_bind, EStateM.run_get] at h₁ h₂
  rw [hf m₂ m₁ h.args.symm] at h₂
  exact hg m₁ m₁ m₂ a₁ a₂ s₁ s₂ h h₁ h₂

theorem determined_mapM_read {rs : List Register} (h : ∀ r ∈ rs, r ∈ U) :
    Determined (Agrees U) (Agrees U) (rs.mapM read) := by
  induction rs with
  | nil => exact determined_pure fun _ _ h => h
  | cons r rs ih =>
    rw [List.mapM_cons]
    exact (determined_read (h r List.mem_cons_self)).bind fun _ =>
      (ih fun r' hr' => h r' (List.mem_cons_of_mem r hr')).bind fun _ =>
        determined_pure fun _ _ h => h

theorem determined_forM_write (ws : List (Register × Int64)) :
    Determined (Agrees U) (Agrees (U ∪ {r | r ∈ ws.map Prod.fst}))
      (ws.forM fun w => write w.1 w.2) := by
  induction ws generalizing U with
  | nil => exact determined_pure fun _ _ h => h.mono fun r hr => by simpa using hr
  | cons w ws ih =>
    simp only [List.forM]
    refine determined_write.bind fun _ => ih.post fun _ _ h => h.mono fun r hr => ?_
    simp only [List.map_cons, List.mem_cons, Set.mem_union, Set.mem_ofPred_eq,
      Set.mem_insert_iff] at hr ⊢
    tauto

end Determined

/-- The values an instruction writes depend only on the values it reads and the arguments: two
successful runs from machines agreeing on the registers read agree on the registers written. -/
theorem exec_determined {i : Instr} {o : Opcode} {a : Access} (calls : CallTable)
    (hop : i.opcode? = some o) (ha : i.access = .ok a) :
    Determined (Agrees {r | (r : Int) ∈ a.uses})
      (Agrees ({r | (r : Int) ∈ a.uses} ∪ {r | (r : Int) ∈ a.defs})) (exec calls i o) := by
  simp only [Instr.access, hop] at ha
  cases o with
  | nop =>
    cases ha
    exact determined_pure fun _ _ h => h.mono (by simp)
  | iq =>
    cases ha
    exact determined_write.post fun _ _ h => h.mono (by simp)
  | mov | addi =>
    cases ha
    exact (determined_read (by simp)).bind fun _ => determined_write.post fun _ _ h =>
      h.mono fun r hr => by simpa [or_comm] using hr
  | add | sub | mul =>
    cases ha
    exact (determined_read (by simp)).bind fun _ => (determined_read (by simp)).bind fun _ =>
      determined_write.post fun _ _ h => h.mono fun r hr => by simpa [or_comm] using hr
  | ldarg =>
    cases ha
    refine determined_get_args (fun m m' h => ?_) fun m => ?_
    · -- the body reads only the arguments
      cases m
      cases m'
      dsimp only at h
      subst h
      rfl
    dsimp only
    split
    · exact determined_write.post fun _ _ h => h.mono (by simp)
    · exact determined_throw
  | beq | bne | blt =>
    cases ha
    refine (determined_read (by simp)).bind fun x => (determined_read (by simp)).bind fun y => ?_
    split
    · exact (determined_jump i.br).post fun _ _ h => h.mono (by simp)
    · exact determined_pure fun _ _ h => h.mono (by simp)
  | jmp =>
    cases ha
    exact (determined_jump i.br).post fun _ _ h => h.mono (by simp)
  | bsw =>
    cases ha
    refine (determined_read (by simp)).bind fun x => ?_
    dsimp only
    split
    · exact (determined_jump _).post fun _ _ h => h.mono (by simp)
    · exact determined_pure fun _ _ h => h.mono (by simp)
  | call =>
    cases ha
    cases hf : calls i.fn with
    | none =>
      simp only [exec, hf]
      exact determined_throw
    | some f =>
      simp only [exec, hf]
      refine (determined_mapM_read fun r hr => by simpa using hr).bind fun vs => ?_
      split
      · exact determined_throw
      · rename_i hlen
        have hlen : (f vs).length = i.rr.length := by simpa using hlen
        exact (determined_forM_write _).post fun _ _ h => h.mono fun r hr => by
          simpa [List.map_fst_zip (Nat.le_of_eq hlen.symm)] using hr
  | ret =>
    cases ha
    exact (determined_read (by simp)).bind fun _ => determined_setRv.bind fun _ =>
      (determined_jump (-1)).post fun _ _ h => h.mono (by simp)
  | halt =>
    cases ha
    exact (determined_jump (-1)).post fun _ _ h => h.mono (by simp)

/-! ### One step -/

theorem Leaves.isTerminator {i : Instr} {c c' : Int} (h : Leaves i c c' false) : i.isTerminator := by
  rcases h with ⟨h, -⟩ | ⟨-, ht | ⟨hop, -⟩⟩
  · cases h
  · -- only branches have targets
    have := Instr.isBranch_of_targets_ne_nil (List.ne_nil_of_mem ht)
    exact Instr.isTerminator_iff.mpr (.inl this)
  · rcases hop with hop | hop <;>
      simp [Instr.isTerminator_iff, Opcode.ofByte?_eq_some hop, Opcode.byte]

section Step

variable {p : Program} {calls : CallTable} {limit : Nat} {m m' : Machine} {n : Nat} {i : Instr}

/-- A step that succeeds ran an instruction naming an operation, from the machine with control set
to continue and the step counted, then moved on to the next offset if control still continues. -/
theorem run_runFor_one (hpc : m.pc = n) (hi : p.instrs[n]? = some i)
    (h : (runFor p calls limit 1).run m = .ok none m') :
    ∃ o s, i.opcode? = some o ∧
      (exec calls i o).run { m with ln := true, steps := m.steps + 1 } = .ok () s ∧
      m' = if s.ln then { s with pc := s.pc + 1 } else s := by
  have hfetch : (if 0 ≤ m.pc then p.instrs[m.pc.toNat]? else none) = some i := by
    rw [hpc, if_pos (Int.natCast_nonneg n), Int.toNat_natCast]
    exact hi
  -- a step stopped by its limit returns an error message, not `none`
  by_cases hl : 0 < limit ∧ limit ≤ m.steps
  · rw [run_runFor_of_limit hfetch hl] at h
    cases h
  cases ho : i.opcode? with
  | none =>
    rw [run_runFor_of_illegal hfetch hl ho] at h
    cases h
  | some o =>
    rw [run_runFor_succ hfetch hl ho, EStateM.run_bind] at h
    cases hs : (exec calls i o).run { m with ln := true, steps := m.steps + 1 } with
    | error e s =>
      rw [hs] at h
      cases h
    | ok u s =>
      rw [hs] at h
      refine ⟨o, s, rfl, hs, ?_⟩
      cases hln : s.ln <;>
        simp [hln, runFor, EStateM.run_bind, EStateM.run_get, EStateM.run_set] at h <;>
        exact h.symm

/-- What a successful step does, read through the instruction it ran: the registers read, the
registers left alone, and where control goes. -/
theorem step_ensures (hpc : m.pc = n) (hi : p.instrs[n]? = some i)
    (hstep : (runFor p calls limit 1).run m = .ok none m') :
    ∃ a, p.access n = .ok a ∧
      m'.reads.toList = m.reads.toList ++ a.uses.map (fun r => ((n : Int), r.toNat)) ∧
      m'.regs.size = m.regs.size ∧ (∀ r : ℕ, (r : Int) ∉ a.defs → m'.regs[r]? = m.regs[r]?) ∧
      ∃ c l, Leaves i n c l ∧ m'.pc = if l then c + 1 else c := by
  obtain ⟨o, s, hop, hs, rfl⟩ := run_runFor_one hpc hi hstep
  obtain ⟨a, ha⟩ := Instr.access_eq_ok (i := i) (by simp [hop])
  obtain ⟨c, l, hleaves, hpart⟩ :=
    exec_ensures calls { m with ln := true, steps := m.steps + 1 } hop ha _ () s (partway_start _) hs
  -- moving on to the next offset touches neither the reads nor the registers
  have hadv : ∀ {β : Type} (f : Machine → β), (∀ t : Machine, f { t with pc := t.pc + 1 } = f t) →
      f (if s.ln then { s with pc := s.pc + 1 } else s) = f s := by
    intro β f hf
    split
    · exact hf s
    · rfl
  refine ⟨a, (Program.access_of_getElem? hi).trans ha, ?_, ?_, fun r hr => ?_, c, l,
    hpc ▸ hleaves, ?_⟩
  · rw [hadv (fun t => t.reads.toList) fun _ => rfl, hpart.reads]
    simp [hpc, Function.comp_def]
  · rw [hadv (fun t => t.regs.size) fun _ => rfl, hpart.size]
  · rw [hadv (fun t => t.regs[r]?) fun _ => rfl]
    exact hpart.frame r hr
  · rw [hpart.ln, ← hpart.pc]
    cases l <;> simp

/-- Two successful steps at the same instruction, from machines with the same arguments and the
same values in the registers the instruction reads, write the same values. -/
theorem step_determined {m₂ m₂' : Machine} {a : Access} (hpc : m.pc = n) (hpc₂ : m₂.pc = n)
    (hi : p.instrs[n]? = some i) (ha : p.access n = .ok a) (hargs : m₂.args = m.args)
    (hregs : ∀ r : ℕ, (r : Int) ∈ a.uses → m₂.regs[r]? = m.regs[r]?)
    (hstep : (runFor p calls limit 1).run m = .ok none m')
    (hstep₂ : (runFor p calls limit 1).run m₂ = .ok none m₂') :
    ∀ r : ℕ, (r : Int) ∈ a.defs → m₂'.regs[r]? = m'.regs[r]? := by
  obtain ⟨o, s, hop, hs, rfl⟩ := run_runFor_one hpc hi hstep
  obtain ⟨o₂, s₂, hop₂, hs₂, rfl⟩ := run_runFor_one hpc₂ hi hstep₂
  obtain rfl : o₂ = o := Option.some.inj (hop₂.symm.trans hop)
  have hia : i.access = .ok a := (Program.access_of_getElem? hi).symm.trans ha
  obtain ⟨-, hagree⟩ := exec_determined calls hop hia { m₂ with ln := true, steps := m₂.steps + 1 }
    { m with ln := true, steps := m.steps + 1 } () () s₂ s ⟨hargs, hregs⟩ hs₂ hs
  intro r hr
  have hs₂r : (if s₂.ln then { s₂ with pc := s₂.pc + 1 } else s₂).regs[r]? = s₂.regs[r]? := by
    split <;> rfl
  have hsr : (if s.ln then { s with pc := s.pc + 1 } else s).regs[r]? = s.regs[r]? := by
    split <;> rfl
  rw [hs₂r, hsr]
  exact hagree.regs r (.inr hr)

end Step

end Machine

/-- One step of a run agrees with the decoder and the control-flow flags of the instruction it
runs. Take a machine at an instruction of the program and a step from it that succeeds, whatever
the step limit and the functions called. The step reads exactly the registers the decoder reports
as used, once each, in order and at the instruction's offset. It changes no register the decoder
does not report as defined, and every step at the same instruction from a machine with the same
arguments and the same values in the registers read writes the same values. Control goes to a
branch target, to the next instruction when the instruction falls through, or to `-1` after `ret`
or `halt`, and elsewhere than the next instruction only after an instruction that ends a block. -/
theorem step_agrees_with_access {p : Program} {calls : CallTable} {limit : Nat} {m m' : Machine}
    {n : Nat} {i : Instr} (hpc : m.pc = n) (hi : p.instrs[n]? = some i)
    (hstep : (Machine.runFor p calls limit 1).run m = .ok none m') :
    ∃ a, p.access n = .ok a ∧
      m'.reads.toList = m.reads.toList ++ a.uses.map (fun r => ((n : Int), r.toNat)) ∧
      m'.regs.size = m.regs.size ∧ (∀ r : ℕ, m'.regs[r]? ≠ m.regs[r]? → (r : Int) ∈ a.defs) ∧
      (∀ m₂ m₂' : Machine, m₂.pc = n → m₂.args = m.args →
        (∀ r : ℕ, (r : Int) ∈ a.uses → m₂.regs[r]? = m.regs[r]?) →
        (Machine.runFor p calls limit 1).run m₂ = .ok none m₂' →
        ∀ r : ℕ, (r : Int) ∈ a.defs → m₂'.regs[r]? = m'.regs[r]?) ∧
      (m'.pc ∈ i.targets ∨ (i.fallsThrough ∧ m'.pc = n + 1) ∨
        ((i.opcode? = some .ret ∨ i.opcode? = some .halt) ∧ m'.pc = -1)) ∧
      (m'.pc ≠ n + 1 → i.isTerminator) := by
  obtain ⟨a, ha, hreads, hsize, hframe, c, l, hleaves, hpc'⟩ := Machine.step_ensures hpc hi hstep
  refine ⟨a, ha, hreads, hsize, fun r hr => by_contra fun hd => hr (hframe r hd),
    fun m₂ m₂' hpc₂ hargs hregs hstep₂ =>
      Machine.step_determined hpc hpc₂ hi ha hargs hregs hstep hstep₂, ?_, ?_⟩
  · -- where control went, by the way the instruction left
    rcases hleaves with ⟨rfl, rfl, hf⟩ | ⟨rfl, ht | hexit⟩
    · exact .inr (.inl ⟨hf, by simpa using hpc'⟩)
    · exact .inl (by simpa [hpc'] using ht)
    · exact .inr (.inr ⟨hexit.1, by simpa [hpc'] using hexit.2⟩)
  · intro hne
    cases l with
    | true => simp [hpc', hleaves.elim (fun h => h.2.1) fun h => absurd h.1 (by simp)] at hne
    | false => exact hleaves.isTerminator

/-- The countdown at its loop branch, with 2 in register 2 and 0 in register 3. -/
def countdownAtBranch : Machine := { pc := 2, regs := #[0, 0, 2, 0] }

/-- The countdown after taking its loop branch once from `countdownAtBranch`. -/
def countdownBranched : Machine :=
  { pc := 1, regs := #[0, 0, 2, 0], steps := 1, reads := #[(2, 3), (2, 2)]
    seen := #[(2, 3, 0), (2, 2, 2)] }

theorem step_agrees_with_access_countdown :
    countdownAtBranch.pc = 2 ∧ countdown.instrs[2]? = some { op := 10, rx := 3, ry := 2, br := 1 } ∧
    (Machine.runFor countdown (fun _ => none) 0 1).run countdownAtBranch =
      .ok none countdownBranched ∧
    ∃ a, countdown.access 2 = .ok a ∧
      countdownBranched.reads.toList =
        countdownAtBranch.reads.toList ++ a.uses.map (fun r => ((2 : Int), r.toNat)) ∧
      countdownBranched.regs.size = countdownAtBranch.regs.size ∧
      (∀ r : ℕ, countdownBranched.regs[r]? ≠ countdownAtBranch.regs[r]? → (r : Int) ∈ a.defs) ∧
      (∀ m₂ m₂' : Machine, m₂.pc = 2 → m₂.args = countdownAtBranch.args →
        (∀ r : ℕ, (r : Int) ∈ a.uses → m₂.regs[r]? = countdownAtBranch.regs[r]?) →
        (Machine.runFor countdown (fun _ => none) 0 1).run m₂ = .ok none m₂' →
        ∀ r : ℕ, (r : Int) ∈ a.defs → m₂'.regs[r]? = countdownBranched.regs[r]?) ∧
      (countdownBranched.pc ∈ ({ op := 10, rx := 3, ry := 2, br := 1 } : Instr).targets ∨
        (({ op := 10, rx := 3, ry := 2, br := 1 } : Instr).fallsThrough ∧
          countdownBranched.pc = 2 + 1) ∨
        ((({ op := 10, rx := 3, ry := 2, br := 1 } : Instr).opcode? = some .ret ∨
          ({ op := 10, rx := 3, ry := 2, br := 1 } : Instr).opcode? = some .halt) ∧
          countdownBranched.pc = -1)) ∧
      (countdownBranched.pc ≠ 2 + 1 → ({ op := 10, rx := 3, ry := 2, br := 1 } : Instr).isTerminator) := by
  have hpc : countdownAtBranch.pc = 2 := rfl
  have hi : countdown.instrs[2]? = some { op := 10, rx := 3, ry := 2, br := 1 } := rfl
  have hstep : (Machine.runFor countdown (fun _ => none) 0 1).run countdownAtBranch =
      .ok none countdownBranched := rfl
  exact ⟨hpc, hi, hstep, step_agrees_with_access hpc hi hstep⟩

end RegisterLiveness
