import RegisterLiveness.Proofs.Tables
import RegisterLiveness.Machine.Emulator

/-!
# Registers that are not live do not matter

Two machines run one program from the same offset, step count, arguments and register-file size,
and hold the same value in every register the analysis reports live at that offset. Whatever the
other registers hold, the two runs stay alike for any number of instructions: they stop with the
same error or abort, make the same reads in the same order, each finding the same value, reach the
same offset and step count, and return the same value once a `ret` has run
(`run_alike_of_agree_on_live`).

The argument is relational. `Alike P Q x` says that the computation `x`, run from two states
related by `P`, returns the same value in both, in states related by `Q`, or aborts alike in both.
What the two runs show alike is `SameView`.
Reads, writes and jumps each have a rule, and `Alike.bind` chains them. `exec_alike` then says, one
operation at a time, that an instruction whose operands agree in both machines leaves them agreeing
on the registers it writes, with control gone to the same place (`Next`).

Liveness enters through one property of the live sets: they are closed backward along control
flow (`Program.LiveClosed`). `runFor_alike` runs the instruction lemma along a whole run, by
induction on the fuel, and keeps agreement on the live set of the current instruction (`Agree`).
The sets a converged analysis reports over a faithful cut are closed (`Cuts.liveClosed`).
-/

namespace RegisterLiveness

theorem Instr.fallsThrough_of_opcode {i : Instr} {o : Opcode} (hop : i.opcode? = some o)
    (ho : o ∉ [.jmp, .ret, .halt]) : i.fallsThrough := by
  have hb := Opcode.ofByte?_eq_some hop
  rw [Instr.fallsThrough_iff, hb]
  cases o <;> simp_all [Opcode.byte]

namespace Program

/-- The instruction at offset `pc` of `p` is a `ret`. -/
def IsRet (p : Program) (pc : Int) : Prop :=
  ∃ n : ℕ, pc = n ∧ ∃ i, p.instrs[n]? = some i ∧ i.opcode? = some .ret

theorem IsRet.opcode {p : Program} {n : ℕ} {i : Instr} (h : p.IsRet n)
    (hi : p.instrs[n]? = some i) : i.opcode? = some .ret := by
  obtain ⟨k, hk, i', hi', hret⟩ := h
  obtain rfl : n = k := Int.ofNat_inj.mp hk
  obtain rfl : i = i' := Option.some.inj (hi.symm.trans hi')
  exact hret

/-- Sets of registers, one per instruction of `p`, closed backward along control flow: each holds
the registers its instruction reads, and those of a successor's set that it does not write. -/
structure LiveClosed (p : Program) (L : Nat → Set ℕ) : Prop where
  uses : ∀ {pc a}, p.access pc = .ok a → ∀ r : ℕ, (r : Int) ∈ a.uses → r ∈ L pc
  succ : ∀ {pc q a}, p.access pc = .ok a → p.Succ pc q → ∀ r ∈ L q, (r : Int) ∉ a.defs → r ∈ L pc

theorem LiveClosed.mem_of_succ {p : Program} {L : Nat → Set ℕ} {a : Access} {n k : Nat} {r : ℕ}
    (hL : p.LiveClosed L) (ha : p.access n = .ok a) (hs : p.Succ n k) (hr : r ∈ L k) :
    r ∈ L n ∪ {r | (r : Int) ∈ a.defs} := by
  by_cases hd : (r : Int) ∈ a.defs
  · exact .inr hd
  · exact .inl (hL.succ ha hs r hr hd)

end Program

namespace Machine

/-! ### One access, one step -/

section Step

variable {m : Machine} {r : Register} {v : Int64}

theorem run_read_of_getElem? (h : m.regs[r]? = some v) :
    (read r).run m =
      .ok v { m with reads := m.reads.push (m.pc, r), seen := m.seen.push (m.pc, r, v) } := by
  simp [read, h]

theorem run_read_of_size_le (h : m.regs.size ≤ r) :
    (read r).run m =
      .error (.indexOutOfRange r m.regs.size) { m with reads := m.reads.push (m.pc, r) } := by
  simp only [read, EStateM.run_bind, EStateM.run_modify, EStateM.run_get,
    Array.getElem?_eq_none h]
  rfl

theorem run_write_of_lt (h : r < m.regs.size) :
    (write r v).run m = .ok () { m with regs := m.regs.set r v h } := by
  simp [write, h]

theorem run_write_of_size_le (h : m.regs.size ≤ r) :
    (write r v).run m = .error (.indexOutOfRange r m.regs.size) m := by
  simp [write, Nat.not_lt.mpr h]

@[simp] theorem run_jump (dst : Int) :
    (jump dst).run m = .ok () { m with pc := dst, ln := false } := rfl

/-- A `ret` that finds its register returns its value and leaves the program. -/
theorem run_ret_of_getElem? (h : m.regs[r]? = some v) :
    (do let v ← read r; modify fun m => { m with rv := v }; jump (-1) : Exec Unit).run m =
      .ok () { m with
        reads := m.reads.push (m.pc, r)
        seen := m.seen.push (m.pc, r, v)
        rv := v
        pc := -1
        ln := false } := by
  simp [run_read_of_getElem? h]

theorem run_ret_of_size_le (h : m.regs.size ≤ r) :
    (do let v ← read r; modify fun m => { m with rv := v }; jump (-1) : Exec Unit).run m =
      .error (.indexOutOfRange r m.regs.size) { m with reads := m.reads.push (m.pc, r) } := by
  simp [run_read_of_size_le h]

variable {p : Program} {calls : CallTable} {limit fuel : Nat} {i : Instr} {o : Opcode}

theorem exists_of_fetch {pc : Int} (h : (if 0 ≤ pc then p.instrs[pc.toNat]? else none) = some i) :
    ∃ n : ℕ, pc = n ∧ p.instrs[n]? = some i := by
  split at h
  · exact ⟨pc.toNat, (Int.toNat_of_nonneg ‹_›).symm, h⟩
  · cases h

theorem run_runFor_of_fetch_none (h : (if 0 ≤ m.pc then p.instrs[m.pc.toNat]? else none) = none) :
    (runFor p calls limit (fuel + 1)).run m = .ok none m := by
  simp only [runFor, EStateM.run_bind, EStateM.run_get, h]
  rfl

theorem run_runFor_of_limit (hi : (if 0 ≤ m.pc then p.instrs[m.pc.toNat]? else none) = some i)
    (hl : 0 < limit ∧ limit ≤ m.steps) :
    (runFor p calls limit (fuel + 1)).run m =
      .ok (some (.plain s!"emulator: step limit {limit} exceeded at {m.pc}")) m := by
  simp only [runFor, EStateM.run_bind, EStateM.run_get, hi, hl, and_self, if_true]
  rfl

theorem run_runFor_of_illegal (hi : (if 0 ≤ m.pc then p.instrs[m.pc.toNat]? else none) = some i)
    (hl : ¬ (0 < limit ∧ limit ≤ m.steps)) (ho : i.opcode? = none) :
    (runFor p calls limit (fuel + 1)).run m =
      .error (.message ("illegal OpCode: 0x" ++ hexByte i.op)) m := by
  simp only [runFor, EStateM.run_bind, EStateM.run_get, hi, hl, ho, if_false]
  rfl

/-- A step executes the instruction with control set to continue and the step counted, moves on
to the next offset if control still continues, and runs on. -/
theorem run_runFor_succ (hi : (if 0 ≤ m.pc then p.instrs[m.pc.toNat]? else none) = some i)
    (hl : ¬ (0 < limit ∧ limit ≤ m.steps)) (ho : i.opcode? = some o) :
    (runFor p calls limit (fuel + 1)).run m =
      (do exec calls i o
          let m ← get
          if m.ln then set { m with pc := m.pc + 1 }
          runFor p calls limit fuel).run { m with ln := true, steps := m.steps + 1 } := by
  simp only [runFor, EStateM.run_bind, EStateM.run_get, hi, hl, ho, if_false]
  rfl

end Step

/-! ### Two runs in step -/

variable (p : Program) (e₁ e₂ : Machine)

/-- What two runs of `p` started from `e₁` and `e₂` show alike: the offset, the step count, the
reads made since the start and the values they found, and the value of the last `ret`. That value
is the same in both once a read made by a `ret` has found its register, and otherwise either the
same or unchanged in both. -/
structure SameView (m₁ m₂ : Machine) : Prop where
  pc_eq : m₁.pc = m₂.pc
  steps_eq : m₁.steps = m₂.steps
  reads : ∃ δ, m₁.reads = e₁.reads ++ δ ∧ m₂.reads = e₂.reads ++ δ
  seen : ∃ σ, m₁.seen = e₁.seen ++ σ ∧ m₂.seen = e₂.seen ++ σ
  rv_of_ret : ∀ σ, m₁.seen = e₁.seen ++ σ → (∃ q ∈ σ, p.IsRet q.1) → m₁.rv = m₂.rv
  rv : m₁.rv = m₂.rv ∨ (m₁.rv = e₁.rv ∧ m₂.rv = e₂.rv)

/-- Two machines inside an instruction, in step since `e₁` and `e₂`: at offset `c` with the
continuation flag `l`, with the same arguments and register-file size, and agreeing on the
registers of `U`. -/
structure Synced (U : Set ℕ) (c : Int) (l : Bool) (m₁ m₂ : Machine) : Prop
    extends SameView p e₁ e₂ m₁ m₂ where
  pc₁ : m₁.pc = c
  ln₁ : m₁.ln = l
  ln₂ : m₂.ln = l
  args_eq : m₁.args = m₂.args
  size_eq : m₁.regs.size = m₂.regs.size
  agree : ∀ r ∈ U, m₁.regs[r]? = m₂.regs[r]?

/-- From any two states related by `P`, the computation `x` ends alike: with the same value in
states related by `Q`, or with the same abort in states that show alike. -/
def Alike {α : Type} (P Q : Machine → Machine → Prop) (x : Exec α) : Prop :=
  ∀ m₁ m₂, P m₁ m₂ →
    (∃ a s₁ s₂, x.run m₁ = .ok a s₁ ∧ x.run m₂ = .ok a s₂ ∧ Q s₁ s₂) ∨
    ∃ err s₁ s₂, x.run m₁ = .error err s₁ ∧ x.run m₂ = .error err s₂ ∧ SameView p e₁ e₂ s₁ s₂

variable {p e₁ e₂} {α β : Type} {P Q R : Machine → Machine → Prop}

theorem alike_pure (h : ∀ m₁ m₂, P m₁ m₂ → Q m₁ m₂) (a : α) : Alike p e₁ e₂ P Q (pure a) :=
  fun m₁ m₂ hP => .inl ⟨a, m₁, m₂, rfl, rfl, h m₁ m₂ hP⟩

theorem Alike.bind {x : Exec α} {f : α → Exec β} (hx : Alike p e₁ e₂ P Q x)
    (hf : ∀ a, Alike p e₁ e₂ Q R (f a)) : Alike p e₁ e₂ P R (x >>= f) := by
  intro m₁ m₂ hP
  rcases hx m₁ m₂ hP with ⟨a, s₁, s₂, h₁, h₂, hQ⟩ | ⟨err, s₁, s₂, h₁, h₂, hv⟩
  · simp only [EStateM.run_bind, h₁, h₂]
    exact hf a s₁ s₂ hQ
  · simp only [EStateM.run_bind, h₁, h₂]
    exact .inr ⟨err, s₁, s₂, rfl, rfl, hv⟩

theorem Alike.post {x : Exec α} (hx : Alike p e₁ e₂ P Q x) (h : ∀ m₁ m₂, Q m₁ m₂ → R m₁ m₂) :
    Alike p e₁ e₂ P R x := by
  intro m₁ m₂ hP
  rcases hx m₁ m₂ hP with ⟨a, s₁, s₂, h₁, h₂, hQ⟩ | he
  · exact .inl ⟨a, s₁, s₂, h₁, h₂, h s₁ s₂ hQ⟩
  · exact .inr he

variable {U : Set ℕ} {c : Int} {l : Bool} {m₁ m₂ : Machine} {r : Register} {v : Int64}

theorem Synced.mono {V : Set ℕ} (h : Synced p e₁ e₂ U c l m₁ m₂) (hV : V ⊆ U) :
    Synced p e₁ e₂ V c l m₁ m₂ :=
  { h with agree := fun r hr => h.agree r (hV hr) }

/-- Recording a read at the common offset keeps two machines in step. -/
theorem Synced.push (h : Synced p e₁ e₂ U c l m₁ m₂) (r : Register) :
    Synced p e₁ e₂ U c l { m₁ with reads := m₁.reads.push (m₁.pc, r) }
      { m₂ with reads := m₂.reads.push (m₂.pc, r) } := by
  obtain ⟨δ, h₁, h₂⟩ := h.reads
  refine { h with reads := ⟨δ.push (m₁.pc, r), ?_, ?_⟩ }
  · simp [h₁]
  · simp [h₂, h.pc_eq]

/-- Recording a read that found the same value in both keeps two machines in step, provided that
when their offset holds a `ret`, they already return the same value. -/
theorem Synced.see (h : Synced p e₁ e₂ U c l m₁ m₂) (hc : p.IsRet c → m₁.rv = m₂.rv)
    (r : Register) (v : Int64) :
    Synced p e₁ e₂ U c l { m₁ with seen := m₁.seen.push (m₁.pc, r, v) }
      { m₂ with seen := m₂.seen.push (m₂.pc, r, v) } := by
  obtain ⟨σ, h₁, h₂⟩ := h.seen
  have hpush : m₁.seen.push (m₁.pc, r, v) = e₁.seen ++ σ.push (m₁.pc, r, v) := by
    rw [h₁, Array.push_append]
  refine { h with seen := ⟨σ.push (m₁.pc, r, v), hpush, ?_⟩, rv_of_ret := ?_ }
  · rw [h₂, Array.push_append, h.pc_eq]
  · rintro σ' hσ' ⟨q, hq, hret⟩
    rw [Array.append_inj_right (hσ'.symm.trans hpush) rfl, Array.mem_push] at hq
    rcases hq with hq | rfl
    · exact h.rv_of_ret σ h₁ ⟨q, hq, hret⟩
    · exact hc (h.pc₁ ▸ hret)

/-- Returning the same value makes the returned values agree for good. -/
theorem Synced.setRv (h : Synced p e₁ e₂ U c l m₁ m₂) (v : Int64) :
    Synced p e₁ e₂ U c l { m₁ with rv := v } { m₂ with rv := v } :=
  { h with rv_of_ret := fun _ _ _ => rfl, rv := .inl rfl }

/-- Transferring control to the same place keeps two machines in step. -/
theorem Synced.jump (h : Synced p e₁ e₂ U c l m₁ m₂) (dst : Int) :
    Synced p e₁ e₂ U dst false { m₁ with pc := dst, ln := false } { m₂ with pc := dst, ln := false } :=
  { h with pc_eq := rfl, pc₁ := rfl, ln₁ := rfl, ln₂ := rfl }

/-- Writing the same value into the same register keeps two machines in step, and in agreement
on that register. -/
theorem Synced.set (h : Synced p e₁ e₂ U c l m₁ m₂) (h₁ : r < m₁.regs.size)
    (h₂ : r < m₂.regs.size) :
    Synced p e₁ e₂ (insert r U) c l { m₁ with regs := m₁.regs.set r v h₁ }
      { m₂ with regs := m₂.regs.set r v h₂ } := by
  refine { h with size_eq := by simp [h.size_eq], agree := ?_ }
  intro r' hr'
  simp only [Array.getElem?_set]
  split
  · rfl
  · exact h.agree r' (hr'.resolve_left (Ne.symm ‹_›))

theorem alike_read (hr : r ∈ U) (hc : ¬ p.IsRet c) :
    Alike p e₁ e₂ (Synced p e₁ e₂ U c l) (Synced p e₁ e₂ U c l) (read r) := by
  intro m₁ m₂ h
  cases hv : m₁.regs[r]? with
  | some v =>
    exact .inl ⟨v, _, _, run_read_of_getElem? hv,
      run_read_of_getElem? ((h.agree r hr).symm.trans hv), (h.push r).see (absurd · hc) r v⟩
  | none =>
    have hle : m₁.regs.size ≤ r := Array.getElem?_eq_none_iff.mp hv
    exact .inr ⟨_, _, _, run_read_of_size_le hle,
      h.size_eq ▸ run_read_of_size_le (h.size_eq ▸ hle), (h.push r).toSameView⟩

theorem alike_write :
    Alike p e₁ e₂ (Synced p e₁ e₂ U c l) (Synced p e₁ e₂ (insert r U) c l) (write r v) := by
  intro m₁ m₂ h
  by_cases hr : r < m₁.regs.size
  · have hr₂ : r < m₂.regs.size := h.size_eq ▸ hr
    exact .inl ⟨(), _, _, run_write_of_lt hr, run_write_of_lt hr₂, h.set hr hr₂⟩
  · have hle : m₁.regs.size ≤ r := Nat.le_of_not_lt hr
    exact .inr ⟨_, _, _, run_write_of_size_le hle,
      h.size_eq ▸ run_write_of_size_le (h.size_eq ▸ hle), h.toSameView⟩

theorem alike_jump (dst : Int) :
    Alike p e₁ e₂ (Synced p e₁ e₂ U c l) (Synced p e₁ e₂ U dst false) (jump dst) := by
  intro m₁ m₂ h
  exact .inl ⟨(), _, _, run_jump dst, run_jump dst, h.jump dst⟩

/-- `ret` reads the same value in both runs, returns it and leaves the program. -/
theorem alike_ret (hr : r ∈ U) :
    Alike p e₁ e₂ (Synced p e₁ e₂ U c l) (Synced p e₁ e₂ U (-1) false)
      (do let v ← read r; modify fun m => { m with rv := v }; jump (-1)) := by
  intro m₁ m₂ h
  cases hv : m₁.regs[r]? with
  | some v =>
    have hv₂ : m₂.regs[r]? = some v := (h.agree r hr).symm.trans hv
    -- the read and the value it returns update different fields; taken with the value returned
    -- first, the read is one made once both return the same value
    exact .inl ⟨(), _, _, run_ret_of_getElem? hv, run_ret_of_getElem? hv₂,
      (((h.setRv v).push r).see (fun _ => rfl) r v).jump (-1)⟩
  | none =>
    have hle : m₁.regs.size ≤ r := Array.getElem?_eq_none_iff.mp hv
    exact .inr ⟨_, _, _, run_ret_of_size_le hle,
      h.size_eq ▸ run_ret_of_size_le (h.size_eq ▸ hle), (h.push r).toSameView⟩

theorem alike_throw {err : Abort} (h : ∀ m₁ m₂, P m₁ m₂ → SameView p e₁ e₂ m₁ m₂) :
    Alike p e₁ e₂ P Q (throw err : Exec α) :=
  fun m₁ m₂ hP => .inr ⟨err, m₁, m₂, rfl, rfl, h m₁ m₂ hP⟩

/-- A computation that looks at the machine only for its arguments runs alike from machines in
step. -/
theorem alike_get_args {f : Machine → Exec α}
    (hf : ∀ m m' : Machine, m.args = m'.args → f m = f m')
    (hg : ∀ m, Alike p e₁ e₂ (Synced p e₁ e₂ U c l) Q (f m)) :
    Alike p e₁ e₂ (Synced p e₁ e₂ U c l) Q (get >>= f) := by
  intro m₁ m₂ h
  simp only [EStateM.run_bind, EStateM.run_get]
  rw [hf m₂ m₁ h.args_eq.symm]
  exact hg m₁ m₁ m₂ h

theorem alike_mapM_read {rs : List Register} (h : ∀ r ∈ rs, r ∈ U) (hc : ¬ p.IsRet c) :
    Alike p e₁ e₂ (Synced p e₁ e₂ U c l) (Synced p e₁ e₂ U c l) (rs.mapM read) := by
  induction rs with
  | nil => exact alike_pure (fun _ _ h => h) []
  | cons r rs ih =>
    rw [List.mapM_cons]
    exact (alike_read (h r List.mem_cons_self) hc).bind fun _ =>
      (ih fun r' hr' => h r' (List.mem_cons_of_mem r hr')).bind fun _ =>
        alike_pure (fun _ _ h => h) _

theorem alike_forM_write (ws : List (Register × Int64)) :
    Alike p e₁ e₂ (Synced p e₁ e₂ U c l) (Synced p e₁ e₂ (U ∪ {r | r ∈ ws.map Prod.fst}) c l)
      (ws.forM fun w => write w.1 w.2) := by
  induction ws generalizing U with
  | nil => exact alike_pure (fun _ _ h => by simpa using h) ()
  | cons w ws ih =>
    simp only [List.forM]
    refine alike_write.bind fun _ => ih.post fun _ _ h => h.mono fun r hr => ?_
    simp only [List.map_cons, List.mem_cons, Set.mem_union, Set.mem_ofPred_eq,
      Set.mem_insert_iff] at hr ⊢
    tauto

/-! ### One instruction -/

/-- Where control stands after the instruction `i` at `c` ran: still at `c` and continuing, when
`i` falls through; at a branch target or at the exit `-1` after a jump. -/
def Next (i : Instr) (c c' : Int) (l : Bool) : Prop :=
  (l = true ∧ c' = c ∧ i.fallsThrough) ∨ (l = false ∧ (c' ∈ i.targets ∨ c' = -1))

/-- Control stayed at the instruction and continues, as it may when the instruction falls
through. -/
theorem Synced.stay {i : Instr} {V : Set ℕ} (h : Synced p e₁ e₂ U c true m₁ m₂) (hf : i.fallsThrough)
    (hV : V ⊆ U) : ∃ c' l', Next i c c' l' ∧ Synced p e₁ e₂ V c' l' m₁ m₂ :=
  ⟨c, true, .inl ⟨rfl, rfl, hf⟩, h.mono hV⟩

/-- Control jumped to a branch target of the instruction or out of the program. -/
theorem Synced.jumped {i : Instr} {V : Set ℕ} {t : Int} (h : Synced p e₁ e₂ U t false m₁ m₂)
    (ht : t ∈ i.targets ∨ t = -1) (hV : V ⊆ U) : ∃ c' l', Next i c c' l' ∧ Synced p e₁ e₂ V c' l' m₁ m₂ :=
  ⟨t, false, .inr ⟨rfl, ht⟩, h.mono hV⟩

/-- `add`, `sub` and `mul`: two reads, then a write of a function of the values read. -/
theorem alike_binop {rx ry rz : Register} (f : Int64 → Int64 → Int64) (hx : rx ∈ U) (hy : ry ∈ U)
    (hc : ¬ p.IsRet c) :
    Alike p e₁ e₂ (Synced p e₁ e₂ U c l) (Synced p e₁ e₂ (insert rz U) c l)
      (do let x ← read rx; let y ← read ry; write rz (f x y)) :=
  (alike_read hx hc).bind fun _ => (alike_read hy hc).bind fun _ => alike_write

/-- `beq`, `bne` and `blt`: two reads, then a jump if the values read pass the test. -/
theorem alike_branch {rx ry : Register} (br : Int) (cond : Int64 → Int64 → Prop)
    [DecidableRel cond] (hx : rx ∈ U) (hy : ry ∈ U) (hc : ¬ p.IsRet c) :
    Alike p e₁ e₂ (Synced p e₁ e₂ U c l)
      (fun s₁ s₂ => Synced p e₁ e₂ U c l s₁ s₂ ∨ Synced p e₁ e₂ U br false s₁ s₂)
      (do let x ← read rx; let y ← read ry; if cond x y then jump br) := by
  refine (alike_read hx hc).bind fun x => (alike_read hy hc).bind fun y => ?_
  by_cases hc : cond x y
  · simp only [hc, if_true]
    exact (alike_jump br).post fun _ _ => .inr
  · simp only [hc, if_false]
    exact alike_pure (fun _ _ => .inl) ()

/-- An instruction at `c` whose operands agree in two machines in step runs alike in both and leaves
them agreeing on what it writes, with control gone to the same place. Only a `ret` may stand at `c`
if `p` has one there. -/
theorem exec_alike {i : Instr} {o : Opcode} {a : Access} (calls : CallTable)
    (hop : i.opcode? = some o) (ha : i.access = .ok a) (hu : ∀ r : ℕ, (r : Int) ∈ a.uses → r ∈ U)
    (hret : p.IsRet c → o = .ret) :
    Alike p e₁ e₂ (Synced p e₁ e₂ U c true)
      (fun s₁ s₂ => ∃ c' l', Next i c c' l' ∧
        Synced p e₁ e₂ (U ∪ {r | (r : Int) ∈ a.defs}) c' l' s₁ s₂)
      (exec calls i o) := by
  have hfalls := Instr.fallsThrough_of_opcode hop
  -- the reads of every other operation are made at an offset holding no `ret`
  have hc : o ≠ .ret → ¬ p.IsRet c := fun ho hr => ho (hret hr)
  simp only [Instr.access, hop] at ha
  cases o with
  | nop =>
    cases ha
    exact alike_pure (fun _ _ h => h.stay (hfalls (by simp)) (by simp)) ()
  | iq =>
    cases ha
    exact alike_write.post fun _ _ h => h.stay (hfalls (by simp)) (by simp)
  | mov =>
    cases ha
    exact (alike_read (hu _ (by simp)) (hc nofun)).bind fun _ => alike_write.post fun _ _ h =>
      h.stay (hfalls (by simp)) (by simp)
  | add | sub | mul =>
    cases ha
    exact (alike_binop _ (hu _ (by simp)) (hu _ (by simp)) (hc nofun)).post fun _ _ h =>
      h.stay (hfalls (by simp)) (by simp)
  | addi =>
    cases ha
    exact (alike_read (hu _ (by simp)) (hc nofun)).bind fun _ => alike_write.post fun _ _ h =>
      h.stay (hfalls (by simp)) (by simp)
  | ldarg =>
    cases ha
    refine alike_get_args (fun m m' h => ?_) fun m => ?_
    · -- the body reads only the arguments
      cases m
      cases m'
      dsimp only at h
      subst h
      rfl
    dsimp only
    split
    · exact alike_write.post fun _ _ h => h.stay (hfalls (by simp)) (by simp)
    · exact alike_throw fun _ _ h => h.toSameView
  | beq | bne | blt =>
    cases ha
    have ht : i.targets = [i.br] := by simp [Instr.targets, hop]
    exact (alike_branch i.br _ (hu _ (by simp)) (hu _ (by simp)) (hc nofun)).post fun _ _ h => h.elim
      (fun h => h.stay (hfalls (by simp)) (by simp))
      (fun h => h.jumped (.inl (by simp [ht])) (by simp))
  | jmp =>
    cases ha
    have ht : i.targets = [i.br] := by simp [Instr.targets, hop]
    exact (alike_jump i.br).post fun _ _ h => h.jumped (.inl (by simp [ht])) (by simp)
  | bsw =>
    cases ha
    have ht : i.targets = i.sw := by simp [Instr.targets, hop]
    refine (alike_read (hu _ (by simp)) (hc nofun)).bind fun x => ?_
    dsimp only
    split
    · rename_i t htx
      exact (alike_jump t).post fun _ _ h =>
        h.jumped (.inl (ht ▸ List.mem_of_getElem? htx)) (by simp)
    · exact alike_pure (fun _ _ h => h.stay (hfalls (by simp)) (by simp)) ()
  | call =>
    cases ha
    cases hf : calls i.fn with
    | none =>
      simp only [exec, hf]
      exact alike_throw fun _ _ h => h.toSameView
    | some f =>
      simp only [exec, hf]
      refine (alike_mapM_read (fun r hr => hu r (by simpa using hr)) (hc nofun)).bind fun vs => ?_
      split
      · exact alike_throw fun _ _ h => h.toSameView
      · rename_i hlen
        -- the function returned one value per result register, so all of them are written
        have hlen : (f vs).length = i.rr.length := by simpa using hlen
        exact (alike_forM_write _).post fun _ _ h =>
          h.stay (hfalls (by simp)) fun r hr => by
            simpa [List.map_fst_zip (Nat.le_of_eq hlen.symm)] using hr
  | ret =>
    cases ha
    exact (alike_ret (hu _ (by simp))).post fun _ _ h => h.jumped (.inr rfl) (by simp)
  | halt =>
    cases ha
    exact (alike_jump (-1)).post fun _ _ h => h.jumped (.inr rfl) (by simp)

/-! ### A whole run -/

variable (p e₁ e₂) in
/-- Two machines between instructions, in step since `e₁` and `e₂`: with the same arguments and
register-file size, and agreeing on every register `L` has live at their offset when it is an
instruction of `p`. -/
structure Agree (L : Nat → Set ℕ) (m₁ m₂ : Machine) : Prop
    extends SameView p e₁ e₂ m₁ m₂ where
  args_eq : m₁.args = m₂.args
  size_eq : m₁.regs.size = m₂.regs.size
  live : ∀ n : ℕ, m₁.pc = n → n < p.size → ∀ r ∈ L n, m₁.regs[r]? = m₂.regs[r]?

variable {L : Nat → Set ℕ} {calls : CallTable} {limit fuel : Nat} {i : Instr}

/-- Machines in step that agree on `V` agree on what is live at their offset when it lies in `V`. -/
theorem Synced.agree_of_subset {V : Set ℕ} (h : Synced p e₁ e₂ V c l m₁ m₂)
    (hV : ∀ n : ℕ, c = n → n < p.size → L n ⊆ V) : Agree p e₁ e₂ L m₁ m₂ :=
  { h with live := fun n hn hlt r hr => h.agree r (hV n (h.pc₁ ▸ hn) hlt hr) }

/-- Moving on to the next offset keeps two machines in step. -/
theorem Synced.agree_advance {V : Set ℕ} (h : Synced p e₁ e₂ V c l m₁ m₂) {b : Bool}
    (hV : ∀ n : ℕ, c + 1 = n → n < p.size → L n ⊆ V) :
    Agree p e₁ e₂ L { m₁ with pc := m₁.pc + 1, ln := b } { m₂ with pc := m₂.pc + 1, ln := b } :=
  { h with
    pc_eq := by simp [h.pc_eq]
    live := fun n hn hlt r hr => h.agree r (hV n (by simpa [h.pc₁] using hn) hlt hr) }

/-- After the instruction at `n`, moving on when control continues: the machines agree on what is
live where control went, since that is live at `n` or written by the instruction. -/
theorem alike_resume {a : Access} {n : Nat} (hL : p.LiveClosed L)
    (hi : p.instrs[n]? = some i) (ha : i.access = .ok a)
    (hrun : Alike p e₁ e₂ (Agree p e₁ e₂ L) Q (runFor p calls limit fuel)) :
    Alike p e₁ e₂ (fun s₁ s₂ => ∃ c' l', Next i n c' l' ∧
        Synced p e₁ e₂ (L n ∪ {r | (r : Int) ∈ a.defs}) c' l' s₁ s₂) Q
      (do let m ← get
          if m.ln then set { m with pc := m.pc + 1 }
          runFor p calls limit fuel) := by
  have hpa : p.access n = .ok a := (Program.access_of_getElem? hi).trans ha
  rintro s₁ s₂ ⟨c', l', hnext, hs⟩
  simp only [EStateM.run_bind, EStateM.run_get, hs.ln₁, hs.ln₂]
  rcases hnext with ⟨rfl, rfl, hf⟩ | ⟨rfl, ht | rfl⟩
  · -- on to the next instruction
    simp only [if_true, EStateM.run_bind, EStateM.run_set]
    refine hrun _ _ (hs.agree_advance fun k hk hlt r hr => ?_)
    exact hL.mem_of_succ hpa ⟨i, hi, hlt, .inr ⟨hf, by omega⟩⟩ hr
  · -- to a branch target
    refine hrun _ _ (hs.agree_of_subset fun k hk hlt => ?_)
    exact fun r hr => hL.mem_of_succ hpa ⟨i, hi, hlt, .inl (hk ▸ ht)⟩ hr
  · -- out of the program
    refine hrun _ _ (hs.agree_of_subset fun k hk _ => ?_)
    omega

/-- Two machines that agree on what `L` has live run alike, for any fuel and any step limit. -/
theorem runFor_alike (hL : p.LiveClosed L) (calls : CallTable) (limit fuel : Nat) :
    Alike p e₁ e₂ (Agree p e₁ e₂ L) (Agree p e₁ e₂ L) (runFor p calls limit fuel) := by
  induction fuel with
  | zero => exact alike_pure (fun _ _ h => h) none
  | succ fuel ih =>
    intro m₁ m₂ h
    -- both fetch the same instruction and see the same step count
    have hfetch : (if 0 ≤ m₂.pc then p.instrs[m₂.pc.toNat]? else none) =
        (if 0 ≤ m₁.pc then p.instrs[m₁.pc.toNat]? else none) := by rw [h.pc_eq]
    cases hi : (if 0 ≤ m₁.pc then p.instrs[m₁.pc.toNat]? else none) with
    | none =>
      exact .inl ⟨none, m₁, m₂, run_runFor_of_fetch_none hi,
        run_runFor_of_fetch_none (hfetch.trans hi), h⟩
    | some i =>
      have hi₂ := hfetch.trans hi
      by_cases hl : 0 < limit ∧ limit ≤ m₁.steps
      · exact .inl ⟨_, m₁, m₂, run_runFor_of_limit hi hl,
          h.pc_eq ▸ run_runFor_of_limit hi₂ (h.steps_eq ▸ hl), h⟩
      have hl₂ : ¬ (0 < limit ∧ limit ≤ m₂.steps) := h.steps_eq ▸ hl
      cases ho : i.opcode? with
      | none =>
        exact .inr ⟨_, m₁, m₂, run_runFor_of_illegal hi hl ho, run_runFor_of_illegal hi₂ hl₂ ho,
          h.toSameView⟩
      | some o =>
        rw [run_runFor_succ hi hl ho, run_runFor_succ hi₂ hl₂ ho]
        obtain ⟨n, hn, hin⟩ := exists_of_fetch hi
        obtain ⟨a, ha⟩ := Instr.access_eq_ok (i := i) (by simp [ho])
        have hpa : p.access n = .ok a := (Program.access_of_getElem? hin).trans ha
        have hlt : n < p.size := (Array.getElem?_eq_some_iff.mp hin).1
        have hret : p.IsRet n → o = .ret := fun hr =>
          (Option.some.inj ((hr.opcode hin).symm.trans ho)).symm
        refine ((exec_alike calls ho ha (hL.uses hpa) hret).bind fun _ =>
          alike_resume hL hin ha ih) _ _ ?_
        exact { h with
          steps_eq := by simp [h.steps_eq]
          pc₁ := hn
          ln₁ := rfl
          ln₂ := rfl
          agree := h.live n hn hlt }

/-- Two machines that agree on what `L` has live run alike for any number of instructions: the
same result, the same view, and, where the run stops without an abort, agreement on what is live
there. -/
theorem runUpTo_alike (hL : p.LiveClosed L) (calls : CallTable) (limit fuel : Nat)
    (h : Agree p e₁ e₂ L m₁ m₂) :
    (runUpTo p calls limit fuel m₁).1 = (runUpTo p calls limit fuel m₂).1 ∧
      SameView p e₁ e₂ (runUpTo p calls limit fuel m₁).2 (runUpTo p calls limit fuel m₂).2 ∧
      ∀ res, (runUpTo p calls limit fuel m₁).1 = .ok res →
        Agree p e₁ e₂ L (runUpTo p calls limit fuel m₁).2 (runUpTo p calls limit fuel m₂).2 := by
  rcases runFor_alike hL calls limit fuel m₁ m₂ h with
    ⟨a, s₁, s₂, h₁, h₂, hs⟩ | ⟨err, s₁, s₂, h₁, h₂, hs⟩
  · have hr₁ : runUpTo p calls limit fuel m₁ = (.ok a, s₁) := by simp only [runUpTo, h₁]
    have hr₂ : runUpTo p calls limit fuel m₂ = (.ok a, s₂) := by simp only [runUpTo, h₂]
    rw [hr₁, hr₂]
    exact ⟨rfl, hs.toSameView, fun _ _ => hs⟩
  · have hr₁ : runUpTo p calls limit fuel m₁ = (.error err, s₁) := by simp only [runUpTo, h₁]
    have hr₂ : runUpTo p calls limit fuel m₂ = (.error err, s₂) := by simp only [runUpTo, h₂]
    rw [hr₁, hr₂]
    exact ⟨rfl, hs, fun _ h => by cases h⟩

end Machine

/-- The sets a converged analysis reports over a faithful cut are closed backward along the
program's control flow. -/
theorem FlowGraph.Cuts.liveClosed {g : FlowGraph} {p : Program} (hc : g.Cuts p) (al : Set ℕ) :
    p.LiveClosed fun n => al ∪ {r | g.LivePath p.access r n} where
  uses ha r hr := .inr (LivePath.use (by rw [Decoder.accessAt_of_eq_ok ha]; exact hr))
  succ ha hs r hr hd := hr.imp id fun hpath =>
    LivePath.step (by rw [Decoder.accessAt_of_eq_ok ha]; exact hd) (hc.instrSucc_iff.mpr hs) hpath

/-- Registers that are not live do not matter: for every program the analysis and the machine
accept, the analysis succeeds, and two machines at the same offset, with the same step count,
arguments and register-file size, that agree on every register reported live at that offset run
alike for any functions called, any step limit and any number of instructions. They stop with the
same result and at the same offset and step count. They make the same reads in the same order, and
each read that finds its register finds the same value in both. Once a read made by a `ret` has
found its register, they return the same value; until then each returned value is the same in both
or as it was at the start. Where the run stops without an abort, they agree again on what is live
where it stopped. `Machine.run` is such a run, of `Machine.runUpTo` with the step limit and one
instruction more, or with `2^32` instructions when there is no limit. -/
theorem run_alike_of_agree_on_live {p : Program} {pins : List Int} {o : Options} {m N : Nat}
    (hp : p.Valid) (hm : p.operandCount = .ok m) (hmN : m ≤ N) (hN : o.operandCount = some N)
    (hal : ∀ r ∈ o.alwaysLive, r < N) :
    ∃ g lv, p.toGraph pins = .ok g ∧ Liveness.analyze g.toRaw p.access o = .ok lv ∧
      ∀ (calls : CallTable) (limit : Nat) (e₁ e₂ : Machine), e₁.pc = e₂.pc →
        e₁.steps = e₂.steps → e₁.args = e₂.args → e₁.regs.size = e₂.regs.size →
        (∀ X, lv.liveSetAt e₁.pc = .ok X → ∀ r ∈ X.indices, e₁.regs[r]? = e₂.regs[r]?) →
        ∀ fuel, (Machine.runUpTo p calls limit fuel e₁).1 = (Machine.runUpTo p calls limit fuel e₂).1 ∧
          Machine.SameView p e₁ e₂ (Machine.runUpTo p calls limit fuel e₁).2
            (Machine.runUpTo p calls limit fuel e₂).2 ∧
          ∀ res, (Machine.runUpTo p calls limit fuel e₁).1 = .ok res →
            ∀ X, lv.liveSetAt (Machine.runUpTo p calls limit fuel e₁).2.pc = .ok X →
              ∀ r ∈ X.indices, (Machine.runUpTo p calls limit fuel e₁).2.regs[r]? =
                (Machine.runUpTo p calls limit fuel e₂).2.regs[r]? := by
  obtain ⟨g, lv, hg, hc, han, hs⟩ := p.exists_solved hp hm hmN hN hal pins
  have hL := hc.liveClosed {r | r ∈ o.alwaysLive}
  -- agreement on a reported set is agreement on the path-defined live set
  have hlive : ∀ m₁ m₂ : Machine,
      (∀ X, lv.liveSetAt m₁.pc = .ok X → ∀ r ∈ X.indices, m₁.regs[r]? = m₂.regs[r]?) ↔
        ∀ n : ℕ, m₁.pc = n → n < p.size →
          ∀ r ∈ {r | r ∈ o.alwaysLive} ∪ {r | g.LivePath p.access r n},
            m₁.regs[r]? = m₂.regs[r]? := fun m₁ m₂ => by
    rw [hs.forall_liveSetAt_iff, hc.instrCount_eq]
  refine ⟨g, lv, hg, han, fun calls limit e₁ e₂ hpc hsteps hargs hsize hagree fuel => ?_⟩
  -- at the start neither run has read anything, so no `ret` has run
  have h₀ : Machine.Agree p e₁ e₂ _ e₁ e₂ :=
    { pc_eq := hpc, steps_eq := hsteps, reads := ⟨#[], by simp, by simp⟩,
      seen := ⟨#[], by simp, by simp⟩, rv := .inr ⟨rfl, rfl⟩
      rv_of_ret := fun σ hσ ⟨q, hq, _⟩ => by
        rw [Array.self_eq_append_right.mp hσ] at hq
        simp at hq
      args_eq := hargs, size_eq := hsize, live := (hlive e₁ e₂).mp hagree }
  obtain ⟨hres, hview, hend⟩ := Machine.runUpTo_alike hL calls limit fuel h₀
  exact ⟨hres, hview, fun res hr => (hlive _ _).mpr (hend res hr).live⟩

/-- The countdown, cut with no extra pins and analysed over four operands. -/
theorem run_alike_of_agree_on_live_countdown :
    countdown.Valid ∧ countdown.operandCount = .ok 4 ∧
      ∃ g lv, countdown.toGraph [] = .ok g ∧
        Liveness.analyze g.toRaw countdown.access { operandCount := some 4 } = .ok lv ∧
        ∀ (calls : CallTable) (limit : Nat) (e₁ e₂ : Machine), e₁.pc = e₂.pc →
          e₁.steps = e₂.steps → e₁.args = e₂.args → e₁.regs.size = e₂.regs.size →
          (∀ X, lv.liveSetAt e₁.pc = .ok X → ∀ r ∈ X.indices, e₁.regs[r]? = e₂.regs[r]?) →
          ∀ fuel, (Machine.runUpTo countdown calls limit fuel e₁).1 =
              (Machine.runUpTo countdown calls limit fuel e₂).1 ∧
            Machine.SameView countdown e₁ e₂ (Machine.runUpTo countdown calls limit fuel e₁).2
              (Machine.runUpTo countdown calls limit fuel e₂).2 ∧
            ∀ res, (Machine.runUpTo countdown calls limit fuel e₁).1 = .ok res →
              ∀ X, lv.liveSetAt (Machine.runUpTo countdown calls limit fuel e₁).2.pc = .ok X →
                ∀ r ∈ X.indices, (Machine.runUpTo countdown calls limit fuel e₁).2.regs[r]? =
                  (Machine.runUpTo countdown calls limit fuel e₂).2.regs[r]? := by
  have hp : countdown.Valid := by decide
  have hm : countdown.operandCount = .ok 4 := by rfl
  exact ⟨hp, hm, run_alike_of_agree_on_live hp hm (Nat.le_refl 4) rfl (fun r hr => by simp at hr)⟩

end RegisterLiveness
