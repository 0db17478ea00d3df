import RegisterLiveness.Machine.Program

/-!
# Running programs

A `Machine` runs a program from offset 0 until control leaves the program: `ret` and `halt` jump
to offset `-1`, a branch may jump anywhere, and falling off the end also stops. Registers hold
64-bit integers and arithmetic wraps. Every register read is recorded, with the offset of the
instruction reading it, before the register is looked up; a read that finds its register is
recorded once more with the value it returns.

A run is a computation over the machine state that may abort; an abort keeps the state reached
so far, so that the registers, the step count and the reads up to the failing instruction remain
visible. Reading or writing a register the machine does not have aborts as an index out of range,
and so do `ldarg` of a missing argument, `call` of an unknown function or one returning the wrong
number of values, and an operation byte naming no operation. A run given a step limit stops with
an error when the limit is reached while control is still in the program.

`runUpTo` runs for at most a given number of instructions and stops quietly when they are spent.
`run` gives a run with a step limit one instruction more than the limit, so that the limit and not
the count stops it, and a run without one `2^32` instructions.
-/

namespace RegisterLiveness

/-- The functions `call` can invoke, by name. -/
abbrev CallTable := String → Option (List Int64 → List Int64)

/-- The state of a running program. -/
structure Machine where
  pc : Int := 0
  regs : Array Int64
  args : Array Int64 := #[]
  /-- The value of the last `ret`. -/
  rv : Int64 := 0
  /-- Whether control continues with the next instruction. -/
  ln : Bool := false
  steps : Nat := 0
  /-- Every register read, as (offset, register), in order. -/
  reads : Array (Int × Register) := #[]
  /-- Every read that found its register, as (offset, register, value), in order. -/
  seen : Array (Int × Register × Int64) := #[]
  deriving Repr, Inhabited

/-- A computation on the machine that may abort, keeping the state reached. -/
abbrev Exec := EStateM Abort Machine

namespace Machine

/-- A machine about to run, with `nr` zeroed registers and the given arguments. -/
def load (nr : Nat) (args : Array Int64) : Machine := { regs := Array.replicate nr 0, args := args }

/-- Read register `r`, recording the read first and the value found after. -/
def read (r : Register) : Exec Int64 := do
  modify fun m => { m with reads := m.reads.push (m.pc, r) }
  let m ← get
  match m.regs[r]? with
  | some v =>
    set { m with seen := m.seen.push (m.pc, r, v) }
    pure v
  | none => throw (Abort.indexOutOfRange r m.regs.size)

/-- Write `v` into register `r`. -/
def write (r : Register) (v : Int64) : Exec Unit := do
  let m ← get
  if h : r < m.regs.size then set { m with regs := m.regs.set r v h }
  else throw (Abort.indexOutOfRange r m.regs.size)

/-- Transfer control to `to`. -/
def jump (dst : Int) : Exec Unit := modify fun m => { m with pc := dst, ln := false }

/-- Execute one instruction whose operation is `op`. -/
def exec (calls : CallTable) (i : Instr) : Opcode → Exec Unit
  | .nop => pure ()
  | .iq => write i.rx i.iv
  | .mov => do write i.ry (← read i.rx)
  | .add => do let x ← read i.rx; let y ← read i.ry; write i.rz (x + y)
  | .sub => do let x ← read i.rx; let y ← read i.ry; write i.rz (x - y)
  | .mul => do let x ← read i.rx; let y ← read i.ry; write i.rz (x * y)
  | .addi => do let x ← read i.rx; write i.ry (x + i.iv)
  | .ldarg => do
    let m ← get
    let k := i.iv.toInt
    if h : 0 ≤ k ∧ k.toNat < m.args.size then write i.rx m.args[k.toNat]
    else throw (.message s!"ldarg: argument {k} does not exist")
  | .beq => do let x ← read i.rx; let y ← read i.ry; if x == y then jump i.br
  | .bne => do let x ← read i.rx; let y ← read i.ry; if x != y then jump i.br
  | .blt => do let x ← read i.rx; let y ← read i.ry; if x < y then jump i.br
  | .jmp => jump i.br
  | .bsw => do
    let v := (← read i.rx).toUInt64.toNat
    match i.sw[v]? with
    | some t => jump t
    | none => pure ()
  | .call => do
    match calls i.fn with
    | none => throw (.message ("call: function not registered: " ++ i.fn))
    | some f =>
      let vs ← i.ar.mapM read
      let rs := f vs
      if rs.length != i.rr.length then
        let got := rs.length
        let want := i.rr.length
        throw (.message ("call: " ++ i.fn ++ s!" returned {got} values, expected {want}"))
      (i.rr.zip rs).forM fun (r, v) => write r v
  | .ret => do
    let v ← read i.rx
    modify fun m => { m with rv := v }
    jump (-1)
  | .halt => jump (-1)

/-- Run from the current state for at most `fuel` instructions, stopping with an error when
`limit` is positive and `limit` instructions have been executed. -/
def runFor (p : Program) (calls : CallTable) (limit : Nat) : (fuel : Nat) → Exec (Option Error)
  | 0 => pure none
  | fuel + 1 => do
    let m ← get
    match (if 0 ≤ m.pc then p.instrs[m.pc.toNat]? else none) with
    | none => pure none
    | some i =>
      if 0 < limit ∧ limit ≤ m.steps then
        let pc := m.pc
        return some (.plain s!"emulator: step limit {limit} exceeded at {pc}")
      match i.opcode? with
      | none => throw (.message ("illegal OpCode: 0x" ++ hexByte i.op))
      | some op =>
        set { m with ln := true, steps := m.steps + 1 }
        exec calls i op
        let m ← get
        if m.ln then set { m with pc := m.pc + 1 }
        runFor p calls limit fuel

/-- The number of instructions a run without a step limit executes at most. -/
def unlimitedFuel : Nat := Nat.pow 2 32

/-- Run for at most `fuel` instructions; the state reached and either its error, if any, or the
abort that stopped it. -/
def runUpTo (p : Program) (calls : CallTable) (limit fuel : Nat) (m : Machine) :
    Except Abort (Option Error) × Machine :=
  match (runFor p calls limit fuel).run m with
  | .ok r m => (.ok r, m)
  | .error a m => (.error a, m)

/-- Run the program with a step limit, `0` meaning none; the state after the run and either its
error, if any, or the abort that stopped it. -/
def run (p : Program) (calls : CallTable) (limit : Nat) (m : Machine) :
    Except Abort (Option Error) × Machine :=
  runUpTo p calls limit (if limit = 0 then unlimitedFuel else limit + 1) m

end Machine

end RegisterLiveness
