import RegisterLiveness.Machine.Program

/-!
# Assembling programs with labels

An `Assembler` emits instructions one after another and resolves symbolic branch targets, forward
and backward. A label binds a name to the offset of the next instruction. A name may contain
`{n}`, which stands for the number of marks made so far, so that one template names a fresh label
after every mark.

A reference to a bound name is resolved at once; any other is patched when the name is bound.
Binding a name twice aborts at the second binding. Finishing aborts if a referenced name was
never bound, or if a label was bound after the last instruction.
-/

namespace RegisterLiveness

/-- An instruction whose branch targets are still named by labels. -/
inductive Stmt where
  /-- An instruction without symbolic targets. -/
  | plain (i : Instr)
  /-- A conditional or unconditional branch to one label. -/
  | branch (i : Instr) (dst : String)
  /-- A jump table, one label per entry. -/
  | switch (i : Instr) (table : List String)
  deriving Repr, Inhabited

/-- The operands written on an assembly line, each zero or empty when absent. -/
structure Operands where
  rx : Register := 0
  ry : Register := 0
  rz : Register := 0
  iv : Int64 := 0
  /-- The label a branch goes to. -/
  «to» : String := ""
  /-- The labels of a jump table. -/
  table : List String := []
  args : List Register := []
  rets : List Register := []
  fn : String := ""
  deriving Repr, Inhabited

/-- The statement emitted for an operation: it keeps the operands the operation has and drops the
others. -/
def Stmt.ofOperands (op : Opcode) (o : Operands) : Stmt :=
  let b := op.byte
  match op with
  | .nop | .halt => .plain { op := b }
  | .iq | .ldarg => .plain { op := b, iv := o.iv, rx := o.rx }
  | .mov => .plain { op := b, rx := o.rx, ry := o.ry }
  | .add | .sub | .mul => .plain { op := b, rx := o.rx, ry := o.ry, rz := o.rz }
  | .addi => .plain { op := b, rx := o.rx, iv := o.iv, ry := o.ry }
  | .beq | .bne | .blt => .branch { op := b, rx := o.rx, ry := o.ry } o.«to»
  | .jmp => .branch { op := b } o.«to»
  | .bsw => .switch { op := b, rx := o.rx } o.table
  | .call => .plain { op := b, fn := o.fn, ar := o.args, rr := o.rets }
  | .ret => .plain { op := b, rx := o.rx }

/-- Where a target waits for its label: the instruction, and the table entry if any. -/
structure Patch where
  pc : Nat
  slot : Option Nat
  deriving Repr, Inhabited

/-- The state of an assembly. -/
structure Assembler where
  marks : Nat := 0
  code : Array Instr := #[]
  /-- Bound names with their offsets, in binding order. -/
  bound : List (String × Nat) := []
  /-- Names referenced but not yet bound, with their patches, in order of first reference. -/
  pending : List (String × List Patch) := []
  deriving Inhabited

namespace Assembler

/-- A label name with every `{n}` replaced by the number of marks. -/
def resolve (a : Assembler) (name : String) : String :=
  name.replace "\x7bn\x7d" (toString a.marks)

/-- Count one more mark. -/
def mark (a : Assembler) : Assembler := { a with marks := a.marks + 1 }

/-- Add a patch under a pending name, keeping the names in order of first reference. -/
def addPending (ps : List (String × List Patch)) (name : String) (p : Patch) :
    List (String × List Patch) :=
  if ps.any (·.1 == name) then ps.map fun (k, v) => if k == name then (k, v ++ [p]) else (k, v)
  else ps ++ [(name, [p])]

/-- The target of a reference to `name` from the instruction about to be emitted: its offset if
bound, otherwise `-1` and a patch. -/
def link (a : Assembler) (name : String) (slot : Option Nat) : Int × Assembler :=
  let name := a.resolve name
  match a.bound.lookup name with
  | some pc => (pc, a)
  | none => (-1, { a with pending := addPending a.pending name ⟨a.code.size, slot⟩ })

/-- Point one waiting target at `pc`. -/
def Patch.apply (pc : Nat) (code : Array Instr) (p : Patch) : Array Instr :=
  code.modify p.pc fun i => match p.slot with
    | none => { i with br := pc }
    | some k => { i with sw := i.sw.set k pc }

/-- Bind `name` to the offset of the next instruction, patching the references waiting for it. -/
def label (a : Assembler) (name : String) : Except Abort Assembler :=
  let name := a.resolve name
  if (a.bound.lookup name).isSome then .error (.message s!"label {name} has already been linked")
  else
    let pc := a.code.size
    let waiting := (a.pending.lookup name).getD []
    .ok { a with
      code := waiting.foldl (Patch.apply pc) a.code
      bound := a.bound ++ [(name, pc)]
      pending := a.pending.filter (·.1 != name) }

/-- Emit one instruction, linking its symbolic targets. -/
def emit (a : Assembler) : Stmt → Assembler
  | .plain i => { a with code := a.code.push i }
  | .branch i dst =>
    let (br, a) := a.link dst none
    { a with code := a.code.push { i with br := br } }
  | .switch i table =>
    let (sw, a) := table.zipIdx.foldl (fun (acc : List Int × Assembler) (dst, k) =>
      let (t, a) := acc.2.link dst (some k)
      (acc.1 ++ [t], a)) ([], a)
    { a with code := a.code.push { i with sw := sw } }

/-- The assembled program, once every name is bound and no label follows the last instruction. -/
def finish (a : Assembler) : Except Abort Program :=
  match a.pending with
  | (name, _) :: _ => .error (.message ("labels are not fully resolved: " ++ name))
  | [] =>
    if a.bound.any (·.2 ≥ a.code.size) then .error (.message "labels pointing past the end of program")
    else .ok ⟨a.code⟩

end Assembler

/-- One line of assembly: a label to bind, a mark to make, an instruction to emit, in this order. -/
structure Line where
  label : Option String := none
  mark : Bool := false
  stmt : Option Stmt := none
  deriving Repr, Inhabited

/-- Assemble lines into a program. -/
def Line.assemble (lines : List Line) : Except Abort Program := do
  let a ← lines.foldlM (fun (a : Assembler) l => do
    let a ← match l.label with
      | some name => a.label name
      | none => pure a
    let a := if l.mark then a.mark else a
    return match l.stmt with
      | some s => a.emit s
      | none => a) {}
  a.finish

end RegisterLiveness
