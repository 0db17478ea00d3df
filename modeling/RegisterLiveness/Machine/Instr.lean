import RegisterLiveness.Failure
import RegisterLiveness.Analysis.Summary

/-!
# Instructions of the register bytecode

The bytecode has sixteen operations over 64-bit registers, numbered by 16-bit indices. Registers
0 and 1 are special (the receiver `this` and the closure `scope`) and stay live everywhere. An
instruction stores its operation as a byte, so that a byte naming no operation can still be
written down, printed and rejected where it matters.

For every instruction this module says which registers it defines and uses (`Instr.access`), where
control may go next (`Instr.targets`, `Instr.fallsThrough`), and how it is written
(`Instr.disassemble`). The registers used are listed in the order the instruction reads them.
-/

namespace RegisterLiveness

/-- The operations of the bytecode. -/
inductive Opcode where
  | nop | iq | mov | add | sub | mul | addi | ldarg
  | beq | bne | blt | jmp | bsw | call | ret | halt
  deriving Repr, DecidableEq, Inhabited

namespace Opcode

/-- Every operation, by byte. -/
def all : List Opcode :=
  [.nop, .iq, .mov, .add, .sub, .mul, .addi, .ldarg, .beq, .bne, .blt, .jmp, .bsw, .call, .ret, .halt]

/-- The byte of an operation. -/
def byte : Opcode → UInt8
  | .nop => 0 | .iq => 1 | .mov => 2 | .add => 3 | .sub => 4 | .mul => 5 | .addi => 6 | .ldarg => 7
  | .beq => 8 | .bne => 9 | .blt => 10 | .jmp => 11 | .bsw => 12 | .call => 13 | .ret => 14 | .halt => 15

/-- The mnemonic of an operation. -/
def mnemonic : Opcode → String
  | .nop => "nop" | .iq => "iq" | .mov => "mov" | .add => "add" | .sub => "sub" | .mul => "mul"
  | .addi => "addi" | .ldarg => "ldarg" | .beq => "beq" | .bne => "bne" | .blt => "blt"
  | .jmp => "jmp" | .bsw => "bsw" | .call => "call" | .ret => "ret" | .halt => "halt"

/-- The operation a byte names, if any. -/
def ofByte? (b : UInt8) : Option Opcode := all[b.toNat]?

/-- The operation with a given mnemonic. -/
def parse? (s : String) : Option Opcode := all.find? (·.mnemonic == s)

end Opcode

/-- Two lowercase hexadecimal digits. -/
def hexByte (b : UInt8) : String :=
  let digit (d : Nat) : Char := if d < 10 then Char.ofNat (48 + d) else Char.ofNat (87 + d)
  String.ofList [digit (b.toNat / 16), digit (b.toNat % 16)]

/-- The name of an operation byte: its mnemonic, or `OpCode(0x…)` for a byte naming none. -/
def opcodeName (b : UInt8) : String :=
  match Opcode.ofByte? b with
  | some o => o.mnemonic
  | none => "OpCode(0x" ++ hexByte b ++ ")"

/-- A register index. -/
abbrev Register := Nat

/-- The number of special registers, which precede the general ones. -/
def specialRegisters : Nat := 2

/-- The registers live everywhere: the receiver and the closure scope. -/
def alwaysLiveRegisters : List Nat := [0, 1]

/-- The name of a register: `this`, `scope`, or `r` followed by its index. -/
def registerName (r : Register) : String :=
  if r = 0 then "this" else if r = 1 then "scope" else s!"r{r}"

/-- One instruction. Unused fields are zero or empty. -/
structure Instr where
  op : UInt8
  rx : Register := 0
  ry : Register := 0
  rz : Register := 0
  iv : Int64 := 0
  /-- The branch target of `beq`, `bne`, `blt` and `jmp`. -/
  br : Int := 0
  /-- The jump table of `bsw`. -/
  sw : List Int := []
  /-- The argument registers of `call`. -/
  ar : List Register := []
  /-- The result registers of `call`. -/
  rr : List Register := []
  /-- The function `call` invokes. -/
  fn : String := ""
  deriving Repr, Inhabited, DecidableEq

namespace Instr

/-- The operation, if the byte names one. -/
def opcode? (i : Instr) : Option Opcode := Opcode.ofByte? i.op

/-- Whether control may go to an explicit target: `beq` to `bsw`. -/
def isBranch (i : Instr) : Bool := 8 ≤ i.op && i.op ≤ 12

/-- Whether the instruction ends a basic block: a branch, `ret` or `halt`. -/
def isTerminator (i : Instr) : Bool := i.isBranch || i.op == 14 || i.op == 15

/-- Whether control may continue with the next instruction: all but `jmp`, `ret` and `halt`. -/
def fallsThrough (i : Instr) : Bool := !(i.op == 11 || i.op == 14 || i.op == 15)

/-- The explicit branch targets. -/
def targets (i : Instr) : List Int :=
  match i.opcode? with
  | some .beq | some .bne | some .blt | some .jmp => [i.br]
  | some .bsw => i.sw
  | _ => []

/-- The abort for a byte that names no operation. -/
def invalidOpcode (i : Instr) : Abort := .message ("invalid OpCode: 0x" ++ hexByte i.op)

/-- The registers the instruction defines and uses; a register may be in both, in which case it
is read before it is written. -/
def access (i : Instr) : Except Abort Access :=
  let regs (rs : List Register) : List Int := rs.map Int.ofNat
  match i.opcode? with
  | some .nop | some .jmp | some .halt => .ok {}
  | some .iq | some .ldarg => .ok ⟨regs [i.rx], []⟩
  | some .mov | some .addi => .ok ⟨regs [i.ry], regs [i.rx]⟩
  | some .add | some .sub | some .mul => .ok ⟨regs [i.rz], regs [i.rx, i.ry]⟩
  | some .beq | some .bne | some .blt => .ok ⟨[], regs [i.rx, i.ry]⟩
  | some .bsw | some .ret => .ok ⟨[], regs [i.rx]⟩
  | some .call => .ok ⟨regs i.rr, regs i.ar⟩
  | none => .error i.invalidOpcode

/-- A mnemonic padded to eight columns, then the operands. -/
def column (m : String) (operands : String) : String :=
  m ++ String.ofList (List.replicate (8 - m.length) ' ') ++ operands

/-- A register as an operand. -/
def reg (r : Register) : String := "%" ++ registerName r

/-- How the instruction is written, naming branch targets with `name`. -/
def disassemble (i : Instr) (name : Int → String) : Except Abort String :=
  let iv := toString i.iv.toInt
  let three (m : String) := column m (reg i.rx ++ ", " ++ reg i.ry ++ ", " ++ reg i.rz)
  let cond (m : String) := column m (reg i.rx ++ ", " ++ reg i.ry ++ ", " ++ name i.br)
  let regList (rs : List Register) := "\x7b" ++ ", ".intercalate (rs.map reg) ++ "\x7d"
  match i.opcode? with
  | some .nop => .ok "nop"
  | some .iq => .ok (column "iq" ("$" ++ iv ++ ", " ++ reg i.rx))
  | some .mov => .ok (column "mov" (reg i.rx ++ ", " ++ reg i.ry))
  | some .add => .ok (three "add")
  | some .sub => .ok (three "sub")
  | some .mul => .ok (three "mul")
  | some .addi => .ok (column "add" (reg i.rx ++ ", $" ++ iv ++ ", " ++ reg i.ry))
  | some .ldarg => .ok (column "ldarg" ("$" ++ iv ++ ", " ++ reg i.rx))
  | some .beq => .ok (cond "beq")
  | some .bne => .ok (cond "bne")
  | some .blt => .ok (cond "blt")
  | some .jmp => .ok (column "jmp" (name i.br))
  | some .bsw => .ok (column "bsw" (reg i.rx ++ ", \x7b" ++ ", ".intercalate (i.sw.map name) ++ "\x7d"))
  | some .call => .ok (column "call" (i.fn ++ ", " ++ regList i.ar ++ ", " ++ regList i.rr))
  | some .ret => .ok (column "ret" (reg i.rx))
  | some .halt => .ok "halt"
  | none => .error i.invalidOpcode

end Instr

end RegisterLiveness
