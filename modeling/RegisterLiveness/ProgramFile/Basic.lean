import RegisterLiveness.Machine.Assembler
import RegisterLiveness.Text.Quoted

/-!
# Program files

A program file writes a program as a list of code lines, each an instruction named by its
mnemonic with its operands and an optional label, together with the size of the operand universe
and the always-live operands its analysis uses. Both may be left out: an operand count of zero
stands for the count the code needs, and absent always-live operands stand for the special
registers.

`ProgramFile.build` checks the file and assembles its code. The checks run in this order: a
negative operand count, then a negative always-live operand, then the code lines one by one, each
its label first (a label bound twice is refused), then its mnemonic, then the target a branch
needs; last, every referenced label must be bound. `LoadError` lists every way loading a program
file fails, and `LoadError.message` words each.
-/

namespace RegisterLiveness

/-- One line of a program file. Absent operands are zero or empty. -/
structure CodeLine where
  label : String := ""
  /-- The mnemonic of the instruction. -/
  op : String := ""
  rx : Nat := 0
  ry : Nat := 0
  rz : Nat := 0
  iv : Int := 0
  /-- The label a branch goes to. -/
  «to» : String := ""
  /-- The labels of a jump table. -/
  table : List String := []
  args : List Nat := []
  rets : List Nat := []
  fn : String := ""
  deriving Repr, Inhabited

/-- A program file as decoded, before any check. -/
structure ProgramFile where
  /-- The size of the operand universe; zero stands for the size the code needs. -/
  operands : Int := 0
  /-- The always-live operands; absent stands for the special registers. -/
  alwaysLive : Option (List Int) := none
  code : List CodeLine := []
  deriving Repr, Inhabited

/-- A program ready for analysis, with the operand universe and the always-live operands. -/
structure LoadedProgram where
  program : Program
  operands : Nat
  alwaysLive : List Nat
  deriving Inhabited

/-- Why a program file could not be loaded. -/
inductive LoadError where
  /-- The file could not be read; the system's message. -/
  | unreadable (reason : String)
  /-- The text is malformed, or does not fit a program file; the reader's message. -/
  | malformed (message : String)
  /-- A key that no field of a program file takes. -/
  | unknownField (key : String)
  | negativeOperandCount (n : Int)
  | negativeAlwaysLive (r : Int)
  /-- A code line, counted from 0, whose mnemonic names no operation. -/
  | unknownInstruction (line : Nat) (name : String)
  /-- A branch on a code line, counted from 0, without a target. -/
  | missingTarget (line : Nat) (op : Opcode)
  /-- Labels that do not resolve. -/
  | assembly (a : Abort)
  deriving Inhabited

/-- The message of a load error. -/
def LoadError.message : LoadError → String
  | .unreadable reason => "failed to read program: " ++ reason
  | .malformed m => "failed to parse program: " ++ m
  | .unknownField k => "failed to parse program: unknown field " ++ Text.quote k
  | .negativeOperandCount n => s!"invalid program: negative operand count {n}"
  | .negativeAlwaysLive r => s!"invalid program: negative always-live operand {r}"
  | .unknownInstruction i name => s!"line {i}: unknown instruction " ++ Text.quote name
  | .missingTarget i op =>
    let m := op.mnemonic
    s!"line {i}: {m} requires a target"
  | .assembly a => "invalid program: " ++ a.text

namespace CodeLine

/-- The names of the fields of a code line, as files write them. -/
def fieldNames : List String :=
  ["label", "op", "rx", "ry", "rz", "iv", "to", "table", "args", "rets", "fn"]

/-- The operands of the line. -/
def operands (l : CodeLine) : Operands :=
  { rx := l.rx, ry := l.ry, rz := l.rz, iv := Int64.ofInt l.iv, «to» := l.«to», table := l.table,
    args := l.args, rets := l.rets, fn := l.fn }

/-- Whether an operation branches to one label. -/
def needsTarget (op : Opcode) : Bool :=
  op = .beq || op = .bne || op = .blt || op = .jmp

/-- Add the line, counted `i` from 0, to an assembly: bind its label, then emit its
instruction. -/
def assembleInto (a : Assembler) (l : CodeLine) (i : Nat) : Except LoadError Assembler := do
  let a ← if l.label.isEmpty then pure a else
    match a.label l.label with
    | .ok a => pure a
    | .error e => throw (.assembly e)
  match Opcode.parse? l.op with
  | none => throw (.unknownInstruction i l.op)
  | some op =>
    if needsTarget op ∧ l.«to».isEmpty then throw (.missingTarget i op)
    return a.emit (Stmt.ofOperands op l.operands)

end CodeLine

/-- Assemble code lines into a program. -/
def CodeLine.assemble (lines : List CodeLine) : Except LoadError Program := do
  let a ← lines.zipIdx.foldlM (fun a (l, i) => l.assembleInto a i) ({} : Assembler)
  match a.finish with
  | .ok p => pure p
  | .error e => throw (.assembly e)

/-- The names of the fields of a program file, as files write them. -/
def ProgramFile.fieldNames : List String := ["operands", "always_live", "code"]

/-- Check a program file and assemble its code, filling in the defaults. -/
def ProgramFile.build (f : ProgramFile) : Except LoadError LoadedProgram := do
  if f.operands < 0 then throw (.negativeOperandCount f.operands)
  match (f.alwaysLive.getD []).find? (· < 0) with
  | some r => throw (.negativeAlwaysLive r)
  | none => pure ()
  let p ← CodeLine.assemble f.code
  let operands ← if f.operands = 0 then
      match p.operandCount with
      | .ok n => pure n
      | .error e => throw (.assembly e)
    else pure f.operands.toNat
  let alwaysLive := match f.alwaysLive with
    | some rs => rs.map Int.toNat
    | none => alwaysLiveRegisters
  return ⟨p, operands, alwaysLive⟩

end RegisterLiveness
