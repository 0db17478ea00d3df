import RegisterLiveness.Machine.Instr

/-!
# Programs

A program is a sequence of instructions, numbered from 0. Its branch targets are named `L_0`,
`L_1`, … by increasing offset (`Program.labels`), whether or not they lie inside the program, and
its listing writes every instruction on its own line, right-aligned offset first, preceded by the
label of its offset if it has one.

`Program.operandCount` is the size of the register universe a liveness analysis of the program
needs: one more than the largest register any instruction defines or uses, and never fewer than
the special registers.
-/

namespace RegisterLiveness

/-- A program of the register bytecode. -/
structure Program where
  instrs : Array Instr
  deriving Repr, Inhabited

namespace Program

/-- The number of instructions. -/
def size (p : Program) : Nat := p.instrs.size

/-- The registers the instruction at `pc` defines and uses. -/
def access (p : Program) (pc : Nat) : Except Abort Access :=
  match p.instrs[pc]? with
  | some i => i.access
  | none => .error (Abort.indexOutOfRange pc p.size)

/-- The size of the register universe: one more than the largest register defined or used,
at least the number of special registers. -/
def operandCount (p : Program) : Except Abort Nat :=
  p.instrs.foldlM (fun m i => do
    let a ← i.access
    return (a.defs ++ a.uses).foldl (fun m r => max m (r.toNat + 1)) m) specialRegisters

/-- The branch targets by increasing offset, each with its name `L_k`. -/
def labels (p : Program) : List (Int × String) :=
  let targets := (p.instrs.toList.flatMap Instr.targets).eraseDups.mergeSort
  targets.zipIdx.map fun (t, k) => (t, s!"L_{k}")

/-- The name of a branch target, given the labels; empty for an offset no branch targets. -/
def labelName (refs : List (Int × String)) (pc : Int) : String := (refs.lookup pc).getD ""

/-- How the instruction at `pc` is written, with targets named by their labels. -/
def disassemble (p : Program) (pc : Nat) : Except Abort String :=
  match p.instrs[pc]? with
  | some i => i.disassemble (labelName p.labels)
  | none => .error (Abort.indexOutOfRange pc p.size)

/-- A number right-aligned in four columns. -/
def rightAlign4 (n : Nat) : String :=
  let s := toString n
  String.ofList (List.replicate (4 - s.length) ' ') ++ s

/-- The listing of the program: one line per instruction, each preceded by its label line. -/
def listing (p : Program) : Except Abort String := do
  let refs := p.labels
  let lines ← (p.instrs.toList.zipIdx).mapM fun (i, pc) => do
    let text ← i.disassemble (labelName refs)
    let line := rightAlign4 pc ++ "    " ++ text
    return match refs.lookup (pc : Int) with
      | some l => [l ++ ":", line]
      | none => [line]
  return "\n".intercalate lines.flatten

end Program

end RegisterLiveness
