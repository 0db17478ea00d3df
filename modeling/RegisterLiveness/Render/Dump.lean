import RegisterLiveness.Analysis.Query

/-!
# A structured dump of the block sets

`Liveness.dump` writes one record per block, with its number and the members of its live-in and
live-out sets, in the indented layout of a reflective value printer: every value is preceded by
its type in parentheses, a non-empty list by its length, and nesting adds four spaces.
-/

namespace RegisterLiveness

namespace Liveness

/-- A list of integers at nesting `indent`: its type, its length when it has members, and one
member per line. -/
def dumpInts (indent : String) (xs : List Nat) : String :=
  if xs.isEmpty then "([]int) \x7b\n" ++ indent ++ "\x7d"
  else
    "([]int) (len=" ++ toString xs.length ++ ") \x7b\n" ++
      ",\n".intercalate (xs.map fun x => indent ++ "    (int) " ++ toString x) ++
      "\n" ++ indent ++ "\x7d"

/-- The record of block `bb`. -/
def dumpBlock (lv : Liveness) (bb : Nat) : String :=
  let inner := "        "
  "    (debug._BlockDump) \x7b\n" ++
    inner ++ "Block: (int) " ++ toString bb ++ ",\n" ++
    inner ++ "LiveIn: " ++ dumpInts inner (lv.flow.ins.getD bb .empty).indices ++ ",\n" ++
    inner ++ "LiveOut: " ++ dumpInts inner (lv.flow.outs.getD bb .empty).indices ++ "\n" ++
    "    \x7d"

/-- Every block's record, in a list, ending with a newline. -/
def dump (lv : Liveness) : String :=
  let nb := lv.blockCount
  if nb = 0 then "([]debug._BlockDump) \x7b\n\x7d\n"
  else
    "([]debug._BlockDump) (len=" ++ toString nb ++ ") \x7b\n" ++
      ",\n".intercalate ((List.range nb).map lv.dumpBlock) ++ "\n\x7d\n"

end Liveness

end RegisterLiveness
