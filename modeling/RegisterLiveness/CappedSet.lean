import RegisterLiveness.Failure
import RegisterLiveness.Bitset

/-!
# Sets with a capacity chosen at run time

A `CappedSet` is a bitset together with a capacity `n` fixed when the set is created. The bitset
would grow to hold any index it is handed, so the set checks every index against `[0, n)` first
(`check`), aborting with an `outOfRange` error naming the operand, and checks that the two sets of
a binary operation have one capacity (`same`), aborting with `bitvec: capacity mismatch: A and B`
(`mismatch`) otherwise. A negative capacity aborts naming it. Equality is the one binary
operation that never aborts: sets of different capacities are simply unequal.

Union and difference report a change by comparing the counts before and after; inclusion and
meeting are read off the size of the intersection; the members are enumerated by stepping from
set bit to set bit while below the capacity.

An operation that aborts changes nothing.
-/

namespace RegisterLiveness

/-- A set of operands whose universe `[0, capacity)` is chosen at run time, kept in a bitset. -/
structure CappedSet (B : Type) where
  capacity : Nat
  bits : B

namespace CappedSet

variable {B : Type} [Bitset B]

/-- An empty set of capacity `n`; a negative capacity aborts. -/
def new (n : Int) : Except Abort (CappedSet B) :=
  if n < 0 then .error (.raised (.outOfRange "capacity" n 0))
  else .ok ⟨n.toNat, Bitset.new n.toNat⟩

/-- The index `i` as a bit of the set, or an abort naming it when it lies outside
`[0, capacity)`. -/
def check (s : CappedSet B) (i : Int) : Except Abort Nat :=
  if i < 0 ∨ s.capacity ≤ i then .error (.raised (.outOfRange "operand" i s.capacity))
  else .ok i.toNat

/-- The abort of an operation on two sets of different capacities. -/
def mismatch (s t : CappedSet B) : Abort :=
  .message s!"bitvec: capacity mismatch: {s.capacity} and {t.capacity}"

/-- Nothing when the two sets have one capacity, and their mismatch otherwise. -/
def same (s t : CappedSet B) : Except Abort Unit :=
  if t.capacity ≠ s.capacity then .error (s.mismatch t) else .ok ()

/-- Add the index `i`. -/
def set (s : CappedSet B) (i : Int) : Except Abort (CappedSet B) := do
  let j ← s.check i
  return { s with bits := Bitset.set s.bits j }

/-- Remove the index `i`. -/
def clear (s : CappedSet B) (i : Int) : Except Abort (CappedSet B) := do
  let j ← s.check i
  return { s with bits := Bitset.clear s.bits j }

/-- Whether the index `i` is a member. -/
def test (s : CappedSet B) (i : Int) : Except Abort Bool := do
  let j ← s.check i
  return Bitset.test s.bits j

/-- A set of capacity `n` holding the listed indices, added one by one. -/
def ofIndices (n : Int) (is : List Int) : Except Abort (CappedSet B) := do
  let s ← new n
  is.foldlM set s

/-- Add every member of `t`; also reports whether the count of `s` changed. -/
def unionWith (s t : CappedSet B) : Except Abort (Bool × CappedSet B) := do
  s.same t
  let nb := Bitset.count s.bits
  let u := Bitset.inPlaceUnion s.bits t.bits
  return (Bitset.count u != nb, { s with bits := u })

/-- Remove every member of `t`; also reports whether the count of `s` changed. -/
def subtract (s t : CappedSet B) : Except Abort (Bool × CappedSet B) := do
  s.same t
  let nb := Bitset.count s.bits
  let d := Bitset.inPlaceDifference s.bits t.bits
  return (Bitset.count d != nb, { s with bits := d })

/-- Whether the intersection of the two sets has a member. -/
def intersects (s t : CappedSet B) : Except Abort Bool := do
  s.same t
  return Bitset.intersectionCardinality s.bits t.bits != 0

/-- Whether the intersection of `s` with `t` is as large as `s`. -/
def isSubsetOf (s t : CappedSet B) : Except Abort Bool := do
  s.same t
  return Bitset.intersectionCardinality s.bits t.bits == Bitset.count s.bits

/-- Overwrite `s` with the members of `t`. -/
def copyFrom (s t : CappedSet B) : Except Abort (CappedSet B) := do
  s.same t
  return { s with bits := Bitset.copy t.bits s.bits }

/-- Same capacity, and bitsets the library calls equal. -/
def equal (s t : CappedSet B) : Bool :=
  s.capacity == t.capacity && Bitset.equal s.bits t.bits

/-- A copy of the set. -/
def clone (s : CappedSet B) : CappedSet B := { s with bits := Bitset.clone s.bits }

/-- The number of members. -/
def count (s : CappedSet B) : Nat := Bitset.count s.bits

/-- Whether the set has a member. -/
def any (s : CappedSet B) : Bool := Bitset.any s.bits

/-- The same capacity and no member. -/
def reset (s : CappedSet B) : CappedSet B := { s with bits := Bitset.clearAll s.bits }

/-- Hand the set bits from `i` on to `yield` in ascending order, while they lie below the
capacity and until `yield` answers `false`. -/
def allFrom {m : Type → Type} [Monad m] (s : CappedSet B) (yield : Nat → m Bool) (i : Nat) :
    m Unit :=
  match Bitset.nextSet s.bits i with
  | some ⟨j, _⟩ =>
    if j < s.capacity then do
      if (← yield j) then s.allFrom yield (j + 1) else pure ()
    else pure ()
  | none => pure ()
termination_by s.capacity - i

/-- Hand the members to `yield` in ascending order until it answers `false`. Each call ranges
over the members afresh. -/
def all {m : Type → Type} [Monad m] (s : CappedSet B) (yield : Nat → m Bool) : m Unit :=
  s.allFrom yield 0

/-- Call `fn` with the members in ascending order until it answers `false`: a range over `all`
whose body is the call. -/
def forEach {m : Type → Type} [Monad m] (s : CappedSet B) (fn : Nat → m Bool) : m Unit :=
  s.all fn

/-- The members in ascending order, as a range over `all` collects them. -/
def indices (s : CappedSet B) : List Nat :=
  (Id.run ((s.all (m := StateM (List Nat)) fun i => modifyGet fun acc =>
    (true, acc ++ [i])).run [])).2

/-- Braces around the members in ascending decimal, separated by commas. -/
def render (s : CappedSet B) : String :=
  "\x7b" ++ ", ".intercalate (s.indices.map toString) ++ "\x7d"

end CappedSet

end RegisterLiveness
