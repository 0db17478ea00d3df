/-!
# Growable bitsets

The capped sets rest on a bitset library whose bitsets grow on demand. `Bitset` lists the
operations they use, and `LawfulBitset` what the library documents of them, said through the
length of a bitset and the bits it reports set: no bit at or above the length is set; setting a
bit grows the length to hold it; the in-place union and difference act bit by bit; `count`,
`intersectionCardinality` and `nextSet` count and find set bits; `equal` compares lengths and
bits; and `copy` between bitsets of one length copies every bit.

`BitArray`, one Boolean per bit, is such a bitset, and the one the capped sets use unless told
otherwise.
-/

namespace RegisterLiveness

/-- The operations of a growable bitset library. `copy src dst` is `dst` once `src` is copied
into it, and `nextSet b i` the first set bit at or after `i`, if there is one. -/
class Bitset (B : Type) where
  new : Nat → B
  len : B → Nat
  set : B → Nat → B
  clear : B → Nat → B
  test : B → Nat → Bool
  count : B → Nat
  inPlaceUnion : B → B → B
  inPlaceDifference : B → B → B
  intersectionCardinality : B → B → Nat
  equal : B → B → Bool
  any : B → Bool
  clearAll : B → B
  copy : B → B → B
  clone : B → B
  nextSet : B → (i : Nat) → Option { j // i ≤ j }

namespace Bitset

/-- The set bits below the length, in ascending order. -/
def members {B : Type} [Bitset B] (b : B) : List Nat := (List.range (len b)).filter (test b)

end Bitset

open Bitset in
/-- What the library documents of the operations of a bitset. -/
class LawfulBitset (B : Type) [Bitset B] : Prop where
  /-- No bit at or above the length is set. -/
  lt_len_of_test : ∀ {b : B} {i : Nat}, test b i = true → i < len b
  len_new : ∀ n : Nat, len (new n : B) = n
  test_new : ∀ n i : Nat, test (new n : B) i = false
  /-- Setting a bit at or past the end grows the bitset to hold it. -/
  len_set : ∀ (b : B) (i : Nat), len (set b i) = max (len b) (i + 1)
  test_set : ∀ (b : B) (i j : Nat), test (set b i) j = (j == i || test b j)
  len_clear : ∀ (b : B) (i : Nat), len (clear b i) = len b
  test_clear : ∀ (b : B) (i j : Nat), test (clear b i) j = (j != i && test b j)
  count_eq : ∀ b : B, count b = (members b).length
  len_inPlaceUnion : ∀ b c : B, len (inPlaceUnion b c) = max (len b) (len c)
  test_inPlaceUnion : ∀ (b c : B) (j : Nat), test (inPlaceUnion b c) j = (test b j || test c j)
  len_inPlaceDifference : ∀ b c : B, len (inPlaceDifference b c) = len b
  test_inPlaceDifference : ∀ (b c : B) (j : Nat),
    test (inPlaceDifference b c) j = (test b j && !test c j)
  intersectionCardinality_eq : ∀ b c : B,
    intersectionCardinality b c = ((members b).filter (test c)).length
  equal_iff : ∀ b c : B, equal b c = true ↔ len b = len c ∧ ∀ j, test b j = test c j
  any_iff : ∀ b : B, any b = true ↔ ∃ j, test b j = true
  len_clearAll : ∀ b : B, len (clearAll b) = len b
  test_clearAll : ∀ (b : B) (j : Nat), test (clearAll b) j = false
  /-- Copying between bitsets of one length copies every bit. -/
  len_copy : ∀ src dst : B, len src = len dst → len (copy src dst) = len dst
  test_copy : ∀ (src dst : B) (j : Nat), len src = len dst → test (copy src dst) j = test src j
  len_clone : ∀ b : B, len (clone b) = len b
  test_clone : ∀ (b : B) (j : Nat), test (clone b) j = test b j
  /-- The bit `nextSet` finds is set, and none before it from the start. -/
  test_nextSet : ∀ {b : B} {i : Nat} {j : { j // i ≤ j }}, nextSet b i = some j →
    test b j.val = true ∧ ∀ k, i ≤ k → k < j.val → test b k = false
  /-- `nextSet` finds nothing only when no bit from the start is set. -/
  test_of_nextSet_eq_none : ∀ {b : B} {i : Nat}, nextSet b i = none →
    ∀ k, i ≤ k → test b k = false

/-! ### Bitsets as arrays of bits -/

/-- A bitset kept as one Boolean per bit; its length is the number of bits kept. -/
structure BitArray where
  bits : Array Bool
  deriving Repr

namespace BitArray

/-- Bit `i`; a bit past the end is clear. -/
def get (b : BitArray) (i : Nat) : Bool := b.bits.getD i false

/-- The first set bit at or after `i`, scanning up to the end. -/
def nextSet (b : BitArray) (i : Nat) : Option { j // i ≤ j } :=
  if i < b.bits.size then
    if b.get i then some ⟨i, Nat.le_refl i⟩
    else (b.nextSet (i + 1)).map fun j => ⟨j.val, Nat.le_of_succ_le j.property⟩
  else none
termination_by b.bits.size - i

end BitArray

/-- The bitset the capped sets use when nothing else fixes it. -/
@[default_instance]
instance : Bitset BitArray where
  new n := ⟨Array.replicate n false⟩
  len b := b.bits.size
  set b i := ⟨(b.bits ++ Array.replicate (i + 1 - b.bits.size) false).setIfInBounds i true⟩
  clear b i := ⟨b.bits.setIfInBounds i false⟩
  test := BitArray.get
  count b := (List.range b.bits.size).countP b.get
  inPlaceUnion b c := ⟨Array.ofFn fun (j : Fin (max b.bits.size c.bits.size)) => b.get j || c.get j⟩
  inPlaceDifference b c := ⟨b.bits.mapIdx fun j x => x && !c.get j⟩
  intersectionCardinality b c := (List.range b.bits.size).countP fun j => b.get j && c.get j
  equal b c := b.bits == c.bits
  any b := b.bits.any id
  clearAll b := ⟨Array.replicate b.bits.size false⟩
  copy src dst := ⟨Array.ofFn fun (j : Fin dst.bits.size) => src.get j⟩
  clone b := ⟨b.bits⟩
  nextSet := BitArray.nextSet

end RegisterLiveness
