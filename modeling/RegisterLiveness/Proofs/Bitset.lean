import Mathlib.Data.Finset.Sort
import RegisterLiveness.Bitset

/-!
# The set bits of a lawful bitset

The laws of a bitset say what each operation does to its length and to each bit. Read through
`Bitset.bits`, the finite set of its set bits, they become the set algebra: setting and clearing
a bit insert and erase it, the in-place union and difference are union and difference, `count`
is the size, and `intersectionCardinality` the size of the intersection. The members are the
bits in ascending order.

`BitArray` satisfies the laws (`LawfulBitset BitArray`).
-/

namespace RegisterLiveness

namespace Bitset

variable {B : Type} [Bitset B]

theorem members_sorted (b : B) : (members b).Pairwise (· < ·) :=
  List.pairwise_lt_range.filter _

/-- The set bits of a bitset. -/
def bits (b : B) : Finset ℕ := (members b).toFinset

theorem card_bits (b : B) : (bits b).card = (members b).length :=
  List.toFinset_card_of_nodup (members_sorted b).nodup

/-- The members are the set bits in ascending order. -/
theorem sort_bits (b : B) : (bits b).sort (· ≤ ·) = members b :=
  (List.toFinset_sort (· ≤ ·) (members_sorted b).nodup).mpr ((members_sorted b).imp Nat.le_of_lt)

variable [LawfulBitset B] {b c : B} {i j : ℕ}

open LawfulBitset

@[simp] theorem mem_members : j ∈ members b ↔ test b j = true := by
  simp only [members, List.mem_filter, List.mem_range, and_iff_right_iff_imp]
  exact lt_len_of_test

@[simp] theorem mem_bits : j ∈ bits b ↔ test b j = true := by
  simp [bits]

theorem lt_len_of_mem_bits (h : j ∈ bits b) : j < len b :=
  lt_len_of_test (mem_bits.mp h)

@[simp] theorem count_eq_card : count b = (bits b).card := by
  rw [count_eq, card_bits]

@[simp] theorem bits_new (n : ℕ) : bits (new n : B) = ∅ := by
  ext j
  simp [test_new]

@[simp] theorem bits_set : bits (set b i) = insert i (bits b) := by
  ext j
  simp [test_set]

@[simp] theorem bits_clear : bits (clear b i) = (bits b).erase i := by
  ext j
  simp [test_clear]

@[simp] theorem bits_inPlaceUnion : bits (inPlaceUnion b c) = bits b ∪ bits c := by
  ext j
  simp [test_inPlaceUnion]

@[simp] theorem bits_inPlaceDifference : bits (inPlaceDifference b c) = bits b \ bits c := by
  ext j
  simp [test_inPlaceDifference]

@[simp] theorem bits_clearAll : bits (clearAll b) = ∅ := by
  ext j
  simp [test_clearAll]

@[simp] theorem bits_clone : bits (clone b) = bits b := by
  ext j
  simp [test_clone]

theorem bits_copy (h : len b = len c) : bits (copy b c) = bits b := by
  ext j
  simp [test_copy b c j h]

/-- The size of the intersection, which the library counts over the members of the first. -/
theorem intersectionCardinality_eq_card : intersectionCardinality b c = (bits b ∩ bits c).card := by
  have hnd : ((members b).filter (test c)).Nodup := (members_sorted b).nodup.filter _
  rw [intersectionCardinality_eq, ← List.toFinset_card_of_nodup hnd]
  congr 1
  ext j
  simp

theorem equal_iff_bits : equal b c = true ↔ len b = len c ∧ bits b = bits c := by
  rw [equal_iff]
  refine and_congr_right fun _ => ⟨fun h => Finset.ext fun j => by simp [h j], fun h j => ?_⟩
  have := Finset.ext_iff.mp h j
  simp only [mem_bits] at this
  cases hb : test b j <;> cases hc : test c j <;> simp_all

theorem any_iff_bits : any b = true ↔ (bits b).Nonempty := by
  rw [any_iff]
  exact ⟨fun ⟨j, hj⟩ => ⟨j, mem_bits.mpr hj⟩, fun ⟨j, hj⟩ => ⟨j, mem_bits.mp hj⟩⟩

end Bitset

/-! ### Arrays of bits -/

namespace BitArray

variable {b c : BitArray} {i j : ℕ}

theorem get_eq : b.get j = (b.bits[j]?).getD false := Array.getD_eq_getD_getElem?

theorem get_of_le (h : b.bits.size ≤ j) : b.get j = false := by
  simp [get_eq, Array.getElem?_eq_none h]

theorem lt_of_get (h : b.get j = true) : j < b.bits.size := by
  rcases Nat.lt_or_ge j b.bits.size with hj | hj
  · exact hj
  · rw [get_of_le hj] at h
    cases h

/-- The bit `nextSet` finds is set, and none before it from the start. -/
theorem get_nextSet {k : { k // i ≤ k }} (h : b.nextSet i = some k) :
    b.get k.val = true ∧ ∀ l, i ≤ l → l < k.val → b.get l = false := by
  fun_induction b.nextSet i with
  | case1 i hi hset =>
    obtain rfl := Option.some.inj h
    exact ⟨hset, fun l hl hlk => absurd hl (Nat.not_le.mpr hlk)⟩
  | case2 i hi hset ih =>
    obtain ⟨k', hk', rfl⟩ := Option.map_eq_some_iff.mp h
    obtain ⟨hget, hbefore⟩ := ih hk'
    refine ⟨hget, fun l hl hlk => ?_⟩
    rcases Nat.eq_or_lt_of_le hl with rfl | hl
    · simpa using hset
    · exact hbefore l hl hlk
  | case3 i hi => cases h

/-- `nextSet` finds nothing only when no bit from the start is set. -/
theorem get_of_nextSet_eq_none (h : b.nextSet i = none) : ∀ l, i ≤ l → b.get l = false := by
  fun_induction b.nextSet i with
  | case1 i hi hset => cases h
  | case2 i hi hset ih =>
    intro l hl
    rcases Nat.eq_or_lt_of_le hl with rfl | hl
    · simpa using hset
    · exact ih (Option.map_eq_none_iff.mp h) l hl
  | case3 i hi => exact fun l hl => get_of_le (by omega)

end BitArray

open BitArray in
instance : LawfulBitset BitArray where
  lt_len_of_test := lt_of_get
  len_new _ := Array.size_replicate
  test_new n i := by
    simp only [Bitset.test, Bitset.new, get_eq, Array.getElem?_replicate]
    split <;> rfl
  len_set b i := by
    simp only [Bitset.len, Bitset.set, Array.size_setIfInBounds, Array.size_append,
      Array.size_replicate]
    omega
  test_set b i j := by
    simp only [Bitset.test, Bitset.set, get_eq, Array.getElem?_setIfInBounds,
      Array.getElem?_append, Array.getElem?_replicate, Array.size_append, Array.size_replicate]
    by_cases hij : i = j
    · subst hij
      rw [if_pos rfl, if_pos (by omega), beq_self_eq_true, Bool.true_or, Option.getD_some]
    · have hji : (j == i) = false := beq_false_of_ne (Ne.symm hij)
      rw [if_neg hij, hji, Bool.false_or]
      split
      · rfl
      · -- past the old end the grown bits are clear, as the old ones read there are
        rw [Array.getElem?_eq_none (by omega : b.bits.size ≤ j)]
        split <;> rfl
  len_clear _ _ := Array.size_setIfInBounds
  test_clear b i j := by
    simp only [Bitset.test, Bitset.clear, get_eq, Array.getElem?_setIfInBounds]
    by_cases hij : i = j
    · subst hij
      rw [if_pos rfl, bne_self_eq_false, Bool.false_and]
      split <;> rfl
    · have hji : (j != i) = true := bne_iff_ne.mpr (Ne.symm hij)
      rw [if_neg hij, hji, Bool.true_and]
  count_eq _ := List.countP_eq_length_filter
  len_inPlaceUnion _ _ := Array.size_ofFn
  test_inPlaceUnion b c j := by
    simp only [Bitset.test, Bitset.inPlaceUnion, get_eq, Array.getElem?_ofFn]
    split
    · rfl
    · rename_i hj
      simp [Array.getElem?_eq_none (by omega : b.bits.size ≤ j),
        Array.getElem?_eq_none (by omega : c.bits.size ≤ j)]
  len_inPlaceDifference _ _ := Array.size_mapIdx
  test_inPlaceDifference b c j := by
    simp only [Bitset.test, Bitset.inPlaceDifference, get_eq, Array.getElem?_mapIdx]
    cases b.bits[j]? <;> rfl
  intersectionCardinality_eq b c := by
    simp only [Bitset.intersectionCardinality, Bitset.members, Bitset.len, Bitset.test,
      List.filter_filter, List.countP_eq_length_filter, Bool.and_comm]
  equal_iff b c := by
    obtain ⟨bs⟩ := b
    obtain ⟨cs⟩ := c
    simp only [Bitset.equal, Bitset.len, Bitset.test, beq_iff_eq]
    constructor
    · rintro rfl
      exact ⟨rfl, fun _ => rfl⟩
    · rintro ⟨hsize, hget⟩
      apply Array.ext_getElem?
      intro j
      have hj := hget j
      simp only [get_eq] at hj
      rcases Nat.lt_or_ge j bs.size with hlt | hge
      · rw [Array.getElem?_eq_getElem hlt, Array.getElem?_eq_getElem (hsize ▸ hlt)] at hj ⊢
        rw [Option.getD_some, Option.getD_some] at hj
        rw [hj]
      · rw [Array.getElem?_eq_none hge, Array.getElem?_eq_none (by omega)]
  any_iff b := by
    simp only [Bitset.any, Bitset.test, Array.any_eq_true, id]
    constructor
    · rintro ⟨j, hj, hset⟩
      exact ⟨j, by simpa [get_eq, Array.getElem?_eq_getElem hj] using hset⟩
    · rintro ⟨j, hset⟩
      have hj := lt_of_get hset
      exact ⟨j, hj, by simpa [get_eq, Array.getElem?_eq_getElem hj] using hset⟩
  len_clearAll _ := Array.size_replicate
  test_clearAll b j := by
    simp only [Bitset.test, Bitset.clearAll, get_eq, Array.getElem?_replicate]
    split <;> rfl
  len_copy _ _ _ := Array.size_ofFn
  test_copy src dst j hlen := by
    simp only [Bitset.test, Bitset.copy, get_eq, Array.getElem?_ofFn]
    split
    · rfl
    · rename_i hj
      simp [Array.getElem?_eq_none (by simp only [Bitset.len] at hlen; omega : src.bits.size ≤ j)]
  len_clone _ := rfl
  test_clone _ _ := rfl
  test_nextSet h := get_nextSet h
  test_of_nextSet_eq_none h := get_of_nextSet_eq_none h

end RegisterLiveness
