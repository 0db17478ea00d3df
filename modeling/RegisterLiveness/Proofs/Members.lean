import Mathlib.Data.Fintype.Card
import Mathlib.Data.Fintype.Fin
import Mathlib.Data.List.Sort
import RegisterLiveness.OperandSet

/-!
# Operand sets as sets of indices

`OperandSet.toSet` forgets the universe and the order of an operand set and keeps the indices of
its members. Through it every operation of `OperandSet` is the set operation of the same name,
and since a set is stored as its members in increasing order, two operand sets with the same
indices are equal.

Sizes are bounded by the universe, and a union keeps the size of its left side exactly when its
right side adds nothing: this is how a fixpoint step notices that a set grew.
-/

namespace RegisterLiveness

namespace OperandSet

variable {n : Nat} {s t : OperandSet n}

/-- The indices of the members. -/
def toSet (s : OperandSet n) : Set ℕ := {r | r ∈ s.indices}

theorem mem_toSet {r : ℕ} : r ∈ s.toSet ↔ ∃ h : r < n, (⟨r, h⟩ : Fin n) ∈ s := by
  simp only [toSet, indices, Set.mem_ofPred_eq, List.mem_map, mem_toList]
  constructor
  · rintro ⟨x, hx, rfl⟩
    exact ⟨x.isLt, hx⟩
  · rintro ⟨h, hr⟩
    exact ⟨_, hr, rfl⟩

@[simp] theorem val_mem_toSet {x : Fin n} : x.val ∈ s.toSet ↔ x ∈ s := by
  simp [mem_toSet]

theorem lt_of_mem_toSet {r : ℕ} (h : r ∈ s.toSet) : r < n :=
  (mem_toSet.mp h).1

theorem mem_toSet_iff_exists {r : ℕ} : r ∈ s.toSet ↔ ∃ x ∈ s, x.val = r := by
  constructor
  · intro h
    obtain ⟨hr, hx⟩ := mem_toSet.mp h
    exact ⟨_, hx, rfl⟩
  · rintro ⟨x, hx, rfl⟩
    exact val_mem_toSet.mpr hx

@[simp] theorem mem_indices {r : ℕ} : r ∈ s.indices ↔ r ∈ s.toSet := Iff.rfl

/-! ### The operations -/

@[simp] theorem toSet_empty : (empty : OperandSet n).toSet = ∅ := by
  ext r
  simp [mem_toSet]

@[simp] theorem toSet_union : (s ∪ t).toSet = s.toSet ∪ t.toSet := by
  ext r
  simp only [mem_toSet, mem_union, Set.mem_union]
  constructor
  · rintro ⟨h, hs | ht⟩
    · exact .inl ⟨h, hs⟩
    · exact .inr ⟨h, ht⟩
  · rintro (⟨h, hs⟩ | ⟨h, ht⟩)
    · exact ⟨h, .inl hs⟩
    · exact ⟨h, .inr ht⟩

@[simp] theorem toSet_diff : (s \ t).toSet = s.toSet \ t.toSet := by
  ext r
  simp only [mem_toSet, mem_diff, Set.mem_sdiff]
  constructor
  · rintro ⟨h, hs, ht⟩
    exact ⟨⟨h, hs⟩, fun ht' => ht ht'.snd⟩
  · rintro ⟨⟨h, hs⟩, ht⟩
    exact ⟨h, hs, fun ht' => ht ⟨h, ht'⟩⟩

@[simp] theorem toSet_insert (x : Fin n) : (s.insert x).toSet = Insert.insert x.val s.toSet := by
  ext r
  simp only [mem_toSet, mem_insert, Set.mem_insert_iff]
  constructor
  · rintro ⟨h, rfl | hs⟩
    · exact .inl rfl
    · exact .inr ⟨h, hs⟩
  · rintro (rfl | ⟨h, hs⟩)
    · exact ⟨x.isLt, .inl rfl⟩
    · exact ⟨h, .inr hs⟩

@[simp] theorem toSet_erase (x : Fin n) : (s.erase x).toSet = s.toSet \ {x.val} := by
  ext r
  simp only [mem_toSet, mem_erase, Set.mem_sdiff, Set.mem_singleton_iff]
  constructor
  · rintro ⟨h, hne, hs⟩
    exact ⟨⟨h, hs⟩, fun hr => hne (Fin.ext hr)⟩
  · rintro ⟨⟨h, hs⟩, hne⟩
    exact ⟨h, fun hr => hne (congrArg Fin.val hr), hs⟩

/-- The indices of the listed operands. -/
def listSet (l : List (Fin n)) : Set ℕ := {r | ∃ x ∈ l, x.val = r}

@[simp] theorem listSet_nil : listSet ([] : List (Fin n)) = ∅ := by
  simp [listSet]

@[simp] theorem listSet_cons (x : Fin n) (l : List (Fin n)) :
    listSet (x :: l) = Insert.insert x.val (listSet l) := by
  ext r
  simp only [listSet, List.mem_cons, Set.mem_ofPred_eq, Set.mem_insert_iff]
  constructor
  · rintro ⟨y, rfl | hy, rfl⟩
    · exact .inl rfl
    · exact .inr ⟨y, hy, rfl⟩
  · rintro (rfl | ⟨y, hy, rfl⟩)
    · exact ⟨x, .inl rfl, rfl⟩
    · exact ⟨y, .inr hy, rfl⟩

/-- Adding the listed operands one by one adds their indices. -/
theorem toSet_foldl_insert (l : List (Fin n)) (s : OperandSet n) :
    (l.foldl insert s).toSet = s.toSet ∪ listSet l := by
  induction l generalizing s with
  | nil => simp
  | cons x l ih =>
    rw [List.foldl_cons, ih, toSet_insert, listSet_cons, Set.insert_union, Set.union_insert]

theorem toSet_subset_lt : s.toSet ⊆ {r | r < n} := fun _ h => lt_of_mem_toSet h

/-! ### Equality and size -/

/-- An operand set is determined by the indices of its members. -/
theorem eq_of_toSet_eq (h : s.toSet = t.toSet) : s = t := by
  apply ext
  apply List.Pairwise.eq_of_mem_iff s.sorted t.sorted
  intro x
  rw [mem_toList, mem_toList, ← val_mem_toSet, ← val_mem_toSet, h]

theorem toSet_injective : Function.Injective (toSet : OperandSet n → Set ℕ) :=
  fun _ _ h => eq_of_toSet_eq h

theorem nodup (s : OperandSet n) : s.toList.Nodup := s.sorted.nodup

theorem indices_sorted (s : OperandSet n) : s.indices.Pairwise (· < ·) :=
  List.pairwise_map.mpr s.sorted

/-- Sets with the same indices list them alike, even over different universes. -/
theorem indices_eq_of_toSet_eq {m : Nat} {t : OperandSet m} (h : s.toSet = t.toSet) :
    s.indices = t.indices :=
  List.Pairwise.eq_of_mem_iff s.indices_sorted t.indices_sorted fun x => by
    rw [mem_indices, mem_indices, h]

/-- No set has more members than its universe. -/
theorem card_le (s : OperandSet n) : s.card ≤ n := by
  simpa [card] using s.nodup.length_le_card

theorem card_le_card (h : s.toSet ⊆ t.toSet) : s.card ≤ t.card := by
  apply List.Subperm.length_le
  apply List.subperm_of_subset s.nodup
  intro x hx
  exact val_mem_toSet.mp (h (val_mem_toSet.mpr hx))

/-- A set included in another of the same size is equal to it. -/
theorem toSet_eq_of_subset_of_card_le (h : s.toSet ⊆ t.toSet) (hc : t.card ≤ s.card) :
    s.toSet = t.toSet := by
  have hp : s.toList.Perm t.toList := by
    apply List.Subperm.perm_of_length_le _ hc
    apply List.subperm_of_subset s.nodup
    intro x hx
    exact val_mem_toSet.mp (h (val_mem_toSet.mpr hx))
  ext r
  simp only [mem_toSet_iff_exists, ← mem_toList, hp.mem_iff]

/-- A union has the size of its left side exactly when the right side adds nothing. -/
theorem card_union_eq_iff : (s ∪ t).card = s.card ↔ t.toSet ⊆ s.toSet := by
  constructor
  · intro h
    have hsub : s.toSet ⊆ (s ∪ t).toSet := by simp
    have heq := toSet_eq_of_subset_of_card_le hsub h.le
    rw [toSet_union] at heq
    exact heq ▸ Set.subset_union_right
  · intro h
    have hu : (s ∪ t).toSet = s.toSet := by
      rw [toSet_union]
      exact Set.union_eq_self_of_subset_right h
    rw [eq_of_toSet_eq hu]

end OperandSet

end RegisterLiveness
