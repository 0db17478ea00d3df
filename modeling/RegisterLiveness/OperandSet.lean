/-!
# Sets of operands

An operand is an index into a universe `[0, n)` fixed for a whole analysis. An `OperandSet n`
keeps its members as a strictly increasing list of `Fin n`, so that two sets with the same
members are equal, every enumeration is in ascending order, and nothing outside the universe can
be a member.

The operations are the set algebra a backward data-flow analysis needs: insertion, removal,
union, difference, inclusion and meeting. Each keeps the members sorted; the lemmas beside
them say what each does to membership.
-/

namespace RegisterLiveness

/-- A set of operands of the universe `[0, n)`, as its members in strictly increasing order. -/
structure OperandSet (n : Nat) where
  toList : List (Fin n)
  sorted : toList.Pairwise (· < ·)

namespace OperandSet

variable {n : Nat}

/-! ### Sorted lists -/

/-- Insert `r` into a strictly increasing list, keeping it so. -/
def insertSorted (r : Fin n) : List (Fin n) → List (Fin n)
  | [] => [r]
  | x :: xs => if r < x then r :: x :: xs else if r = x then x :: xs else x :: insertSorted r xs

/-- Merge two strictly increasing lists into one, keeping one copy of a common member. -/
def mergeSorted : List (Fin n) → List (Fin n) → List (Fin n)
  | [], ys => ys
  | x :: xs, [] => x :: xs
  | x :: xs, y :: ys =>
    if x < y then x :: mergeSorted xs (y :: ys)
    else if y < x then y :: mergeSorted (x :: xs) ys
    else x :: mergeSorted xs ys

theorem mem_insertSorted {r a : Fin n} {xs : List (Fin n)} :
    a ∈ insertSorted r xs ↔ a = r ∨ a ∈ xs := by
  induction xs with
  | nil => simp [insertSorted]
  | cons x xs ih =>
    unfold insertSorted
    split
    · simp
    · split
      · subst_vars; simp
      · simp only [List.mem_cons, ih]; grind

theorem mem_mergeSorted {a : Fin n} {xs ys : List (Fin n)} :
    a ∈ mergeSorted xs ys ↔ a ∈ xs ∨ a ∈ ys := by
  fun_induction mergeSorted xs ys with
  | case1 ys => simp
  | case2 x xs => simp
  | case3 x xs y ys _ ih => simp only [List.mem_cons, ih]; grind
  | case4 x xs y ys _ _ ih => simp only [List.mem_cons, ih]; grind
  | case5 x xs y ys h₁ h₂ ih =>
    have hxy : x = y := by grind
    subst hxy
    simp only [List.mem_cons, ih]; grind

theorem sorted_insertSorted (r : Fin n) {xs : List (Fin n)} (h : xs.Pairwise (· < ·)) :
    (insertSorted r xs).Pairwise (· < ·) := by
  induction xs with
  | nil => simp [insertSorted]
  | cons x xs ih =>
    unfold insertSorted
    obtain ⟨hx, hxs⟩ := List.pairwise_cons.mp h
    split
    · rename_i hr
      refine List.pairwise_cons.mpr ⟨?_, h⟩
      intro a ha
      rcases List.mem_cons.mp ha with rfl | ha
      · exact hr
      · exact Fin.lt_trans hr (hx a ha)
    · split
      · exact h
      · rename_i hr hne
        refine List.pairwise_cons.mpr ⟨?_, ih hxs⟩
        intro a ha
        rcases mem_insertSorted.mp ha with rfl | ha
        · grind
        · exact hx a ha

theorem sorted_mergeSorted {xs ys : List (Fin n)} (hx : xs.Pairwise (· < ·))
    (hy : ys.Pairwise (· < ·)) : (mergeSorted xs ys).Pairwise (· < ·) := by
  fun_induction mergeSorted xs ys with
  | case1 ys => exact hy
  | case2 x xs => exact hx
  | case3 x xs y ys hlt ih =>
    obtain ⟨hx₁, hx₂⟩ := List.pairwise_cons.mp hx
    refine List.pairwise_cons.mpr ⟨?_, ih hx₂ hy⟩
    intro a ha
    rcases mem_mergeSorted.mp ha with ha | ha
    · exact hx₁ a ha
    · rcases List.mem_cons.mp ha with rfl | ha
      · exact hlt
      · exact Fin.lt_trans hlt ((List.pairwise_cons.mp hy).1 a ha)
  | case4 x xs y ys _ hlt ih =>
    obtain ⟨hy₁, hy₂⟩ := List.pairwise_cons.mp hy
    refine List.pairwise_cons.mpr ⟨?_, ih hx hy₂⟩
    intro a ha
    rcases mem_mergeSorted.mp ha with ha | ha
    · rcases List.mem_cons.mp ha with rfl | ha
      · exact hlt
      · exact Fin.lt_trans hlt ((List.pairwise_cons.mp hx).1 a ha)
    · exact hy₁ a ha
  | case5 x xs y ys h₁ h₂ ih =>
    have hxy : x = y := by grind
    subst hxy
    obtain ⟨hx₁, hx₂⟩ := List.pairwise_cons.mp hx
    obtain ⟨hy₁, hy₂⟩ := List.pairwise_cons.mp hy
    refine List.pairwise_cons.mpr ⟨?_, ih hx₂ hy₂⟩
    intro a ha
    rcases mem_mergeSorted.mp ha with ha | ha
    · exact hx₁ a ha
    · exact hy₁ a ha

/-! ### The set operations -/

/-- The empty set. -/
def empty : OperandSet n := ⟨[], List.Pairwise.nil⟩

instance : EmptyCollection (OperandSet n) := ⟨empty⟩

instance : Membership (Fin n) (OperandSet n) := ⟨fun s r => r ∈ s.toList⟩

instance (r : Fin n) (s : OperandSet n) : Decidable (r ∈ s) :=
  inferInstanceAs (Decidable (r ∈ s.toList))

/-- Whether the index `r` is a member; an index outside the universe never is. -/
def contains (s : OperandSet n) (r : Nat) : Bool := s.toList.any (·.val == r)

/-- Add one operand. -/
def insert (s : OperandSet n) (r : Fin n) : OperandSet n :=
  ⟨insertSorted r s.toList, sorted_insertSorted r s.sorted⟩

/-- Remove one operand. -/
def erase (s : OperandSet n) (r : Fin n) : OperandSet n :=
  ⟨s.toList.filter (· != r), s.sorted.filter _⟩

/-- Every operand of either set. -/
def union (s t : OperandSet n) : OperandSet n :=
  ⟨mergeSorted s.toList t.toList, sorted_mergeSorted s.sorted t.sorted⟩

/-- The operands of `s` that are not in `t`. -/
def diff (s t : OperandSet n) : OperandSet n :=
  ⟨s.toList.filter (fun r => !(t.toList.contains r)), s.sorted.filter _⟩

/-- The number of members. -/
def card (s : OperandSet n) : Nat := s.toList.length

/-- Whether the set has a member. -/
def nonempty (s : OperandSet n) : Bool := !s.toList.isEmpty

/-- Whether every member of `s` is a member of `t`. -/
def subset (s t : OperandSet n) : Bool := s.toList.all (t.toList.contains ·)

/-- Whether the two sets share a member. -/
def meets (s t : OperandSet n) : Bool := s.toList.any (t.toList.contains ·)

/-- The set of the listed operands. -/
def ofList (rs : List (Fin n)) : OperandSet n := rs.foldl insert empty

/-- The members as plain indices, in ascending order. -/
def indices (s : OperandSet n) : List Nat := s.toList.map (·.val)

/-- Braces around the members in ascending decimal, separated by a comma and a space. -/
def render (s : OperandSet n) : String :=
  "\x7b" ++ ", ".intercalate (s.indices.map toString) ++ "\x7d"

instance : Union (OperandSet n) := ⟨union⟩

instance : SDiff (OperandSet n) := ⟨diff⟩

/-! ### Membership -/

@[ext] theorem ext {s t : OperandSet n} (h : s.toList = t.toList) : s = t := by
  cases s; cases t; simp_all

@[simp] theorem mem_toList {s : OperandSet n} {r : Fin n} : r ∈ s.toList ↔ r ∈ s := Iff.rfl

@[simp] theorem not_mem_empty (r : Fin n) : r ∉ (empty : OperandSet n) := by
  simp [empty, ← mem_toList]

@[simp] theorem mem_insert {s : OperandSet n} {r a : Fin n} : a ∈ s.insert r ↔ a = r ∨ a ∈ s :=
  mem_insertSorted

@[simp] theorem mem_erase {s : OperandSet n} {r a : Fin n} : a ∈ s.erase r ↔ a ≠ r ∧ a ∈ s := by
  simp [erase, ← mem_toList, and_comm]

@[simp] theorem mem_union {s t : OperandSet n} {a : Fin n} : a ∈ s ∪ t ↔ a ∈ s ∨ a ∈ t :=
  mem_mergeSorted

@[simp] theorem mem_diff {s t : OperandSet n} {a : Fin n} : a ∈ s \ t ↔ a ∈ s ∧ a ∉ t := by
  show a ∈ (diff s t).toList ↔ _
  simp [diff, ← mem_toList]

end OperandSet

end RegisterLiveness
