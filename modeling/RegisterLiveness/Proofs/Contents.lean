import Mathlib.Data.Finset.Sort
import RegisterLiveness.Proofs.Bitset
import RegisterLiveness.CappedSet.Script

/-!
# Capped sets through their contents

A capped set denotes its capacity `n` and the finite set of indices its bitset holds
(`CappedSet.denote`). Over any bitset with the library's laws, every operation is one equation
through this view, its aborts included: insertion, removal and membership of an index in range
and an abort naming the operand otherwise; union and difference reporting, from the counts before
and after, whether the set changed; meeting and inclusion read off the size of the intersection;
emptiness, size and equality as the finite-set notions of the same name; and an abort naming both
capacities for every binary operation on sets of different capacities, except equality, which
answers `false`.

The bitset would grow to hold any index; what keeps its bits below the capacity is that the set
checks every index and every other set it is handed. A set is `Valid` when its bitset is exactly
as long as its capacity, so that it holds no index at or above it. Every operation keeps sets
valid, so every set a script ever makes is valid (`Command.valid_runAll`). Over valid sets,
equality compares contents, overwriting copies them, and the members are enumerated in ascending
order, an enumeration through a callback stopping right after the first call that answers `false`
(`callUntilFalse`).

On the shelf of a script a command changes at most the set it writes (`Command.writes`), an
aborted command changes nothing, and along every run each set keeps its capacity
(`Shelf.Keeps`).
-/

namespace RegisterLiveness

namespace CappedSet

variable {B : Type}

/-! ### What each operation computes -/

/-- An operation on one index reads it as a bit of the set, or aborts naming it. -/
theorem check_bind {α : Type} (s : CappedSet B) (i : Int) (g : ℕ → α) :
    (s.check i >>= fun j => pure (g j) : Except Abort α) =
      if 0 ≤ i ∧ i < s.capacity then .ok (g i.toNat)
      else .error (.raised (.outOfRange "operand" i s.capacity)) := by
  unfold check
  by_cases h : 0 ≤ i ∧ i < s.capacity
  · rw [if_neg (by omega), if_pos h]
    rfl
  · rw [if_pos (by omega), if_neg h]
    rfl

/-- An operation on two sets goes on when they have one capacity, and aborts naming both
otherwise. -/
theorem same_bind {α : Type} (s t : CappedSet B) (x : α) :
    (s.same t >>= fun _ => pure x : Except Abort α) =
      if t.capacity = s.capacity then .ok x else .error (s.mismatch t) := by
  unfold same
  by_cases h : t.capacity = s.capacity
  · rw [if_neg (not_not.mpr h), if_pos h]
    rfl
  · rw [if_pos h, if_neg h]
    rfl

/-- An operation that gives one result under a condition and aborts otherwise succeeds exactly
when the condition holds, with that result. -/
theorem ite_eq_ok_iff {α : Type} {p : Prop} [Decidable p] {r a : α} {e : Abort} :
    (if p then .ok r else .error e : Except Abort α) = .ok a ↔ p ∧ r = a := by
  split
  · rename_i hp
    simp [hp]
  · rename_i hp
    simp [hp]

section Lawful

variable [Bitset B]

theorem new_eq (n : Int) : (CappedSet.new n : Except Abort (CappedSet B)) =
    if n < 0 then .error (.raised (.outOfRange "capacity" n 0))
    else .ok ⟨n.toNat, Bitset.new n.toNat⟩ := rfl

theorem set_eq (s : CappedSet B) (i : Int) : s.set i =
    if 0 ≤ i ∧ i < s.capacity then .ok ⟨s.capacity, Bitset.set s.bits i.toNat⟩
    else .error (.raised (.outOfRange "operand" i s.capacity)) :=
  check_bind s i _

theorem clear_eq (s : CappedSet B) (i : Int) : s.clear i =
    if 0 ≤ i ∧ i < s.capacity then .ok ⟨s.capacity, Bitset.clear s.bits i.toNat⟩
    else .error (.raised (.outOfRange "operand" i s.capacity)) :=
  check_bind s i _

theorem unionWith_eq (s t : CappedSet B) : s.unionWith t =
    if t.capacity = s.capacity then
      .ok (Bitset.count (Bitset.inPlaceUnion s.bits t.bits) != Bitset.count s.bits,
        ⟨s.capacity, Bitset.inPlaceUnion s.bits t.bits⟩)
    else .error (s.mismatch t) :=
  same_bind s t _

theorem subtract_eq (s t : CappedSet B) : s.subtract t =
    if t.capacity = s.capacity then
      .ok (Bitset.count (Bitset.inPlaceDifference s.bits t.bits) != Bitset.count s.bits,
        ⟨s.capacity, Bitset.inPlaceDifference s.bits t.bits⟩)
    else .error (s.mismatch t) :=
  same_bind s t _

theorem copyFrom_eq (s t : CappedSet B) : s.copyFrom t =
    if t.capacity = s.capacity then .ok ⟨s.capacity, Bitset.copy t.bits s.bits⟩
    else .error (s.mismatch t) :=
  same_bind s t _

/-! ### What a set denotes -/

/-- The indices the set holds: the set bits of its bitset. -/
def contents (s : CappedSet B) : Finset ℕ := Bitset.bits s.bits

/-- What a set denotes: its capacity and the indices it holds. -/
def denote (s : CappedSet B) : ℕ × Finset ℕ := (s.capacity, s.contents)

/-- The bitset is as long as the capacity, so that no bit at or above it is set. -/
def Valid (s : CappedSet B) : Prop := Bitset.len s.bits = s.capacity

@[simp] theorem denote_mk (n : ℕ) (b : B) :
    (⟨n, b⟩ : CappedSet B).denote = (n, Bitset.bits b) := rfl

variable [LawfulBitset B] {s t s' : CappedSet B} {i : Int}

/-- A valid set holds indices of its universe only. -/
theorem Valid.contents_subset_range (hv : s.Valid) : s.contents ⊆ Finset.range s.capacity :=
  fun _ hr => Finset.mem_range.mpr (hv ▸ Bitset.lt_len_of_mem_bits hr)

/-! ### Validity is kept -/

theorem valid_of_new_eq_ok {n : Int} (h : CappedSet.new n = .ok s) : s.Valid := by
  rw [new_eq] at h
  split at h
  · cases h
  · obtain rfl := Except.ok.inj h
    exact LawfulBitset.len_new _

theorem Valid.set (hv : s.Valid) (h : s.set i = .ok s') : s'.Valid := by
  obtain ⟨hi, rfl⟩ := ite_eq_ok_iff.mp ((set_eq s i).symm.trans h)
  show Bitset.len (Bitset.set s.bits i.toNat) = s.capacity
  rw [LawfulBitset.len_set, hv]
  omega

theorem Valid.clear (hv : s.Valid) (h : s.clear i = .ok s') : s'.Valid := by
  obtain ⟨-, rfl⟩ := ite_eq_ok_iff.mp ((clear_eq s i).symm.trans h)
  exact (LawfulBitset.len_clear _ _).trans hv

/-- Adding indices one by one to a valid set leaves it valid. -/
theorem Valid.foldlM_set (hv : s.Valid) {is : List Int} (h : is.foldlM CappedSet.set s = .ok s') :
    s'.Valid := by
  induction is generalizing s with
  | nil =>
    obtain rfl := Except.ok.inj h
    exact hv
  | cons i is ih =>
    rw [List.foldlM_cons] at h
    cases hs : s.set i with
    | error e => rw [hs] at h; cases h
    | ok s₁ =>
      rw [hs] at h
      exact ih (hv.set hs) h

theorem valid_of_ofIndices_eq_ok {n : Int} {is : List Int} (h : CappedSet.ofIndices n is = .ok s) :
    s.Valid := by
  cases hn : (CappedSet.new n : Except Abort (CappedSet B)) with
  | error e => simp [ofIndices, hn, bind, Except.bind] at h
  | ok s₀ =>
    simp only [ofIndices, hn, bind, Except.bind] at h
    exact (valid_of_new_eq_ok hn).foldlM_set h

/-- A union of two valid sets is valid: neither bitset is longer than the capacity. -/
theorem Valid.unionWith (hs : s.Valid) (ht : t.Valid) {c : Bool} (h : s.unionWith t = .ok (c, s')) :
    s'.Valid := by
  obtain ⟨hcap, ⟨⟩⟩ := ite_eq_ok_iff.mp ((unionWith_eq s t).symm.trans h)
  show Bitset.len (Bitset.inPlaceUnion s.bits t.bits) = s.capacity
  rw [LawfulBitset.len_inPlaceUnion, hs, ht, hcap, Nat.max_self]

theorem Valid.subtract (hs : s.Valid) {c : Bool} (h : s.subtract t = .ok (c, s')) : s'.Valid := by
  obtain ⟨-, ⟨⟩⟩ := ite_eq_ok_iff.mp ((subtract_eq s t).symm.trans h)
  exact (LawfulBitset.len_inPlaceDifference _ _).trans hs

theorem Valid.copyFrom (hs : s.Valid) (ht : t.Valid) (h : s.copyFrom t = .ok s') : s'.Valid := by
  obtain ⟨hcap, rfl⟩ := ite_eq_ok_iff.mp ((copyFrom_eq s t).symm.trans h)
  exact (LawfulBitset.len_copy _ _ (by rw [ht, hs, hcap])).trans hs

theorem Valid.reset (hv : s.Valid) : s.reset.Valid :=
  (LawfulBitset.len_clearAll _).trans hv

theorem Valid.clone (hv : s.Valid) : s.clone.Valid :=
  (LawfulBitset.len_clone _).trans hv

/-! ### Indices -/

@[simp] theorem new_denote (n : Int) : (CappedSet.new n : Except Abort (CappedSet B)).map denote =
    if n < 0 then .error (.raised (.outOfRange "capacity" n 0)) else .ok (n.toNat, ∅) := by
  rw [new_eq]
  split
  · rfl
  · simp [Except.map]

@[simp] theorem set_denote (s : CappedSet B) (i : Int) : (s.set i).map denote =
    if 0 ≤ i ∧ i < s.capacity then .ok (s.capacity, insert i.toNat s.contents)
    else .error (.raised (.outOfRange "operand" i s.capacity)) := by
  rw [set_eq]
  split
  · simp [Except.map, contents]
  · rfl

@[simp] theorem clear_denote (s : CappedSet B) (i : Int) : (s.clear i).map denote =
    if 0 ≤ i ∧ i < s.capacity then .ok (s.capacity, s.contents.erase i.toNat)
    else .error (.raised (.outOfRange "operand" i s.capacity)) := by
  rw [clear_eq]
  split
  · simp [Except.map, contents]
  · rfl

@[simp] theorem test_eq (s : CappedSet B) (i : Int) : s.test i =
    if 0 ≤ i ∧ i < s.capacity then .ok (decide (i.toNat ∈ s.contents))
    else .error (.raised (.outOfRange "operand" i s.capacity)) := by
  rw [test, check_bind]
  simp [contents]

@[simp] theorem reset_denote (s : CappedSet B) : s.reset.denote = (s.capacity, ∅) := by
  simp [reset, denote, contents]

@[simp] theorem clone_denote (s : CappedSet B) : s.clone.denote = s.denote := by
  simp [clone, denote, contents]

/-! ### Two sets -/

/-- A union reports a change exactly when the other set adds a member. -/
theorem card_union_ne_iff {u v : Finset ℕ} : (u ∪ v).card ≠ u.card ↔ ¬ v ⊆ u := by
  rw [← Finset.union_eq_left, not_iff_not]
  constructor
  · intro h
    exact (Finset.eq_of_subset_of_card_le Finset.subset_union_left h.le).symm
  · intro h
    rw [h]

/-- A difference reports a change exactly when the two sets meet: what it removes is their
intersection. -/
theorem card_sdiff_ne_iff {u v : Finset ℕ} : (u \ v).card ≠ u.card ↔ (u ∩ v).Nonempty := by
  rw [← Finset.card_pos]
  have := Finset.card_sdiff_add_card_inter u v
  omega

/-- The intersection is as large as the first set exactly when it is included in the second. -/
theorem card_inter_eq_iff {u v : Finset ℕ} : (u ∩ v).card = u.card ↔ u ⊆ v := by
  rw [← Finset.inter_eq_left]
  constructor
  · exact fun h => Finset.eq_of_subset_of_card_le Finset.inter_subset_left h.ge
  · intro h
    rw [h]

@[simp] theorem unionWith_denote (s t : CappedSet B) : (s.unionWith t).map (Prod.map id denote) =
    if t.capacity = s.capacity then
      .ok (decide ¬ t.contents ⊆ s.contents, (s.capacity, s.contents ∪ t.contents))
    else .error (s.mismatch t) := by
  rw [unionWith_eq]
  split
  · simp only [Except.map, Prod.map, id, denote_mk, Bitset.count_eq_card,
      Bitset.bits_inPlaceUnion, Except.ok.injEq, Prod.mk.injEq]
    refine ⟨?_, trivial, rfl⟩
    rw [Bool.eq_iff_iff, bne_iff_ne, decide_eq_true_iff]
    exact card_union_ne_iff
  · rfl

@[simp] theorem subtract_denote (s t : CappedSet B) : (s.subtract t).map (Prod.map id denote) =
    if t.capacity = s.capacity then
      .ok (decide (s.contents ∩ t.contents).Nonempty, (s.capacity, s.contents \ t.contents))
    else .error (s.mismatch t) := by
  rw [subtract_eq]
  split
  · simp only [Except.map, Prod.map, id, denote_mk, Bitset.count_eq_card,
      Bitset.bits_inPlaceDifference, Except.ok.injEq, Prod.mk.injEq]
    refine ⟨?_, trivial, rfl⟩
    rw [Bool.eq_iff_iff, bne_iff_ne, decide_eq_true_iff]
    exact card_sdiff_ne_iff
  · rfl

@[simp] theorem intersects_eq (s t : CappedSet B) : s.intersects t =
    if t.capacity = s.capacity then .ok (decide (s.contents ∩ t.contents).Nonempty)
    else .error (s.mismatch t) := by
  rw [intersects, same_bind, Bitset.intersectionCardinality_eq_card]
  congr 2
  rw [Bool.eq_iff_iff, bne_iff_ne, decide_eq_true_iff, ← Finset.card_pos, Nat.pos_iff_ne_zero]
  rfl

@[simp] theorem isSubsetOf_eq (s t : CappedSet B) : s.isSubsetOf t =
    if t.capacity = s.capacity then .ok (decide (s.contents ⊆ t.contents))
    else .error (s.mismatch t) := by
  rw [isSubsetOf, same_bind, Bitset.intersectionCardinality_eq_card, Bitset.count_eq_card]
  congr 2
  rw [Bool.eq_iff_iff, beq_iff_eq, decide_eq_true_iff, card_inter_eq_iff]
  rfl

/-- Overwriting a valid set with a valid set of the same capacity copies its contents. -/
theorem copyFrom_denote (hs : s.Valid) (ht : t.Valid) : (s.copyFrom t).map denote =
    if t.capacity = s.capacity then .ok (s.capacity, t.contents) else .error (s.mismatch t) := by
  rw [copyFrom_eq]
  split
  · rename_i hcap
    simp [Except.map, contents, Bitset.bits_copy (show Bitset.len t.bits = Bitset.len s.bits by
      rw [ht, hs, hcap])]
  · rfl

/-- Equality of valid sets compares capacities and contents, and never aborts. -/
theorem equal_eq (hs : s.Valid) (ht : t.Valid) : s.equal t = decide (s.denote = t.denote) := by
  rw [Bool.eq_iff_iff, decide_eq_true_iff, equal, Bool.and_eq_true, beq_iff_eq,
    Bitset.equal_iff_bits, hs, ht, denote, denote, Prod.mk.injEq, contents, contents]
  exact ⟨fun ⟨h, _, hb⟩ => ⟨h, hb⟩, fun ⟨h, hb⟩ => ⟨h, h, hb⟩⟩

/-! ### Questions about one set -/

@[simp] theorem any_eq (s : CappedSet B) : s.any = decide s.contents.Nonempty := by
  rw [Bool.eq_iff_iff, any, Bitset.any_iff_bits, decide_eq_true_iff, contents]

@[simp] theorem count_eq (s : CappedSet B) : s.count = s.contents.card :=
  Bitset.count_eq_card

/-! ### Enumeration through a callback -/

/-- Call `f` on the elements of a list in order, stopping after the first call that answers
`false`. -/
def callUntilFalse {m : Type → Type} [Monad m] (f : ℕ → m Bool) : List ℕ → m Unit
  | [] => pure ()
  | i :: l => do if (← f i) then callUntilFalse f l else pure ()

/-- In an ascending list, the elements from `i` on are the least of them, `j`, followed by those
from `j + 1` on. -/
theorem filter_le_eq_cons {l : List ℕ} (hl : l.Pairwise (· < ·)) {i j : ℕ} (hj : j ∈ l)
    (hij : i ≤ j) (hmin : ∀ k ∈ l, i ≤ k → j ≤ k) :
    l.filter (fun k => decide (i ≤ k)) = j :: l.filter (fun k => decide (j + 1 ≤ k)) := by
  induction l with
  | nil => cases hj
  | cons x l ih =>
    obtain ⟨hx, hl⟩ := List.pairwise_cons.mp hl
    by_cases hix : i ≤ x
    · -- `x` is the least element from `i` on, so it is `j`, and all after it lie above it
      have hjx : j = x := by
        rcases List.mem_cons.mp hj with rfl | hj
        · rfl
        · have := hx j hj
          have := hmin x List.mem_cons_self hix
          omega
      subst hjx
      rw [List.filter_cons_of_pos (by simpa using hix), List.filter_cons_of_neg (by simp),
        List.filter_eq_self.mpr fun k hk => decide_eq_true (by have := hx k hk; omega),
        List.filter_eq_self.mpr fun k hk => decide_eq_true (show j + 1 ≤ k from hx k hk)]
    · have hjl : j ∈ l := by
        rcases List.mem_cons.mp hj with rfl | hj
        · exact absurd hij hix
        · exact hj
      rw [List.filter_cons_of_neg (by simpa using hix),
        List.filter_cons_of_neg (by simp only [decide_eq_true_eq]; omega),
        ih hl hjl fun k hk => hmin k (List.mem_cons_of_mem _ hk)]

section Enumeration

variable {m : Type → Type} [Monad m]

/-- From `i` on, a valid set hands out its members from `i` on: the bits `nextSet` finds lie
below the capacity, so the bound never stops the walk early. -/
theorem allFrom_eq (hv : s.Valid) (f : ℕ → m Bool) (i : ℕ) :
    s.allFrom f i = callUntilFalse f ((Bitset.members s.bits).filter fun k => decide (i ≤ k)) := by
  fun_induction s.allFrom f i with
  | case1 i j hij hnext hj ih =>
    -- the bit found is the least member from `i` on
    obtain ⟨hset, hbefore⟩ := LawfulBitset.test_nextSet hnext
    have hmin : ∀ k ∈ Bitset.members s.bits, i ≤ k → j ≤ k := fun k hk hik => by
      rcases Nat.lt_or_ge k j with hkj | hkj
      · have := hbefore k hik hkj
        rw [Bitset.mem_members.mp hk] at this
        cases this
      · exact hkj
    rw [filter_le_eq_cons (Bitset.members_sorted _) (Bitset.mem_members.mpr hset) hij hmin,
      callUntilFalse, ← ih]
  | case2 i j hij hnext hj =>
    -- a bit found is set, so it lies below the length, which is the capacity
    exact absurd (hv ▸ LawfulBitset.lt_len_of_test (LawfulBitset.test_nextSet hnext).1) hj
  | case3 i hnext =>
    rw [List.filter_eq_nil_iff.mpr fun k hk hik => ?_]
    · rfl
    · have := LawfulBitset.test_of_nextSet_eq_none hnext k (by simpa using hik)
      rw [Bitset.mem_members.mp hk] at this
      cases this

theorem all_eq (hv : s.Valid) (f : ℕ → m Bool) :
    s.all f = callUntilFalse f (s.contents.sort (· ≤ ·)) := by
  rw [all, allFrom_eq hv, contents, Bitset.sort_bits]
  congr 1
  exact List.filter_eq_self.mpr fun k _ => by simp

theorem forEach_eq (hv : s.Valid) (f : ℕ → m Bool) :
    s.forEach f = callUntilFalse f (s.contents.sort (· ≤ ·)) :=
  all_eq hv f

end Enumeration

/-- A callback that only updates a state of lists, one call: the rest of the list is handed on
exactly when the call answers `true`. -/
theorem callUntilFalse_cons_run (g : ℕ → List ℕ → Bool × List ℕ) (i : ℕ) (l acc : List ℕ) :
    Id.run ((callUntilFalse (m := StateM (List ℕ)) (fun i => modifyGet (g i)) (i :: l)).run acc) =
      if (g i acc).1 then
        Id.run ((callUntilFalse (m := StateM (List ℕ)) (fun i => modifyGet (g i)) l).run
          (g i acc).2)
      else ((), (g i acc).2) := by
  simp only [callUntilFalse, StateT.run_bind, StateT.run_modifyGet]
  cases (g i acc).1 <;> rfl

/-- A callback that collects every member and always asks for more, starting from `acc`. -/
theorem callUntilFalse_collect (l acc : List ℕ) :
    (Id.run ((callUntilFalse (m := StateM (List ℕ)) (fun i => modifyGet fun acc =>
      (true, acc ++ [i])) l).run acc)).2 = acc ++ l := by
  induction l generalizing acc with
  | nil => simp [callUntilFalse]
  | cons i l ih =>
    rw [callUntilFalse_cons_run, if_pos rfl, ih, List.append_assoc, List.singleton_append]

/-- A callback that collects each member and then asks for more while fewer than `limit` are
collected, starting from `acc`. -/
theorem callUntilFalse_collectWhile (limit : Int) (l acc : List ℕ) :
    (Id.run ((callUntilFalse (m := StateM (List ℕ)) (fun i => modifyGet fun acc =>
      (decide (((acc ++ [i]).length : Int) < limit), acc ++ [i])) l).run acc)).2 =
      acc ++ l.take (max 1 (limit - acc.length).toNat) := by
  induction l generalizing acc with
  | nil => simp [callUntilFalse]
  | cons i l ih =>
    rw [callUntilFalse_cons_run]
    dsimp only
    split
    · -- the callback asks for more, so at least one more member fits under the limit
      rename_i h
      have hk : max 1 (limit - acc.length).toNat =
          max 1 (limit - (acc ++ [i]).length).toNat + 1 := by
        simp only [decide_eq_true_eq, List.length_append, List.length_singleton] at h ⊢
        omega
      rw [ih, hk, List.take_succ_cons, List.append_assoc, List.singleton_append]
    · rename_i h
      have hk : max 1 (limit - acc.length).toNat = 1 := by
        simp only [decide_eq_true_eq, List.length_append, List.length_singleton] at h
        omega
      rw [hk, List.take_succ_cons, List.take_zero]

/-- A range that stops before collecting once `limit` members are collected, starting from
`acc`. -/
theorem callUntilFalse_collectUpTo (limit : Int) (l acc : List ℕ) :
    (Id.run ((callUntilFalse (m := StateM (List ℕ)) (fun i => modifyGet fun acc =>
      if limit ≤ (acc.length : Int) then (false, acc) else (true, acc ++ [i])) l).run acc)).2 =
      acc ++ l.take (limit - acc.length).toNat := by
  induction l generalizing acc with
  | nil => simp [callUntilFalse]
  | cons i l ih =>
    rw [callUntilFalse_cons_run]
    by_cases h : limit ≤ (acc.length : Int)
    · have hk : (limit - acc.length).toNat = 0 := by omega
      simp [h, hk]
    · have hk : (limit - acc.length).toNat = (limit - (acc ++ [i]).length).toNat + 1 := by
        simp only [List.length_append, List.length_singleton]
        omega
      simp only [h, ↓reduceIte]
      rw [ih, hk, List.take_succ_cons, List.append_assoc, List.singleton_append]

/-- The members of a valid set, as a range over `all` collects them, are its contents in
ascending order. -/
theorem indices_eq (hv : s.Valid) : s.indices = s.contents.sort (· ≤ ·) := by
  rw [indices, all_eq hv, callUntilFalse_collect, List.nil_append]

theorem render_eq (hv : s.Valid) :
    s.render = "\x7b" ++ ", ".intercalate ((s.contents.sort (· ≤ ·)).map toString) ++ "\x7d" := by
  rw [render, indices_eq hv]

/-- The `forEach` of a script collects the smallest `limit` members of a valid set, and at
least one. -/
theorem collectWhile_eq (hv : s.Valid) (limit : Int) :
    collectWhile limit s = (s.contents.sort (· ≤ ·)).take (max 1 limit.toNat) := by
  rw [collectWhile, forEach_eq hv, callUntilFalse_collectWhile]
  simp

/-- The range over `all` of a script collects the smallest `limit` members of a valid set. -/
theorem collectUpTo_eq (hv : s.Valid) (limit : Int) :
    collectUpTo limit s = (s.contents.sort (· ≤ ·)).take limit.toNat := by
  rw [collectUpTo, all_eq hv, callUntilFalse_collectUpTo]
  simp

end Lawful

/-! ### The shelf of a script -/

/-- What an operation computes as a set of capacity `n`, when it succeeds, has capacity `n`. -/
theorem capacity_of_eq_ite {x : Except Abort (CappedSet B)} {s' : CappedSet B} {p : Prop}
    [Decidable p] {n : ℕ} {b : B} {e : Abort} (hx : x = if p then .ok ⟨n, b⟩ else .error e)
    (h : x = .ok s') :
    s'.capacity = n := by
  obtain ⟨-, rfl⟩ := ite_eq_ok_iff.mp (hx.symm.trans h)
  rfl

theorem capacity_of_eq_ite_snd {x : Except Abort (Bool × CappedSet B)} {s' : CappedSet B}
    {p : Prop} [Decidable p] {n : ℕ} {c c' : Bool} {b : B} {e : Abort}
    (hx : x = if p then .ok (c', ⟨n, b⟩) else .error e) (h : x = .ok (c, s')) :
    s'.capacity = n := by
  obtain ⟨-, ⟨⟩⟩ := ite_eq_ok_iff.mp (hx.symm.trans h)
  rfl

namespace Command

/-- The set a command writes to, named by its first argument, if it writes one. -/
def writes : Command → Option Int
  | .set a _ | .clear a _ | .union a _ | .subtract a _ | .copy a _ | .reset a => some a
  | _ => none

end Command

/-- The shelf `sh'` holds every set of `sh` under the same number, with the same capacity. -/
def Shelf.Keeps (sh sh' : Shelf B) : Prop :=
  ∀ j < sh.size, (sh'[j]?).map capacity = (sh[j]?).map capacity

/-- Every set on the shelf is valid. -/
def Shelf.Valid [Bitset B] (sh : Shelf B) : Prop := ∀ s ∈ sh, s.Valid

namespace Shelf

variable {sh sh' sh'' : Shelf B} {a : Int} {s s' : CappedSet B}

theorem Keeps.refl (sh : Shelf B) : Keeps sh sh := fun _ _ => rfl

theorem Keeps.trans (h : Keeps sh sh') (h' : Keeps sh' sh'') : Keeps sh sh'' := by
  intro j hj
  have hj' : j < sh'.size := by
    have hsome := h j hj
    rw [Array.getElem?_eq_getElem hj] at hsome
    by_contra hn
    rw [Array.getElem?_eq_none (by omega)] at hsome
    cases hsome
  rw [h' j hj', h j hj]

theorem keeps_push (s : CappedSet B) : Keeps sh (sh.push s) := by
  intro j hj
  rw [Array.getElem?_push_lt hj, Array.getElem?_eq_getElem hj]

theorem get_eq_ok (h : sh.get a = .ok s) : 0 ≤ a ∧ a.toNat < sh.size ∧ sh[a.toNat]? = some s := by
  unfold Shelf.get at h
  split at h
  · rename_i hlt
    cases h
    exact ⟨hlt.1, hlt.2, Array.getElem?_eq_getElem hlt.2⟩
  · cases h

theorem mem_of_get_eq_ok (h : sh.get a = .ok s) : s ∈ sh :=
  Array.mem_of_getElem? (get_eq_ok h).2.2

/-- Replacing a set by one of the same capacity keeps every capacity. -/
theorem keeps_put (h : sh.get a = .ok s) (hc : s'.capacity = s.capacity) :
    Keeps sh (sh.put a s') := by
  obtain ⟨-, hlt, hget⟩ := get_eq_ok h
  intro j hj
  rw [put, Array.getElem?_setIfInBounds]
  split
  · rename_i hj'
    subst hj'
    rw [hget]
    simp [hc]
  · rfl

/-- Replacing a set leaves every other number alone. -/
theorem getElem?_put_of_ne {j : ℕ} (h0 : 0 ≤ a) (hne : a ≠ j) : (sh.put a s)[j]? = sh[j]? :=
  Array.getElem?_setIfInBounds_ne (by omega)

/-- A set read from a valid shelf is valid. -/
theorem Valid.get [Bitset B] (hv : sh.Valid) (h : sh.get a = .ok s) : s.Valid :=
  hv s (mem_of_get_eq_ok h)

theorem Valid.push [Bitset B] (hv : sh.Valid) (hs : s.Valid) : Shelf.Valid (sh.push s) := by
  intro x hx
  rcases Array.mem_push.mp hx with hx | rfl
  · exact hv x hx
  · exact hs

theorem Valid.put [Bitset B] (hv : sh.Valid) (hs : s.Valid) : (sh.put a s).Valid := by
  intro x hx
  rcases Array.mem_or_eq_of_mem_setIfInBounds hx with hx | rfl
  · exact hv x hx
  · exact hs

end Shelf

namespace Command

section Lawful

variable [Bitset B]

/-- What one command can do to the shelf: leave it, append one set, or replace the set the
command writes with one of the same capacity; a set it adds is valid when the shelf was. -/
def Changes (c : Command) (sh sh' : Shelf B) : Prop :=
  sh' = sh ∨ (∃ s, (sh.Valid → s.Valid) ∧ sh' = sh.push s) ∨
    ∃ a s s', c.writes = some a ∧ sh.get a = .ok s ∧ s'.capacity = s.capacity ∧
      (sh.Valid → s'.Valid) ∧ sh' = sh.put a s'

variable {sh : Shelf B}

/-- An answer `x` to command `c` on shelf `sh` either aborts and leaves the shelf as it was, or
succeeds and changes the shelf as `Changes` allows. -/
def Outcome (c : Command) (sh : Shelf B) (x : Except Abort Reply × Shelf B) : Prop :=
  (∃ e, x.1 = .error e ∧ x.2 = sh) ∨ ∃ r, x.1 = .ok r ∧ c.Changes sh x.2

/-- Whatever the answer, the shelf changes as `Changes` allows: an abort leaves it. -/
theorem Outcome.changes {c : Command} {x : Except Abort Reply × Shelf B} (h : Outcome c sh x) :
    c.Changes sh x.2 := by
  rcases h with ⟨_, -, hsh⟩ | ⟨_, -, hc⟩
  · exact .inl hsh
  · exact hc

/-- A command that answers with the shelf it was given. -/
theorem outcome_of_snd_eq {c : Command} {x : Except Abort Reply × Shelf B} (h : x.2 = sh) :
    Outcome c sh x := by
  obtain ⟨r, sh'⟩ := x
  dsimp only at h
  subst h
  cases r with
  | error e => exact .inl ⟨e, rfl, rfl⟩
  | ok r => exact .inr ⟨r, rfl, .inl rfl⟩

/-- A command that creates a valid set appends it, or aborts. -/
theorem outcome_create {c : Command} (x : Except Abort (CappedSet B))
    {y : Except Abort Reply × Shelf B}
    (hy : y = match x with
      | .ok s => (.ok (.number sh.size), sh.push s)
      | .error e => (.error e, sh))
    (hx : ∀ s, x = .ok s → s.Valid) : Outcome c sh y := by
  subst hy
  cases x with
  | ok s => exact .inr ⟨_, rfl, .inr (.inl ⟨s, fun _ => hx s rfl, rfl⟩)⟩
  | error e => exact .inl ⟨e, rfl, rfl⟩

/-- A command that replaces the set it writes by what `f` makes of it, keeping its capacity and
its validity. -/
theorem outcome_update {c : Command} {a : Int} (hw : c.writes = some a)
    (f : CappedSet B → Except Abort (CappedSet B))
    (hf : ∀ s s', f s = .ok s' → s'.capacity = s.capacity ∧ (s.Valid → s'.Valid)) :
    Outcome c sh (run.update sh a f) := by
  unfold run.update
  cases hg : sh.get a with
  | error e => exact .inl ⟨e, rfl, rfl⟩
  | ok s =>
    cases hs : f s with
    | error e => exact .inl ⟨e, by simp [hs, bind, Except.bind], by simp [hs, bind, Except.bind]⟩
    | ok s' =>
      obtain ⟨hcap, hval⟩ := hf s s' hs
      refine .inr ⟨.unit, by simp [hs, bind, Except.bind], .inr (.inr ⟨a, s, s', hw, hg, hcap,
        fun hv => hval (hv.get hg), by simp [hs, bind, Except.bind]⟩)⟩

/-- A command that replaces the set it writes by what `f` makes of it with another set, keeping
its capacity, and its validity when both sets are valid. -/
theorem outcome_change {c : Command} {a : Int} (hw : c.writes = some a) (b : Int)
    (f : CappedSet B → CappedSet B → Except Abort (Bool × CappedSet B))
    (hf : ∀ s t c s', f s t = .ok (c, s') →
      s'.capacity = s.capacity ∧ (s.Valid → t.Valid → s'.Valid)) :
    Outcome c sh (run.change sh a b f) := by
  unfold run.change
  cases hg : sh.get a with
  | error e => exact .inl ⟨e, rfl, rfl⟩
  | ok s =>
    cases ht : sh.get b with
    | error e => exact .inl ⟨e, by simp [bind, Except.bind], by simp [bind, Except.bind]⟩
    | ok t =>
      cases hs : f s t with
      | error e =>
        exact .inl ⟨e, by simp [hs, bind, Except.bind], by simp [hs, bind, Except.bind]⟩
      | ok r =>
        obtain ⟨c', s'⟩ := r
        obtain ⟨hcap, hval⟩ := hf s t c' s' hs
        refine .inr ⟨.bool c', by simp [hs, bind, Except.bind], .inr (.inr ⟨a, s, s', hw, hg,
          hcap, fun hv => hval (hv.get hg) (hv.get ht),
          by simp [hs, bind, Except.bind]⟩)⟩

/-- Cloning a set appends a copy of it. -/
theorem run_clone {a : Int} {s : CappedSet B} (h : sh.get a = .ok s) :
    (Command.clone a).run sh = (.ok (.number sh.size), sh.push s.clone) := by
  simp [run, h]

/-- The replies and shelves of commands run one after the other from the shelf `sh`. -/
def runFrom : Shelf B → List Command → List (Except Abort Reply × Shelf B)
  | _, [] => []
  | sh, c :: cs => c.run sh :: runFrom (c.run sh).2 cs

theorem foldl_runAll (cmds : List Command) (acc : List (Except Abort Reply × Shelf B))
    (sh : Shelf B) :
    (cmds.foldl (fun (acc : List (Except Abort Reply × Shelf B) × Shelf B) c =>
      let (r, sh) := c.run acc.2
      (acc.1 ++ [(r, sh)], sh)) (acc, sh)).1 = acc ++ runFrom sh cmds := by
  induction cmds generalizing acc sh with
  | nil => simp [runFrom]
  | cons c cs ih =>
    rw [List.foldl_cons]
    exact (ih (acc ++ [c.run sh]) (c.run sh).2).trans (by simp [runFrom])

theorem runAll_eq (cmds : List Command) : runAll cmds = runFrom (#[] : Shelf B) cmds :=
  (foldl_runAll cmds [] #[]).trans (List.nil_append _)

variable [LawfulBitset B]

/-- What one command does: it aborts and leaves the shelf as it was, or it succeeds and leaves the
shelf, appends a set, or replaces the set it writes with one of the same capacity, and every set
it adds to a valid shelf is valid. -/
theorem run_cases (c : Command) (sh : Shelf B) : Outcome c sh (c.run sh) := by
  cases c with
  | new n => exact outcome_create (CappedSet.new n) rfl fun _ h => valid_of_new_eq_ok h
  | ofIndices n is =>
    exact outcome_create (CappedSet.ofIndices n is) rfl fun _ h => valid_of_ofIndices_eq_ok h
  | clone a =>
    -- the clone is written inline: read the set, append a copy
    show Outcome _ sh (match sh.get a with
      | .ok s => (.ok (.number sh.size), sh.push s.clone)
      | .error e => (.error e, sh))
    cases hg : sh.get a with
    | error e => exact .inl ⟨e, rfl, rfl⟩
    | ok s =>
      exact .inr ⟨_, rfl, .inr (.inl ⟨s.clone,
        fun hv => (hv.get hg).clone, rfl⟩)⟩
  | set a i =>
    exact outcome_update rfl _ fun s _ h => ⟨capacity_of_eq_ite (set_eq s i) h, fun hv => hv.set h⟩
  | clear a i =>
    exact outcome_update rfl _ fun s _ h =>
      ⟨capacity_of_eq_ite (clear_eq s i) h, fun hv => hv.clear h⟩
  | reset a =>
    exact outcome_update rfl _ fun s _ h => by
      cases h
      exact ⟨rfl, Valid.reset⟩
  | union a b =>
    exact outcome_change rfl b _ fun s t _ _ h =>
      ⟨capacity_of_eq_ite_snd (unionWith_eq s t) h, fun hs ht => hs.unionWith ht h⟩
  | subtract a b =>
    exact outcome_change rfl b _ fun s t _ _ h =>
      ⟨capacity_of_eq_ite_snd (subtract_eq s t) h, fun hs _ => hs.subtract h⟩
  | copy a b =>
    -- the copy is written inline: read both sets, overwrite the first
    show Outcome _ sh (match (do let s ← sh.get a; let t ← sh.get b; s.copyFrom t) with
      | .ok s => (.ok .unit, sh.put a s)
      | .error e => (.error e, sh))
    cases hg : sh.get a with
    | error e => exact .inl ⟨e, rfl, rfl⟩
    | ok s =>
      cases ht : sh.get b with
      | error e => exact .inl ⟨e, by simp [bind, Except.bind], by simp [bind, Except.bind]⟩
      | ok t =>
        cases hs : s.copyFrom t with
        | error e =>
          exact .inl ⟨e, by simp [hs, bind, Except.bind], by simp [hs, bind, Except.bind]⟩
        | ok s' =>
          refine .inr ⟨.unit, by simp [hs, bind, Except.bind], .inr (.inr ⟨a, s, s', rfl, hg,
            capacity_of_eq_ite (copyFrom_eq s t) hs,
            fun hv => (hv.get hg).copyFrom (hv.get ht) hs,
            by simp [hs, bind, Except.bind]⟩)⟩
  | test | intersects | equal | subset | any | count | capacity | indices | render | forEach
  | upTo => exact outcome_of_snd_eq rfl

/-- An aborted command leaves the shelf as it was. -/
theorem run_snd_of_error {c : Command} {e : Abort} (h : (c.run sh).1 = .error e) :
    (c.run sh).2 = sh := by
  rcases run_cases c sh with ⟨e', -, hsh⟩ | ⟨r, hr, -⟩
  · exact hsh
  · rw [hr] at h
    cases h

/-- A command changes no set but the one it writes. -/
theorem getElem?_run_of_ne (c : Command) {j : ℕ} (hj : j < sh.size)
    (hw : c.writes ≠ some (j : Int)) : (c.run sh).2[j]? = sh[j]? := by
  rcases (run_cases c sh).changes with hsh | ⟨s, -, hsh⟩ | ⟨a, s, s', ha, hg, -, -, hsh⟩
  · rw [hsh]
  · rw [hsh, Array.getElem?_push_lt hj, Array.getElem?_eq_getElem hj]
  · obtain ⟨h0, -, -⟩ := Shelf.get_eq_ok hg
    rw [hsh, Shelf.getElem?_put_of_ne h0 (fun h => hw (by rw [ha, h]))]

/-- A command keeps every set's capacity. -/
theorem keeps_run (c : Command) (sh : Shelf B) : Shelf.Keeps sh (c.run sh).2 := by
  rcases (run_cases c sh).changes with hsh | ⟨s, -, hsh⟩ | ⟨a, s, s', -, hg, hc, -, hsh⟩
  · rw [hsh]
    exact Shelf.Keeps.refl sh
  · rw [hsh]
    exact Shelf.keeps_push s
  · rw [hsh]
    exact Shelf.keeps_put hg hc

/-- A command keeps every set on the shelf valid. -/
theorem valid_run (c : Command) (hv : sh.Valid) : (c.run sh).2.Valid := by
  rcases (run_cases c sh).changes with hsh | ⟨s, hs, hsh⟩ | ⟨a, s, s', -, -, -, hs', hsh⟩
  · rw [hsh]
    exact hv
  · rw [hsh]
    exact hv.push (hs hv)
  · rw [hsh]
    exact hv.put (hs' hv)

/-- Every shelf of a run keeps the shelf the run started from. -/
theorem keeps_runFrom (sh : Shelf B) (cmds : List Command) :
    ∀ x ∈ runFrom sh cmds, Shelf.Keeps sh x.2 := by
  induction cmds generalizing sh with
  | nil => simp [runFrom]
  | cons c cs ih =>
    intro x hx
    rcases List.mem_cons.mp hx with rfl | hx
    · exact keeps_run c sh
    · exact (keeps_run c sh).trans (ih _ x hx)

/-- Along a run, each shelf keeps every earlier one. -/
theorem pairwise_runFrom (sh : Shelf B) (cmds : List Command) :
    ((runFrom sh cmds).map (·.2)).Pairwise Shelf.Keeps := by
  induction cmds generalizing sh with
  | nil => simp [runFrom]
  | cons c cs ih =>
    rw [runFrom, List.map_cons, List.pairwise_cons]
    refine ⟨fun y hy => ?_, ih _⟩
    obtain ⟨x, hx, rfl⟩ := List.mem_map.mp hy
    exact keeps_runFrom _ cs x hx

/-- Every shelf of a run from a valid shelf is valid. -/
theorem valid_runFrom {sh : Shelf B} (hv : sh.Valid) (cmds : List Command) :
    ∀ x ∈ runFrom sh cmds, x.2.Valid := by
  induction cmds generalizing sh with
  | nil => simp [runFrom]
  | cons c cs ih =>
    intro x hx
    rcases List.mem_cons.mp hx with rfl | hx
    · exact valid_run c hv
    · exact ih (valid_run c hv) x hx

/-- Every set a script makes is valid. -/
theorem valid_runAll (cmds : List Command) : ∀ x ∈ runAll (B := B) cmds, x.2.Valid := by
  rw [runAll_eq]
  exact valid_runFrom (fun _ h => absurd h (Array.not_mem_empty _)) cmds

end Lawful

end Command

end CappedSet

open CappedSet in
/-- Capped sets over any bitset with the library's laws behave as finite sets of indices below
their capacity. Every set a script makes is valid, its bitset as long as its capacity, and so
holds indices of its universe only. Creating, inserting, removing, testing, emptying and cloning
act on what a set denotes as the finite-set operations, and an index outside the universe aborts
naming the operand. A union or a difference reports, from the counts before and after, whether
the set changed: the other set was not included, or the two met. Meeting and inclusion, read off
the size of the intersection, emptiness and size are the finite-set notions, and over valid sets
so are overwriting and equality of capacity and contents. The members of a valid set are listed,
rendered and handed to a callback in ascending order, the callback until it first answers
`false`. Every binary operation on sets of different capacities aborts naming both, except
equality, which answers `false`. On a shelf of sets, a clone is a new set beside the original,
an aborted command changes nothing, a command changes no set but the one it writes, and along
every run each set keeps its capacity. -/
theorem cappedSet_operations_through_contents {B : Type} [Bitset B] [LawfulBitset B] :
    (∀ cmds : List Command, ∀ x ∈ Command.runAll (B := B) cmds, ∀ s ∈ x.2,
      s.Valid ∧ s.contents ⊆ Finset.range s.capacity) ∧
    (∀ n : Int, (CappedSet.new n : Except Abort (CappedSet B)).map denote =
      if n < 0 then .error (.raised (.outOfRange "capacity" n 0)) else .ok (n.toNat, ∅)) ∧
    (∀ (s : CappedSet B) (i : Int), (s.set i).map denote =
      if 0 ≤ i ∧ i < s.capacity then .ok (s.capacity, insert i.toNat s.contents)
      else .error (.raised (.outOfRange "operand" i s.capacity))) ∧
    (∀ (s : CappedSet B) (i : Int), (s.clear i).map denote =
      if 0 ≤ i ∧ i < s.capacity then .ok (s.capacity, s.contents.erase i.toNat)
      else .error (.raised (.outOfRange "operand" i s.capacity))) ∧
    (∀ (s : CappedSet B) (i : Int), s.test i =
      if 0 ≤ i ∧ i < s.capacity then .ok (decide (i.toNat ∈ s.contents))
      else .error (.raised (.outOfRange "operand" i s.capacity))) ∧
    (∀ s : CappedSet B, s.reset.denote = (s.capacity, ∅)) ∧
    (∀ s : CappedSet B, s.clone.denote = s.denote) ∧
    (∀ s t : CappedSet B, s.Valid → t.Valid → (s.copyFrom t).map denote =
      if t.capacity = s.capacity then .ok (s.capacity, t.contents) else .error (s.mismatch t)) ∧
    (∀ s t : CappedSet B, (s.unionWith t).map (Prod.map id denote) =
      if t.capacity = s.capacity then
        .ok (decide ¬ t.contents ⊆ s.contents, (s.capacity, s.contents ∪ t.contents))
      else .error (s.mismatch t)) ∧
    (∀ s t : CappedSet B, (s.subtract t).map (Prod.map id denote) =
      if t.capacity = s.capacity then
        .ok (decide (s.contents ∩ t.contents).Nonempty, (s.capacity, s.contents \ t.contents))
      else .error (s.mismatch t)) ∧
    (∀ s t : CappedSet B, s.intersects t =
      if t.capacity = s.capacity then .ok (decide (s.contents ∩ t.contents).Nonempty)
      else .error (s.mismatch t)) ∧
    (∀ s t : CappedSet B, s.isSubsetOf t =
      if t.capacity = s.capacity then .ok (decide (s.contents ⊆ t.contents))
      else .error (s.mismatch t)) ∧
    (∀ s t : CappedSet B, s.Valid → t.Valid → s.equal t = decide (s.denote = t.denote)) ∧
    (∀ s : CappedSet B, s.any = decide s.contents.Nonempty) ∧
    (∀ s : CappedSet B, s.count = s.contents.card) ∧
    (∀ s : CappedSet B, s.Valid → s.indices = s.contents.sort (· ≤ ·)) ∧
    (∀ s : CappedSet B, s.Valid → s.render =
      "\x7b" ++ ", ".intercalate ((s.contents.sort (· ≤ ·)).map toString) ++ "\x7d") ∧
    (∀ (m : Type → Type) [Monad m] (s : CappedSet B) (f : ℕ → m Bool), s.Valid →
      s.all f = callUntilFalse f (s.contents.sort (· ≤ ·)) ∧
        s.forEach f = callUntilFalse f (s.contents.sort (· ≤ ·))) ∧
    (∀ (sh : CappedSet.Shelf B) (a : Int) (s : CappedSet B), sh.get a = .ok s →
      (Command.clone a).run sh = (.ok (.number sh.size), sh.push s.clone)) ∧
    (∀ (c : Command) (sh : CappedSet.Shelf B) (e : Abort),
      (c.run sh).1 = .error e → (c.run sh).2 = sh) ∧
    (∀ (c : Command) (sh : CappedSet.Shelf B) (j : ℕ), j < sh.size → c.writes ≠ some (j : Int) →
      (c.run sh).2[j]? = sh[j]?) ∧
    ∀ cmds : List Command,
      ((Command.runAll (B := B) cmds).map (·.2)).Pairwise CappedSet.Shelf.Keeps :=
  ⟨fun cmds x hx s hs =>
      have hv := Command.valid_runAll cmds x hx s hs
      ⟨hv, hv.contents_subset_range⟩,
    new_denote, set_denote, clear_denote, test_eq, reset_denote, clone_denote,
    fun _ _ hs ht => copyFrom_denote hs ht, unionWith_denote, subtract_denote, intersects_eq,
    isSubsetOf_eq, fun _ _ hs ht => equal_eq hs ht, any_eq, count_eq, fun _ hv => indices_eq hv,
    fun _ hv => render_eq hv, fun _ _ _ f hv => ⟨all_eq hv f, forEach_eq hv f⟩,
    fun _ _ _ h => Command.run_clone h, fun _ _ _ h => Command.run_snd_of_error h,
    fun c _ _ hj hw => c.getElem?_run_of_ne hj hw,
    fun cmds => by
      rw [Command.runAll_eq]
      exact Command.pairwise_runFrom #[] cmds⟩

/-- The set `{1, 5}` of capacity 8, over an array of bits. -/
def oneFive : CappedSet BitArray := ⟨8, Bitset.set (Bitset.set (Bitset.new 8) 1) 5⟩

theorem cappedSet_operations_through_contents_oneFive :
    oneFive.Valid ∧
      oneFive.all (m := Id) (fun i => pure (decide (i < 3))) =
        CappedSet.callUntilFalse (m := Id) (fun i => pure (decide (i < 3)))
          (oneFive.contents.sort (· ≤ ·)) ∧
      (CappedSet.Shelf.get #[oneFive] 0 = .ok oneFive ∧
        (CappedSet.Command.clone 0).run #[oneFive] =
          (.ok (.number 1), #[oneFive].push oneFive.clone)) ∧
      (((CappedSet.Command.set 0 9).run #[oneFive]).1 =
          .error (.raised (.outOfRange "operand" 9 8)) ∧
        ((CappedSet.Command.set 0 9).run #[oneFive]).2 = #[oneFive]) ∧
      (0 < (#[oneFive, oneFive] : CappedSet.Shelf BitArray).size ∧
        (CappedSet.Command.union 1 0).writes ≠ some (0 : Int) ∧
        ((CappedSet.Command.union 1 0).run #[oneFive, oneFive]).2[0]? =
          (#[oneFive, oneFive] : CappedSet.Shelf BitArray)[0]?) := by
  obtain ⟨-, -, -, -, -, -, -, -, -, -, -, -, -, -, -, -, -, hall, hclone, habort, hframe, -⟩ :=
    cappedSet_operations_through_contents (B := BitArray)
  have hv : oneFive.Valid := rfl
  have hget : CappedSet.Shelf.get #[oneFive] 0 = .ok oneFive := rfl
  have herr : ((CappedSet.Command.set 0 9).run #[oneFive]).1 =
      .error (.raised (.outOfRange "operand" 9 8)) := rfl
  refine ⟨hv, (hall Id oneFive _ hv).1, ⟨hget, hclone _ _ _ hget⟩, ⟨herr, habort _ _ _ herr⟩,
    ⟨by decide, by decide, hframe _ _ 0 (by decide) (by decide)⟩⟩

end RegisterLiveness
