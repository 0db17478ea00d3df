import RegisterLiveness.Machine.Assembler

/-!
# Label resolution

`Line.assemble` emits instructions in one pass and patches each forward reference when its label
is bound. Its result is described here without patches: read the lines once for their layout
(`Line.layout`: every label bound, with its name resolved against the marks made before it and
the number of instructions before it, and every statement emitted, with its names resolved), and
look every name up in the complete table of bindings (`Layout.code`).

`assemble_resolves_labels` says that the assembler gives exactly what this layout prescribes
(`Layout.Result`): the first label bound a second time aborts; otherwise a name referenced but
never bound aborts, and then a label after the last instruction; otherwise the program is the
emitted statements, each target the offset its label was bound to.

The proof follows the assembler line by line (`Assembler.Tracks`). Instructions are seen slot by
slot (`Stmt.fill`): a slot holds the offset of its name once the name is bound and `-1` before,
and the names still waiting hold exactly the slots that name them (`Waiting`), so that binding a
name patches every slot naming it and no other.
-/

namespace RegisterLiveness

/-- A label name with every `{n}` replaced by the number `m` of marks made. -/
def fillMarks (m : Nat) (name : String) : String := name.replace "\x7bn\x7d" (toString m)

theorem Assembler.resolve_eq (a : Assembler) (name : String) :
    a.resolve name = fillMarks a.marks name := rfl

/-! ### Statements slot by slot -/

namespace Stmt

/-- The same statement with every label name renamed by `f`. -/
def rename (f : String → String) : Stmt → Stmt
  | .plain i => .plain i
  | .branch i dst => .branch i (f dst)
  | .switch i table => .switch i (table.map f)

/-- The label names a statement refers to, in order. -/
def labels : Stmt → List String
  | .plain _ => []
  | .branch _ dst => [dst]
  | .switch _ table => table

/-- The instruction a statement stands for once each label name `x` is given the offset `r x`. -/
def link (r : String → Int) : Stmt → Instr
  | .plain i => i
  | .branch i dst => { i with br := r dst }
  | .switch i table => { i with sw := table.map r }

/-- The label name a statement puts in slot `σ`: `none` is the branch target, `some k` entry `k`
of the jump table. -/
def nameAt : Stmt → Option Nat → Option String
  | .plain _, _ => none
  | .branch _ dst, none => some dst
  | .branch _ _, some _ => none
  | .switch _ _, none => none
  | .switch _ table, some k => table[k]?

/-- The instruction of a statement whose slot `σ` holds `v σ`. -/
def fill (v : Option Nat → Int) : Stmt → Instr
  | .plain i => i
  | .branch i _ => { i with br := v none }
  | .switch i table => { i with sw := (List.range table.length).map fun k => v (some k) }

theorem mem_labels {s : Stmt} {x : String} : x ∈ s.labels ↔ ∃ σ, s.nameAt σ = some x := by
  cases s with
  | plain i => simp [labels, nameAt]
  | branch i dst =>
    constructor
    · intro h
      exact ⟨none, by simp_all [labels, nameAt]⟩
    · rintro ⟨σ, hσ⟩
      cases σ <;> simp_all [labels, nameAt]
  | switch i table =>
    rw [labels, List.mem_iff_getElem?]
    constructor
    · rintro ⟨k, hk⟩
      exact ⟨some k, hk⟩
    · rintro ⟨σ, hσ⟩
      cases σ with
      | none => simp [nameAt] at hσ
      | some k => exact ⟨k, hσ⟩

/-- An instruction depends only on what its slots hold. -/
theorem fill_congr {s : Stmt} {v w : Option Nat → Int}
    (h : ∀ σ, (s.nameAt σ).isSome → v σ = w σ) : s.fill v = s.fill w := by
  cases s with
  | plain i => rfl
  | branch i dst => simp [fill, h none (by simp [nameAt])]
  | switch i table =>
    simp only [fill, Instr.mk.injEq, and_true, true_and]
    apply List.map_congr_left
    intro k hk
    exact h (some k) (by simp [nameAt, List.mem_range.mp hk])

theorem link_eq_fill (r : String → Int) (s : Stmt) :
    s.link r = s.fill fun σ => ((s.nameAt σ).map r).getD 0 := by
  cases s with
  | plain i => rfl
  | branch i dst => rfl
  | switch i table =>
    simp only [link, fill, nameAt, Instr.mk.injEq, and_true, true_and]
    apply List.ext_getElem
    · simp
    · intro k h₁ h₂
      have hk : k < table.length := by simpa using h₁
      simp [List.getElem?_eq_getElem hk]

end Stmt

/-- `code` holds the statements `E`, slot `σ` of the `j`-th holding `V j σ`. -/
structure Holds (code : Array Instr) (E : List Stmt) (V : Nat → Option Nat → Int) : Prop where
  size_eq : code.size = E.length
  get : ∀ {j : Nat} {s : Stmt}, E[j]? = some s → code[j]? = some (s.fill (V j))

namespace Holds

variable {code : Array Instr} {E : List Stmt} {V W : Nat → Option Nat → Int}

/-- Only the slots a statement has are read. -/
theorem congr (h : Holds code E V)
    (hVW : ∀ {j s σ}, E[j]? = some s → (s.nameAt σ).isSome → V j σ = W j σ) :
    Holds code E W where
  size_eq := h.size_eq
  get hs := by
    rw [h.get hs, Stmt.fill_congr fun σ hσ => hVW hs hσ]

theorem push (h : Holds code E V) (s : Stmt) :
    Holds (code.push (s.fill (V E.length))) (E ++ [s]) V where
  size_eq := by simp [h.size_eq]
  get {j t} ht := by
    rw [Array.getElem?_push, h.size_eq]
    rw [List.getElem?_append] at ht
    split at ht
    · rw [if_neg (by omega)]
      exact h.get ht
    · rename_i hj
      have hj' : j = E.length := by
        have := (List.getElem?_eq_some_iff.mp ht).1
        simp only [List.length_singleton] at this
        omega
      subst hj'
      simp only [Nat.sub_self, List.getElem?_singleton, if_true, Option.some.injEq] at ht ⊢
      rw [ht]

/-- Patching a slot of an instruction sets what the slot holds, and nothing else. -/
theorem apply (h : Holds code E V) (pc : Nat) {j : Nat} {σ : Option Nat} {s : Stmt}
    (hs : E[j]? = some s) (hσ : (s.nameAt σ).isSome) :
    Holds (Assembler.Patch.apply pc code ⟨j, σ⟩) E
      (fun j' σ' => if j' = j ∧ σ' = σ then pc else V j' σ') where
  size_eq := by simp [Assembler.Patch.apply, h.size_eq]
  get {j' t} ht := by
    simp only [Assembler.Patch.apply, Array.getElem?_modify]
    by_cases hj : j = j'
    · subst hj
      rw [if_pos rfl, h.get ht, Option.map_some]
      rw [hs, Option.some.injEq] at ht
      subst ht
      congr 1
      -- the patched slot is the branch target or one table entry
      cases s with
      | plain i => simp [Stmt.nameAt] at hσ
      | branch i dst =>
        cases σ with
        | none => simp [Stmt.fill]
        | some k => simp [Stmt.nameAt] at hσ
      | switch i table =>
        cases σ with
        | none => simp [Stmt.nameAt] at hσ
        | some k =>
          simp only [Stmt.fill, Instr.mk.injEq, and_true, true_and]
          apply List.ext_getElem
          · simp
          · intro n h₁ h₂
            simp only [List.getElem_set, List.getElem_map, List.getElem_range, Option.some.injEq]
            by_cases hkn : k = n
            · subst hkn
              simp
            · simp [hkn, Ne.symm hkn]
    · rw [if_neg hj, h.get ht]
      congr 2
      funext σ'
      simp [Ne.symm hj]

/-- Patching a list of slots sets what each of them holds. -/
theorem foldl_apply (pc : Nat) : ∀ (P : List Patch) {code : Array Instr} {V : Nat → Option Nat → Int},
    Holds code E V → (∀ q ∈ P, ∃ s, E[q.pc]? = some s ∧ (s.nameAt q.slot).isSome) →
    Holds (P.foldl (Assembler.Patch.apply pc) code) E
      (fun j σ => if P.any (fun q => q.pc == j && q.slot == σ) then pc else V j σ)
  | [], _, _, h, _ => by simpa using h
  | q :: P, code, V, h, hP => by
    obtain ⟨s, hs, hσ⟩ := hP q List.mem_cons_self
    have h₁ := h.apply pc hs hσ
    have := foldl_apply pc P h₁ fun q' hq' => hP q' (List.mem_cons_of_mem _ hq')
    rw [List.foldl_cons]
    refine this.congr fun {j s σ} _ _ => ?_
    simp only [List.any_cons]
    by_cases hjq : j = q.pc ∧ σ = q.slot
    · obtain ⟨rfl, rfl⟩ := hjq
      simp
    · have hb : (q.pc == j && q.slot == σ) = false := by
        rw [Bool.eq_false_iff]
        intro h'
        simp only [Bool.and_eq_true, beq_iff_eq] at h'
        exact hjq ⟨h'.1.symm, h'.2.symm⟩
      simp only [if_neg hjq, hb, Bool.false_or]

end Holds

/-! ### Names waiting for their labels -/

theorem lookup_isSome_iff_mem {β : Type} {l : List (String × β)} {x : String} :
    (l.lookup x).isSome ↔ x ∈ l.map Prod.fst := by
  rw [List.lookup_isSome_iff]
  simp only [beq_iff_eq, List.mem_map]
  constructor <;> rintro ⟨p, hp, rfl⟩ <;> exact ⟨p, hp, rfl⟩

theorem lookup_eq_none_of_not_mem {β : Type} {l : List (String × β)} {x : String}
    (hx : x ∉ l.map Prod.fst) : l.lookup x = none := by
  cases h : l.lookup x with
  | none => rfl
  | some v => exact absurd (lookup_isSome_iff_mem.mp (by simp [h])) hx

theorem lookup_eq_some_of_mem {β : Type} {l : List (String × β)} {x : String} {v : β}
    (hnd : (l.map Prod.fst).Nodup) (h : (x, v) ∈ l) : l.lookup x = some v := by
  induction l with
  | nil => exact absurd h List.not_mem_nil
  | cons p l ih =>
    obtain ⟨k, w⟩ := p
    rw [List.map_cons, List.nodup_cons] at hnd
    rw [List.lookup_cons]
    rcases List.mem_cons.mp h with hx | hx
    · cases hx
      simp
    · have hxk : x ≠ k := by
        rintro rfl
        exact hnd.1 (List.mem_map.mpr ⟨_, hx, rfl⟩)
      rw [beq_false_of_ne hxk]
      exact ih hnd.2 hx

theorem keys_addPending (ps : List (String × List Patch)) (x : String) (q : Patch) :
    (Assembler.addPending ps x q).map Prod.fst =
      if x ∈ ps.map Prod.fst then ps.map Prod.fst else ps.map Prod.fst ++ [x] := by
  unfold Assembler.addPending
  have hany : ps.any (·.1 == x) = true ↔ x ∈ ps.map Prod.fst := by simp
  by_cases hx : x ∈ ps.map Prod.fst
  · rw [if_pos (hany.mpr hx), if_pos hx, List.map_map]
    apply List.map_congr_left
    rintro ⟨k, v⟩ -
    simp only [Function.comp_apply]
    split <;> rfl
  · rw [if_neg (fun h => hx (hany.mp h)), if_neg hx]
    simp

/-- A patch added under a name joins that name's patches, at the end. -/
theorem mem_addPending {ps : List (String × List Patch)} {x : String} {q : Patch}
    (hnd : (ps.map Prod.fst).Nodup) {y : String} {P : List Patch} :
    (y, P) ∈ Assembler.addPending ps x q ↔
      ((y, P) ∈ ps ∧ y ≠ x) ∨ (y = x ∧ P = (ps.lookup x).getD [] ++ [q]) := by
  unfold Assembler.addPending
  by_cases hx : x ∈ ps.map Prod.fst
  · obtain ⟨⟨k, v⟩, hkv, rfl⟩ := List.mem_map.mp hx
    have hlookup := lookup_eq_some_of_mem hnd hkv
    rw [if_pos (by simpa using hx), hlookup, Option.getD_some, List.mem_map]
    constructor
    · rintro ⟨⟨k', v'⟩, hkv', hf⟩
      by_cases hk : k' = k
      · subst hk
        have hv : v' = v := by
          rw [lookup_eq_some_of_mem hnd hkv', Option.some.injEq] at hlookup
          exact hlookup
        subst hv
        simp only [beq_self_eq_true, if_true, Prod.mk.injEq] at hf
        exact .inr ⟨hf.1.symm, hf.2.symm⟩
      · simp only [beq_iff_eq, hk, if_false, Prod.mk.injEq] at hf
        obtain ⟨rfl, rfl⟩ := hf
        exact .inl ⟨hkv', hk⟩
    · rintro (⟨hyP, hy⟩ | ⟨rfl, rfl⟩)
      · exact ⟨(y, P), hyP, by simp [hy]⟩
      · exact ⟨(y, v), hkv, by simp⟩
  · rw [if_neg (by simpa using hx), lookup_eq_none_of_not_mem hx, Option.getD_none, List.nil_append,
      List.mem_append, List.mem_singleton, Prod.mk.injEq]
    constructor
    · rintro (h | h)
      · exact .inl ⟨h, fun hyx => hx (hyx ▸ List.mem_map_of_mem (f := Prod.fst) h)⟩
      · exact .inr h
    · rintro (h | h)
      · exact .inl h.1
      · exact .inr h

/-- The names waiting in `ps` are exactly the names that slots `S` refer to and that are not
among `names`, each once and with exactly the slots naming it. -/
structure Waiting (ps : List (String × List Patch)) (names : List String)
    (S : Patch → String → Prop) : Prop where
  nodup : (ps.map Prod.fst).Nodup
  unbound : ∀ {x P}, (x, P) ∈ ps → x ∉ names
  referenced : ∀ {x P}, (x, P) ∈ ps → ∃ q, S q x
  patches : ∀ {x P}, (x, P) ∈ ps → ∀ q, q ∈ P ↔ S q x
  complete : ∀ {q x}, S q x → x ∉ names → x ∈ ps.map Prod.fst

namespace Waiting

variable {ps : List (String × List Patch)} {names : List String} {S : Patch → String → Prop}

theorem congr {S' : Patch → String → Prop} (hw : Waiting ps names S) (h : ∀ q x, S q x ↔ S' q x) :
    Waiting ps names S' where
  nodup := hw.nodup
  unbound := hw.unbound
  referenced hx := (hw.referenced hx).imp fun q => (h q _).mp
  patches hx q := (hw.patches hx q).trans (h q _)
  complete hq := hw.complete ((h _ _).mpr hq)

/-- The patches waiting for an unbound name are the slots naming it. -/
theorem mem_lookup (hw : Waiting ps names S) {x : String} (hx : x ∉ names) (q : Patch) :
    q ∈ (ps.lookup x).getD [] ↔ S q x := by
  cases h : ps.lookup x with
  | none =>
    -- no slot names it, or it would be waiting
    simp only [Option.getD_none, List.not_mem_nil, false_iff]
    intro hq
    have := lookup_isSome_iff_mem.mpr (hw.complete hq hx)
    rw [h] at this
    exact Bool.false_ne_true this
  | some P =>
    obtain ⟨l₁, l₂, hl, -⟩ := List.lookup_eq_some_iff.mp h
    exact hw.patches (hl ▸ List.mem_append_right _ List.mem_cons_self) q

/-- A slot naming a bound name waits for nothing. -/
theorem add_bound (hw : Waiting ps names S) {x : String} (hx : x ∈ names) (q₀ : Patch) :
    Waiting ps names fun q y => S q y ∨ (q = q₀ ∧ y = x) where
  nodup := hw.nodup
  unbound := hw.unbound
  referenced hy := (hw.referenced hy).imp fun _ => .inl
  patches {y P} hy q := by
    have hyx : y ≠ x := fun h => hw.unbound hy (h ▸ hx)
    rw [hw.patches hy q]
    simp [hyx]
  complete {q y} hq hy := by
    rcases hq with hq | ⟨-, rfl⟩
    · exact hw.complete hq hy
    · exact absurd hx hy

/-- A slot naming an unbound name waits for it, at the end of its patches. -/
theorem add_unbound (hw : Waiting ps names S) {x : String} (hx : x ∉ names) (q₀ : Patch) :
    Waiting (Assembler.addPending ps x q₀) names fun q y => S q y ∨ (q = q₀ ∧ y = x) where
  nodup := by
    rw [keys_addPending]
    split
    · exact hw.nodup
    · rename_i hxk
      refine List.nodup_append.mpr ⟨hw.nodup, by simp, ?_⟩
      rintro a ha b hb rfl
      exact hxk (List.mem_singleton.mp hb ▸ ha)
  unbound {y P} hy := by
    rcases (mem_addPending hw.nodup).mp hy with ⟨hy, -⟩ | ⟨rfl, -⟩
    · exact hw.unbound hy
    · exact hx
  referenced {y P} hy := by
    rcases (mem_addPending hw.nodup).mp hy with ⟨hy, -⟩ | ⟨rfl, -⟩
    · exact (hw.referenced hy).imp fun _ => .inl
    · exact ⟨q₀, .inr ⟨rfl, rfl⟩⟩
  patches {y P} hy q := by
    rcases (mem_addPending hw.nodup).mp hy with ⟨hy, hyx⟩ | ⟨rfl, rfl⟩
    · rw [hw.patches hy q]
      simp [hyx]
    · rw [List.mem_append, hw.mem_lookup hx, List.mem_singleton]
      simp
  complete {q y} hq hy := by
    rw [keys_addPending]
    rcases hq with hq | ⟨-, rfl⟩
    · have := hw.complete hq hy
      split <;> simp [this]
    · split
      · assumption
      · simp

/-- Binding a name stops it waiting. -/
theorem bind (hw : Waiting ps names S) {x : String} :
    Waiting (ps.filter (·.1 != x)) (names ++ [x]) S where
  nodup := hw.nodup.sublist (List.filter_sublist.map Prod.fst)
  unbound {y P} hy := by
    rw [List.mem_filter, bne_iff_ne] at hy
    simp [hw.unbound hy.1, hy.2]
  referenced hy := hw.referenced (List.mem_filter.mp hy).1
  patches hy := hw.patches (List.mem_filter.mp hy).1
  complete {q y} hq hy := by
    have hy' : y ∉ names ∧ y ≠ x := by simpa using hy
    obtain ⟨⟨k, P⟩, hkP, rfl⟩ := List.mem_map.mp (hw.complete hq hy'.1)
    exact List.mem_map_of_mem (List.mem_filter.mpr ⟨hkP, by simpa using hy'.2⟩)

end Waiting

/-! ### What the lines lay out -/

/-- What lines declare, read in order: the marks made so far, every label bound with its name
resolved and the number of instructions before it, and every statement emitted with its names
resolved. -/
structure Layout where
  marks : Nat := 0
  bindings : List (String × Nat) := []
  emitted : List Stmt := []

namespace Layout

/-- Bind a label to the next instruction. -/
def bind (L : Layout) (name : String) : Layout :=
  { L with bindings := L.bindings ++ [(fillMarks L.marks name, L.emitted.length)] }

/-- Make a mark. -/
def mark (L : Layout) : Layout := { L with marks := L.marks + 1 }

/-- Emit a statement. -/
def emit (L : Layout) (s : Stmt) : Layout :=
  { L with emitted := L.emitted ++ [s.rename (fillMarks L.marks)] }

/-- Read one line: its label, its mark and its statement, in this order. -/
def add (L : Layout) (l : Line) : Layout :=
  let L := match l.label with
    | some name => L.bind name
    | none => L
  let L := if l.mark then L.mark else L
  match l.stmt with
  | some s => L.emit s
  | none => L

/-- The label names bound, in order. -/
def names (L : Layout) : List String := L.bindings.map Prod.fst

/-- The label names referred to, in order. -/
def refs (L : Layout) : List String := L.emitted.flatMap Stmt.labels

/-- The emitted statements, each label name looked up among all the bindings. -/
def code (L : Layout) : List Instr :=
  L.emitted.map (Stmt.link fun x => (((L.bindings.lookup x).getD 0 : Nat) : Int))

/-- What assembling lines laid out as `L` gives, by the rules: the first label bound a second
time aborts; otherwise a name referred to but never bound aborts (any such name), and then a
label bound after the last instruction; otherwise the program is the emitted statements with
every label name looked up. -/
inductive Result (L : Layout) : Except Abort Program → Prop
  | duplicate {j : Nat} {x : String} : L.names[j]? = some x → x ∈ L.names.take j →
      (L.names.take j).Nodup → Result L (.error (.message s!"label {x} has already been linked"))
  | unresolved {x : String} : L.names.Nodup → x ∈ L.refs → x ∉ L.names →
      Result L (.error (.message ("labels are not fully resolved: " ++ x)))
  | pastEnd : L.names.Nodup → (∀ x ∈ L.refs, x ∈ L.names) →
      (∃ b ∈ L.bindings, L.emitted.length ≤ b.2) →
      Result L (.error (.message "labels pointing past the end of program"))
  | linked : L.names.Nodup → (∀ x ∈ L.refs, x ∈ L.names) →
      (∀ b ∈ L.bindings, b.2 < L.emitted.length) → Result L (.ok ⟨L.code.toArray⟩)

theorem not_mem_take_of_nodup {l : List String} {j : Nat} {x : String} (hnd : l.Nodup)
    (hj : l[j]? = some x) : x ∉ l.take j := by
  have hdrop : x ∈ l.drop j := by
    rw [List.mem_iff_getElem?]
    exact ⟨0, by simpa using hj⟩
  rw [← List.take_append_drop j l, List.nodup_append] at hnd
  exact fun hx => hnd.2.2 x hx x hdrop rfl

/-- Assembling succeeds exactly when no label is bound twice, every name referred to is bound,
and no label follows the last instruction. -/
theorem Result.ok_iff {L : Layout} {r : Except Abort Program} (h : L.Result r) :
    (∃ p, r = .ok p) ↔ L.names.Nodup ∧ (∀ x ∈ L.refs, x ∈ L.names) ∧
      ∀ b ∈ L.bindings, b.2 < L.emitted.length := by
  cases h with
  | duplicate hj hx _ =>
    constructor
    · rintro ⟨_, hp⟩
      cases hp
    · rintro ⟨hnd, -, -⟩
      exact absurd hx (not_mem_take_of_nodup hnd hj)
  | unresolved _ hx hn =>
    constructor
    · rintro ⟨_, hp⟩
      cases hp
    · rintro ⟨-, hall, -⟩
      exact absurd (hall _ hx) hn
  | pastEnd _ _ hb =>
    constructor
    · rintro ⟨_, hp⟩
      cases hp
    · rintro ⟨-, -, hlt⟩
      obtain ⟨b, hb, hge⟩ := hb
      have := hlt b hb
      omega
  | linked hnd hall hlt => exact ⟨fun _ => ⟨hnd, hall, hlt⟩, fun _ => ⟨_, rfl⟩⟩

/-- Slot `q` of the emitted statements names `x`. -/
def Names (L : Layout) (q : Patch) (x : String) : Prop :=
  L.emitted[q.pc]?.bind (·.nameAt q.slot) = some x

theorem mem_refs {L : Layout} {x : String} : x ∈ L.refs ↔ ∃ q, L.Names q x := by
  simp only [refs, List.mem_flatMap, Stmt.mem_labels, Names]
  constructor
  · rintro ⟨s, hs, σ, hσ⟩
    obtain ⟨j, hj⟩ := List.mem_iff_getElem?.mp hs
    exact ⟨⟨j, σ⟩, by simp [hj, hσ]⟩
  · rintro ⟨⟨j, σ⟩, hq⟩
    obtain ⟨s, hs, hσ⟩ := Option.bind_eq_some_iff.mp hq
    exact ⟨s, List.mem_of_getElem? hs, σ, hσ⟩

end Layout

/-- The layout of lines. -/
def Line.layout (ls : List Line) : Layout := ls.foldl Layout.add {}

/-! ### Following the assembler -/

/-- Where a name stands while the bindings `B` are known: its offset, or `-1` while unbound. -/
def resolveIn (B : List (String × Nat)) (x : String) : Int :=
  ((B.lookup x).map fun pc => (pc : Int)).getD (-1)

/-- Binding a new name moves it from `-1` to its offset and leaves every other name alone. -/
theorem resolveIn_append {B : List (String × Nat)} {x : String} (hx : x ∉ B.map Prod.fst)
    (pc : Nat) (y : String) :
    resolveIn (B ++ [(x, pc)]) y = if y = x then (pc : Int) else resolveIn B y := by
  unfold resolveIn
  rw [List.lookup_append]
  by_cases hyx : y = x
  · subst hyx
    simp [lookup_eq_none_of_not_mem hx]
  · have hb : (y == x) = false := beq_false_of_ne hyx
    cases B.lookup y <;> simp [hyx, List.lookup_cons, hb]

namespace Layout

/-- What slot `σ` of the `j`-th emitted statement holds while only the bindings of `L` are
known. -/
def held (L : Layout) (j : Nat) (σ : Option Nat) : Int :=
  ((L.emitted[j]?.bind (·.nameAt σ)).map (resolveIn L.bindings)).getD 0

theorem held_of_names {L : Layout} {j : Nat} {σ : Option Nat} {x : String}
    (h : L.Names ⟨j, σ⟩ x) : L.held j σ = resolveIn L.bindings x := by
  simp only [Names] at h
  simp [held, h]

theorem names_eq_of_getElem? {L : Layout} {j : Nat} {σ : Option Nat} {s : Stmt} {x : String}
    (hs : L.emitted[j]? = some s) (hσ : s.nameAt σ = some x) : L.Names ⟨j, σ⟩ x := by
  simp [Names, hs, hσ]

/-- The slots of an emitted statement, and those of the statements before it. -/
theorem names_emit {L : Layout} {s : Stmt} {q : Patch} {x : String} :
    (L.emit s).Names q x ↔
      L.Names q x ∨ (q.pc = L.emitted.length ∧ (s.rename (fillMarks L.marks)).nameAt q.slot = some x) := by
  simp only [Names, emit, List.getElem?_append]
  by_cases hq : q.pc < L.emitted.length
  · rw [if_pos hq]
    simp [Nat.ne_of_lt hq]
  · rw [if_neg hq, List.getElem?_eq_none (Nat.le_of_not_lt hq)]
    by_cases hq' : q.pc = L.emitted.length
    · simp [hq']
    · have : 0 < q.pc - L.emitted.length := by omega
      simp [hq', Nat.ne_of_gt this]

theorem held_emit_of_lt {L : Layout} {s : Stmt} {j : Nat} (hj : j < L.emitted.length)
    (σ : Option Nat) : (L.emit s).held j σ = L.held j σ := by
  simp [held, emit, List.getElem?_append_left hj]

end Layout

/-- The assembler `a` has read lines laid out as `L`: the same marks, the bindings as bound, the
emitted statements in its code with every slot of a bound name holding its offset and every other
`-1`, and the names still waiting with exactly the slots naming them. -/
structure Assembler.Tracks (a : Assembler) (L : Layout) : Prop where
  marks : a.marks = L.marks
  bound : a.bound = L.bindings
  nodup : L.names.Nodup
  code : Holds a.code L.emitted L.held
  waiting : Waiting a.pending L.names L.Names

namespace Assembler

variable {a : Assembler} {L : Layout}

theorem tracks_empty : ({} : Assembler).Tracks {} where
  marks := rfl
  bound := rfl
  nodup := List.nodup_nil
  code := ⟨rfl, fun hs => absurd hs (by simp)⟩
  waiting := ⟨List.nodup_nil, nofun, nofun, nofun, fun hq => absurd hq (by simp [Layout.Names])⟩

theorem Tracks.mark (h : a.Tracks L) : a.mark.Tracks L.mark where
  marks := congrArg (· + 1) h.marks
  bound := h.bound
  nodup := h.nodup
  code := h.code
  waiting := h.waiting

theorem Tracks.resolve (h : a.Tracks L) (name : String) :
    a.resolve name = fillMarks L.marks name := by
  rw [resolve_eq, h.marks]

theorem Tracks.lookup_eq_none (h : a.Tracks L) {x : String} (hx : x ∉ L.names) :
    a.bound.lookup x = none := by
  rw [h.bound]
  exact lookup_eq_none_of_not_mem hx

/-- Binding a name already bound aborts. -/
theorem Tracks.label_error (h : a.Tracks L) {name : String}
    (hx : fillMarks L.marks name ∈ L.names) :
    a.label name = .error (.message s!"label {fillMarks L.marks name} has already been linked") := by
  have hsome : (a.bound.lookup (fillMarks L.marks name)).isSome := by
    rw [lookup_isSome_iff_mem, h.bound]
    exact hx
  simp only [Assembler.label, h.resolve, hsome, if_true]

theorem any_patch_iff {P : List Patch} {j : Nat} {σ : Option Nat} :
    P.any (fun q => q.pc == j && q.slot == σ) = true ↔ (⟨j, σ⟩ : Patch) ∈ P := by
  simp only [List.any_eq_true, Bool.and_eq_true, beq_iff_eq]
  constructor
  · rintro ⟨q, hq, rfl, rfl⟩
    exact hq
  · intro h
    exact ⟨_, h, rfl, rfl⟩

/-- Binding a new name patches exactly the slots waiting for it. -/
theorem Tracks.label (h : a.Tracks L) {name : String} (hx : fillMarks L.marks name ∉ L.names) :
    ∃ a', a.label name = .ok a' ∧ a'.Tracks (L.bind name) := by
  have hnone := h.lookup_eq_none hx
  have hsize := h.code.size_eq
  have hwait := h.waiting.mem_lookup hx
  have hl : a.label name = .ok { a with
      code := ((a.pending.lookup (fillMarks L.marks name)).getD []).foldl
        (Patch.apply a.code.size) a.code
      bound := a.bound ++ [(fillMarks L.marks name, a.code.size)]
      pending := a.pending.filter (·.1 != fillMarks L.marks name) } := by
    simp only [Assembler.label, h.resolve, hnone, Option.isSome_none, Bool.false_eq_true,
      if_false]
  refine ⟨_, hl, ?_⟩
  constructor
  · exact h.marks
  · simp [Layout.bind, h.bound, hsize]
  · simpa [Layout.names, Layout.bind] using List.nodup_append.mpr
      ⟨h.nodup, by simp, fun y hy z hz hyz => hx (by simp_all)⟩
  · -- the slots naming the new label now hold its offset
    have hvalid : ∀ q ∈ (a.pending.lookup (fillMarks L.marks name)).getD [],
        ∃ s, L.emitted[q.pc]? = some s ∧ (s.nameAt q.slot).isSome := by
      intro q hq
      obtain ⟨s, hs, hσ⟩ := Option.bind_eq_some_iff.mp ((hwait q).mp hq)
      exact ⟨s, hs, by simp [hσ]⟩
    refine (h.code.foldl_apply a.code.size _ hvalid).congr fun {j s σ} hs hσ => ?_
    obtain ⟨y, hy⟩ := Option.isSome_iff_exists.mp hσ
    have hnames : L.Names ⟨j, σ⟩ y := Layout.names_eq_of_getElem? hs hy
    have hbind : (L.bind name).Names ⟨j, σ⟩ y := hnames
    rw [Layout.held_of_names hbind, Layout.held_of_names hnames]
    simp only [Layout.bind, resolveIn_append hx, hsize]
    by_cases hyx : y = fillMarks L.marks name
    · subst hyx
      rw [if_pos (any_patch_iff.mpr ((hwait _).mpr hnames)), if_pos rfl]
    · have hnot : ¬ (⟨j, σ⟩ : Patch) ∈ (a.pending.lookup (fillMarks L.marks name)).getD [] := by
        intro hmem
        have := (hwait _).mp hmem
        simp only [Layout.Names] at this hnames
        rw [hnames, Option.some.injEq] at this
        exact hyx this
      rw [if_neg (fun hany => hnot (any_patch_iff.mp hany)), if_neg hyx]
  · have hn : (L.bind name).names = L.names ++ [fillMarks L.marks name] := by
      simp [Layout.names, Layout.bind]
    rw [hn]
    exact h.waiting.bind

/-- A reference is resolved at once when its name is bound, and otherwise waits under it. -/
theorem link_eq (a : Assembler) (name : String) (σ : Option Nat) :
    a.link name σ = (resolveIn a.bound (a.resolve name),
      { a with pending := if (a.bound.lookup (a.resolve name)).isSome then a.pending
          else addPending a.pending (a.resolve name) ⟨a.code.size, σ⟩ }) := by
  unfold link
  dsimp only
  cases h : a.bound.lookup (a.resolve name) <;> simp [resolveIn, h]

theorem waiting_link {S : Patch → String → Prop} (hw : Waiting a.pending (a.bound.map Prod.fst) S)
    (name : String) (σ : Option Nat) :
    Waiting (a.link name σ).2.pending (a.bound.map Prod.fst)
      fun q y => S q y ∨ (q = ⟨a.code.size, σ⟩ ∧ y = a.resolve name) := by
  rw [link_eq]
  dsimp only
  split
  · rename_i hsome
    exact hw.add_bound (lookup_isSome_iff_mem.mp hsome) _
  · rename_i hnone
    exact hw.add_unbound (fun h => hnone (lookup_isSome_iff_mem.mpr h)) _

theorem emit_branch (a : Assembler) (i : Instr) (dst : String) :
    a.emit (.branch i dst) =
      { (a.link dst none).2 with
        code := (a.link dst none).2.code.push { i with br := (a.link dst none).1 } } := by
  simp only [emit]

/-- One entry of a jump table linked, its target collected. -/
def linkEntry (acc : List Int × Assembler) (p : String × Nat) : List Int × Assembler :=
  (acc.1 ++ [(acc.2.link p.1 (some p.2)).1], (acc.2.link p.1 (some p.2)).2)

theorem emit_switch (a : Assembler) (i : Instr) (table : List String) :
    a.emit (.switch i table) =
      { (table.zipIdx.foldl linkEntry ([], a)).2 with
        code := (table.zipIdx.foldl linkEntry ([], a)).2.code.push
          { i with sw := (table.zipIdx.foldl linkEntry ([], a)).1 } } := by
  simp only [emit]
  rfl

/-- Linking the entries of a jump table collects where each name stands and leaves each
unbound one waiting, and changes nothing else. -/
theorem foldl_linkEntry (l : List (String × Nat)) : ∀ (acc : List Int) (a : Assembler)
    {S : Patch → String → Prop}, Waiting a.pending (a.bound.map Prod.fst) S →
    (l.foldl linkEntry (acc, a)).1 =
        acc ++ l.map (fun p => resolveIn a.bound (fillMarks a.marks p.1)) ∧
      (l.foldl linkEntry (acc, a)).2 = { a with pending := (l.foldl linkEntry (acc, a)).2.pending } ∧
      Waiting (l.foldl linkEntry (acc, a)).2.pending (a.bound.map Prod.fst)
        fun q y => S q y ∨ ∃ p ∈ l, q = ⟨a.code.size, some p.2⟩ ∧ y = fillMarks a.marks p.1 := by
  induction l with
  | nil =>
    intro acc a S hw
    refine ⟨by simp, rfl, hw.congr fun q y => ?_⟩
    simp
  | cons p l ih =>
    intro acc a S hw
    have hw₁ := waiting_link hw p.1 (some p.2)
    rw [link_eq] at hw₁
    obtain ⟨h₁, h₂, h₃⟩ := ih (acc ++ [resolveIn a.bound (a.resolve p.1)]) _ hw₁
    simp only [List.foldl_cons, linkEntry, link_eq]
    refine ⟨by simpa [resolve_eq] using h₁, h₂, h₃.congr fun q y => ?_⟩
    simp only [List.mem_cons, exists_eq_or_imp, or_assoc, resolve_eq]

/-- Emitting a statement puts it in the code, with every slot of a bound name holding its
offset and every other waiting. -/
theorem Tracks.emit (h : a.Tracks L) (s : Stmt) : (a.emit s).Tracks (L.emit s) := by
  have hsize := h.code.size_eq
  -- the statements already emitted keep what their slots hold
  have hheld : ∀ {j t σ}, L.emitted[j]? = some t → (t.nameAt σ).isSome →
      L.held j σ = (L.emit s).held j σ := fun {j _ _} ht _ =>
    (Layout.held_emit_of_lt (List.getElem?_eq_some_iff.mp ht).1 _).symm
  have hnew : ∀ σ, (L.emit s).held L.emitted.length σ =
      (((s.rename (fillMarks L.marks)).nameAt σ).map (resolveIn L.bindings)).getD 0 := by
    intro σ
    simp [Layout.held, Layout.emit]
  have hpush := (h.code.congr hheld).push (s.rename (fillMarks L.marks))
  have hwait : Waiting a.pending (a.bound.map Prod.fst) L.Names := by
    rw [h.bound]
    exact h.waiting
  have hn : (L.emit s).names = a.bound.map Prod.fst := by
    rw [h.bound]
    rfl
  cases s with
  | plain i =>
    refine ⟨h.marks, h.bound, h.nodup, hpush, h.waiting.congr fun q y => ?_⟩
    rw [Layout.names_emit]
    simp [Stmt.rename, Stmt.nameAt]
  | branch i dst =>
    have hw := waiting_link hwait dst none
    rw [emit_branch]
    rw [link_eq] at hw ⊢
    refine ⟨h.marks, h.bound, h.nodup, ?_, ?_⟩
    · have hfill : ((Stmt.branch i dst).rename (fillMarks L.marks)).fill
          ((L.emit (.branch i dst)).held L.emitted.length) =
          { i with br := resolveIn a.bound (a.resolve dst) } := by
        simp [Stmt.fill, hnew, Stmt.rename, Stmt.nameAt, h.resolve, h.bound]
      rw [hfill] at hpush
      exact hpush
    · rw [hn]
      refine hw.congr fun q y => ?_
      rw [Layout.names_emit, hsize, h.resolve]
      obtain ⟨qpc, σ⟩ := q
      cases σ <;> simp [Stmt.rename, Stmt.nameAt, eq_comm]
  | switch i table =>
    obtain ⟨h₁, h₂, h₃⟩ := foldl_linkEntry table.zipIdx [] a hwait
    rw [emit_switch, h₂]
    refine ⟨h.marks, h.bound, h.nodup, ?_, ?_⟩
    · have hfill : ((Stmt.switch i table).rename (fillMarks L.marks)).fill
          ((L.emit (.switch i table)).held L.emitted.length) =
          { i with sw := (table.zipIdx.foldl linkEntry ([], a)).1 } := by
        rw [h₁]
        simp only [Stmt.fill, hnew, Stmt.rename, Stmt.nameAt, List.nil_append, h.marks, h.bound,
          Instr.mk.injEq, and_true, true_and]
        apply List.ext_getElem
        · simp
        · intro k hk₁ hk₂
          have hk : k < table.length := by simpa using hk₂
          simp [List.getElem?_eq_getElem hk]
      rw [hfill] at hpush
      exact hpush
    · rw [hn]
      refine h₃.congr fun q y => ?_
      rw [Layout.names_emit, hsize, h.marks]
      obtain ⟨qpc, σ⟩ := q
      simp only [Patch.mk.injEq]
      cases σ with
      | none => simp [Stmt.rename, Stmt.nameAt]
      | some k =>
        simp only [Stmt.rename, Stmt.nameAt, List.getElem?_map]
        constructor
        · rintro (hq | ⟨⟨x, k'⟩, hx, ⟨rfl, hk⟩, rfl⟩)
          · exact .inl hq
          · cases hk
            exact .inr ⟨rfl, by simp [List.mem_zipIdx_iff_getElem?.mp hx]⟩
        · rintro (hq | ⟨rfl, hx⟩)
          · exact .inl hq
          · obtain ⟨x, hx', rfl⟩ := Option.map_eq_some_iff.mp hx
            exact .inr ⟨(x, k), List.mem_zipIdx_iff_getElem?.mpr hx', ⟨rfl, rfl⟩, rfl⟩

end Assembler

/-! ### The whole assembly -/

namespace Assembler

variable {a : Assembler} {L : Layout}

/-- One line read by the assembler: its label bound, its mark made, its statement emitted. -/
def readLine (a : Assembler) (l : Line) : Except Abort Assembler := do
  let a ← match l.label with
    | some name => a.label name
    | none => pure a
  let a := if l.mark then a.mark else a
  return match l.stmt with
    | some s => a.emit s
    | none => a

theorem assemble_eq (ls : List Line) :
    Line.assemble ls = ls.foldlM readLine {} >>= finish := rfl

theorem Tracks.markIf (h : a.Tracks L) (mk : Bool) :
    (if mk then a.mark else a).Tracks (if mk then L.mark else L) := by
  cases mk
  · exact h
  · exact h.mark

theorem Tracks.emitIf (h : a.Tracks L) (stmt : Option Stmt) :
    (match stmt with
      | some s => a.emit s
      | none => a).Tracks (match stmt with
      | some s => L.emit s
      | none => L) := by
  cases stmt
  · exact h
  · exact h.emit _

/-- A line whose label is new is read, and the assembler follows its layout. -/
theorem Tracks.readLine (h : a.Tracks L) {l : Line}
    (hl : ∀ name, l.label = some name → fillMarks L.marks name ∉ L.names) :
    ∃ a', a.readLine l = .ok a' ∧ a'.Tracks (L.add l) := by
  obtain ⟨label, mk, stmt⟩ := l
  -- the label, then the mark, then the statement
  cases label with
  | none => exact ⟨_, rfl, (h.markIf mk).emitIf stmt⟩
  | some name =>
    obtain ⟨a₁, ha₁, h₁⟩ := h.label (hl name rfl)
    exact ⟨_, by simp only [Assembler.readLine, ha₁]; rfl, (h₁.markIf mk).emitIf stmt⟩

/-- A line binding a name already bound aborts. -/
theorem Tracks.readLine_error (h : a.Tracks L) {l : Line} {name : String}
    (hl : l.label = some name) (hx : fillMarks L.marks name ∈ L.names) :
    a.readLine l = .error (.message s!"label {fillMarks L.marks name} has already been linked") := by
  obtain ⟨label, mk, stmt⟩ := l
  simp only at hl
  subst hl
  simp only [Assembler.readLine, h.label_error hx]
  rfl

end Assembler

namespace Layout

theorem names_add (L : Layout) (l : Line) :
    (L.add l).names = L.names ++ (l.label.map (fillMarks L.marks)).toList := by
  obtain ⟨label, mk, stmt⟩ := l
  cases label <;> cases mk <;> cases stmt <;> simp [add, names, bind, mark, emit]

theorem names_foldl_add (rest : List Line) : ∀ L : Layout,
    ∃ t, (rest.foldl add L).names = L.names ++ t := by
  induction rest with
  | nil => exact fun L => ⟨[], by simp⟩
  | cons l rest ih =>
    intro L
    obtain ⟨t, ht⟩ := ih (L.add l)
    exact ⟨_, by rw [List.foldl_cons, ht, names_add, List.append_assoc]⟩

end Layout

namespace Assembler

variable {a : Assembler} {L : Layout}

/-- Reading lines from an assembler that follows their layout so far: either every label is new
and the assembler follows the whole layout, or the first label bound twice aborts. -/
theorem Tracks.run : ∀ (rest : List Line) {a : Assembler} {L : Layout}, a.Tracks L →
    (∃ a', rest.foldlM Assembler.readLine a = .ok a' ∧ a'.Tracks (rest.foldl Layout.add L)) ∨
    ∃ (j : Nat) (x : String), (rest.foldl Layout.add L).names[j]? = some x ∧
      x ∈ (rest.foldl Layout.add L).names.take j ∧ ((rest.foldl Layout.add L).names.take j).Nodup ∧
      rest.foldlM Assembler.readLine a = .error (.message s!"label {x} has already been linked")
  | [], a, L, h => .inl ⟨a, rfl, h⟩
  | l :: rest, a, L, h => by
    by_cases hdup : ∃ name, l.label = some name ∧ fillMarks L.marks name ∈ L.names
    · -- this line binds a name twice: the names so far are new, and it repeats one of them
      obtain ⟨name, hl, hx⟩ := hdup
      obtain ⟨t, ht⟩ := Layout.names_foldl_add rest (L.add l)
      rw [Layout.names_add, hl] at ht
      refine .inr ⟨L.names.length, fillMarks L.marks name, ?_, ?_, ?_, ?_⟩
      · simp [List.foldl_cons, ht]
      · simpa [List.foldl_cons, ht] using hx
      · simpa [List.foldl_cons, ht] using h.nodup
      · simp only [List.foldlM_cons, h.readLine_error hl hx]
        rfl
    · have hl : ∀ name, l.label = some name → fillMarks L.marks name ∉ L.names :=
        fun name hl hx => hdup ⟨name, hl, hx⟩
      obtain ⟨a₁, ha₁, h₁⟩ := h.readLine hl
      rcases Tracks.run rest h₁ with ⟨a', ha', h'⟩ | ⟨j, x, hj, hx, hnd, herr⟩
      · exact .inl ⟨a', by simp only [List.foldlM_cons, ha₁]; exact ha', h'⟩
      · exact .inr ⟨j, x, hj, hx, hnd, by simp only [List.foldlM_cons, ha₁]; exact herr⟩

/-- Once every name referred to is bound, every slot holds the offset of its name, as the layout's
code has it. -/
theorem Tracks.code_eq (h : a.Tracks L) (hres : ∀ x ∈ L.refs, x ∈ L.names) :
    a.code = L.code.toArray := by
  apply Array.toList_inj.mp
  apply List.ext_getElem?
  intro j
  rw [Array.getElem?_toList, List.toList_toArray, Layout.code, List.getElem?_map]
  cases hs : L.emitted[j]? with
  | none =>
    exact Array.getElem?_eq_none_iff.mpr (h.code.size_eq ▸ List.getElem?_eq_none_iff.mp hs)
  | some s =>
    rw [h.code.get hs, Option.map_some, Stmt.link_eq_fill]
    congr 1
    apply Stmt.fill_congr
    intro σ hσ
    obtain ⟨y, hy⟩ := Option.isSome_iff_exists.mp hσ
    have hname : L.Names ⟨j, σ⟩ y := Layout.names_eq_of_getElem? hs hy
    -- the name is bound, once, so looking it up finds its offset
    obtain ⟨⟨y', pc⟩, hmem, rfl⟩ := List.mem_map.mp (hres y (Layout.mem_refs.mpr ⟨_, hname⟩))
    have hlookup := lookup_eq_some_of_mem h.nodup hmem
    rw [Layout.held_of_names hname, hy]
    simp [resolveIn, hlookup]

/-- Finishing an assembler that follows a layout without repeated labels gives what the layout
prescribes. -/
theorem Tracks.finish (h : a.Tracks L) : L.Result a.finish := by
  cases hp : a.pending with
  | cons e rest =>
    -- some referenced name is still waiting
    obtain ⟨x, P⟩ := e
    have hmem : (x, P) ∈ a.pending := hp ▸ List.mem_cons_self
    rw [Assembler.finish, hp]
    exact .unresolved h.nodup (Layout.mem_refs.mpr (h.waiting.referenced hmem))
      (h.waiting.unbound hmem)
  | nil =>
    rw [Assembler.finish, hp]
    dsimp only
    have hres : ∀ x ∈ L.refs, x ∈ L.names := by
      intro x hx
      refine Decidable.byContradiction fun hn => ?_
      obtain ⟨q, hq⟩ := Layout.mem_refs.mp hx
      have := h.waiting.complete hq hn
      rw [hp] at this
      exact List.not_mem_nil this
    split
    · rename_i hany
      obtain ⟨b, hb, hge⟩ := List.any_eq_true.mp hany
      rw [h.bound] at hb
      rw [h.code.size_eq] at hge
      exact .pastEnd h.nodup hres ⟨b, hb, by simpa using hge⟩
    · rename_i hany
      have hlt : ∀ b ∈ L.bindings, b.2 < L.emitted.length := by
        intro b hb
        have := List.any_eq_false.mp (Bool.eq_false_iff.mpr hany) b (h.bound ▸ hb)
        rw [h.code.size_eq] at this
        simpa using this
      rw [h.code_eq hres]
      exact .linked h.nodup hres hlt

end Assembler

/-- Assembling lines gives what their layout prescribes: the first label bound a second time
aborts there; otherwise a name referred to, before or after its label, but never bound aborts,
and then a label after the last instruction; otherwise the program is the emitted statements in
order, each branch target and table entry the number of instructions emitted before the label
of its name. So assembling succeeds exactly when no label is bound twice, every name referred
to is bound, and every label comes before some instruction. -/
theorem assemble_resolves_labels (ls : List Line) :
    (Line.layout ls).Result (Line.assemble ls) ∧
    ((∃ p, Line.assemble ls = .ok p) ↔ (Line.layout ls).names.Nodup ∧
      (∀ x ∈ (Line.layout ls).refs, x ∈ (Line.layout ls).names) ∧
      ∀ b ∈ (Line.layout ls).bindings, b.2 < (Line.layout ls).emitted.length) := by
  have hres : (Line.layout ls).Result (Line.assemble ls) := by
    rw [Assembler.assemble_eq]
    rcases Assembler.Tracks.run ls Assembler.tracks_empty with ⟨a, ha, h⟩ | ⟨j, x, hj, hx, hnd, herr⟩
    · rw [ha]
      exact h.finish
    · rw [herr]
      exact .duplicate hj hx hnd
  exact ⟨hres, hres.ok_iff⟩

end RegisterLiveness
