import RegisterLiveness.Proofs.Faults
import RegisterLiveness.Proofs.Preconditions
import RegisterLiveness.Machine.Program

/-!
# When an analysis is refused

An analysis checks its input before any fixpoint work, and the first check that fails decides
the outcome: no operand count; a graph that does not validate; an always-live operand outside the
universe `[0, n)`, the first in the order given; and last the decoding of every instruction,
block by block in index order and, within a block, from the last instruction to the first
(`FlowGraph.decodeOrder`). Decoding an offset fails when the decoder aborts, or when the access
it reports names an operand outside the universe, the definitions checked before the uses.

`Refusal` states these outcomes on the input alone, and `prepare_eq_error_iff` proves that they
are exactly the ways the preparation fails; the verification pass never refuses a prepared
analysis, so they are also exactly the ways `Liveness.analyze` fails. On a graph that validates,
the decoding order lists every instruction once, reachable or not (`perm_decodeOrder`).
-/

namespace RegisterLiveness

/-! ### Loops whose failures depend on the element alone -/

section FirstFailure

variable {ε α β : Type} {φ : α → Option ε}

/-- A loop whose body, at each element, fails with that element's own error or else goes on,
fails exactly with the error of the first element that has one. -/
theorem forIn_eq_error_iff {body : α → β → Except ε (ForInStep β)}
    (hfail : ∀ x b e, φ x = some e → body x b = .error e)
    (hgo : ∀ x b, φ x = none → ∃ b', body x b = .ok (.yield b')) (l : List α) (b : β)
    (e : ε) : forIn l b body = .error e ↔ l.findSome? φ = some e := by
  induction l generalizing b with
  | nil => simp [pure, Except.pure]
  | cons x l ih =>
    rw [List.forIn_cons, List.findSome?_cons]
    cases hx : φ x with
    | some e' => simp [hfail x b e' hx, bind, Except.bind]
    | none =>
      obtain ⟨b', hb'⟩ := hgo x b hx
      rw [hb']
      exact ih b'

/-- A map whose function fails at an element with that element's own error fails exactly with
the error of the first element that has one. -/
theorem mapM_eq_error_iff {f : α → Except ε β} (hfail : ∀ x e, φ x = some e → f x = .error e)
    (hgo : ∀ x, φ x = none → ∃ y, f x = .ok y) (l : List α) (e : ε) :
    l.mapM f = .error e ↔ l.findSome? φ = some e := by
  induction l with
  | nil => simp [pure, Except.pure]
  | cons x l ih =>
    rw [List.mapM_cons, List.findSome?_cons]
    cases hx : φ x with
    | some e' => simp [hfail x e' hx, bind, Except.bind]
    | none =>
      obtain ⟨y, hy⟩ := hgo x hx
      rw [hy, except_ok_bind, ← ih]
      cases l.mapM f <;> simp [bind, Except.bind, pure, Except.pure]

/-- The first element of a concatenation of lists that has an error is found in the first list
that holds one. -/
theorem findSome?_flatMap {γ : Type} (g : γ → List α) (l : List γ) :
    (l.flatMap g).findSome? φ = l.findSome? fun x => (g x).findSome? φ := by
  induction l with
  | nil => rfl
  | cons x l ih =>
    rw [List.flatMap_cons, List.findSome?_append, List.findSome?_cons, ih]
    cases (g x).findSome? φ <;> rfl

/-- A computation whose errors are those of an optional error succeeds exactly when there is
none. -/
theorem exists_ok_iff_of_error_iff {x : Except ε β} {o : Option ε}
    (h : ∀ e, x = .error e ↔ o = some e) : (∃ y, x = .ok y) ↔ o = none := by
  rw [Option.eq_none_iff_forall_ne_some]
  cases x with
  | error e =>
    simp only [reduceCtorEq, exists_false, false_iff, not_forall, not_not]
    exact ⟨e, (h e).mp rfl⟩
  | ok y => simp [← h]

end FirstFailure

/-- The offsets of a graph in the order an analysis decodes them: blocks by index, each from its
last offset down to its first. -/
def FlowGraph.decodeOrder (g : FlowGraph) : List Nat := g.blocks.toList.flatMap Problem.offsetsDown

theorem Problem.mem_offsetsDown {b : Block} {pc : Nat} :
    pc ∈ offsetsDown b ↔ b.start ≤ pc ∧ pc < b.stop := by
  simp only [offsetsDown, List.mem_reverse, List.mem_range'_1, Block.size]
  omega

namespace FlowGraph

variable {g : FlowGraph}

theorem getElem_blocks_eq_block {bb : Nat} (h : bb < g.blocks.size) :
    g.blocks[bb] = g.block bb := by
  simp [block, h]

/-- An offset is decoded exactly when a block holds it. -/
theorem mem_decodeOrder {pc : Nat} : pc ∈ g.decodeOrder ↔ ∃ bb, g.Owns bb pc := by
  rw [decodeOrder, List.mem_flatMap]
  constructor
  · rintro ⟨b, hb, hpc⟩
    obtain ⟨bb, hbb, rfl⟩ := Array.mem_iff_getElem.mp (Array.mem_toList_iff.mp hb)
    rw [Problem.mem_offsetsDown, getElem_blocks_eq_block hbb] at hpc
    exact ⟨bb, hbb, hpc⟩
  · rintro ⟨bb, hbb, hpc⟩
    refine ⟨g.blocks[bb], Array.mem_toList_iff.mpr (Array.getElem_mem hbb), ?_⟩
    rwa [Problem.mem_offsetsDown, getElem_blocks_eq_block hbb]

/-- No offset is decoded twice: the blocks of a well-formed graph do not overlap. -/
theorem WellFormed.nodup_decodeOrder (wf : g.WellFormed) : g.decodeOrder.Nodup := by
  rw [decodeOrder, List.nodup_flatMap]
  refine ⟨fun b _ => ?_, List.pairwise_iff_getElem.mpr ?_⟩
  · rw [Problem.offsetsDown, List.nodup_reverse]
    exact List.nodup_range'
  · intro i j hi hj hij pc hpi hpj
    simp only [Array.length_toList] at hi hj
    simp only [Array.getElem_toList, getElem_blocks_eq_block hi, getElem_blocks_eq_block hj,
      Problem.mem_offsetsDown] at hpi hpj
    have := wf.owner_unique ⟨hi, hpi⟩ ⟨hj, hpj⟩
    omega

/-- A well-formed graph decodes every instruction exactly once, whether or not a path from the
entry reaches it. -/
theorem WellFormed.perm_decodeOrder (wf : g.WellFormed) :
    g.decodeOrder.Perm (List.range g.instrCount) := by
  rw [List.perm_ext_iff_of_nodup wf.nodup_decodeOrder List.nodup_range]
  intro pc
  rw [mem_decodeOrder, List.mem_range]
  constructor
  · rintro ⟨bb, hbb, -, hlt⟩
    exact Nat.lt_of_lt_of_le hlt (wf.stop_le bb hbb)
  · exact wf.covered pc

end FlowGraph

/-! ### Checking the operands of one access -/

/-- Every operand the access defines or uses lies in the universe `[0, n)`. -/
def Access.InRange (a : Access) (n : Nat) : Prop := ∀ r ∈ a.defs ++ a.uses, 0 ≤ r ∧ r < n

namespace Problem

/-- The error reported for operand `r` under the note `note`, if it lies outside `[0, n)`. -/
def outsideError (n : Nat) (note : String) (r : Int) : Option Error :=
  if 0 ≤ r ∧ r < n then none else some (.context note (.outOfRange "operand" r n))

/-- The error checking access `a` at offset `pc` reports, if any: its first definition outside
the universe, else its first use outside it. -/
def rangeError? (n pc : Nat) (a : Access) : Option Error :=
  (a.defs.findSome? (outsideError n s!"definition at instruction {pc}")).or
    (a.uses.findSome? (outsideError n s!"usage at instruction {pc}"))

theorem rangeError?_eq_none_iff {n pc : Nat} {a : Access} :
    rangeError? n pc a = none ↔ a.InRange n := by
  simp only [rangeError?, Option.or_eq_none_iff, List.findSome?_eq_none_iff, outsideError,
    ite_eq_left_iff, reduceCtorEq, imp_false, not_not, Access.InRange, List.mem_append, or_imp,
    forall_and]
  tauto

/-- Checking operands one by one fails with the error of the first one outside the universe. -/
theorem mapM_operand_eq_error_iff (n : Nat) (note : String) (l : List Int) (e : Error) :
    l.mapM (fun r => (operand n r).mapError (.context note)) = .error e ↔
      l.findSome? (outsideError n note) = some e := by
  apply mapM_eq_error_iff
  · intro r e' h
    by_cases hr : 0 ≤ r ∧ r < n
    · simp [outsideError, hr] at h
    · simp only [outsideError, hr, if_false, Option.some.injEq] at h
      have : ¬ (0 ≤ r ∧ r.toNat < n) := by omega
      simp [operand, this, Except.mapError, h]
  · intro r h
    have hr : 0 ≤ r ∧ r.toNat < n := by
      simp only [outsideError, ite_eq_left_iff, reduceCtorEq, imp_false, not_not] at h
      omega
    simp [operand, hr, Except.mapError]

/-- Checking an access fails exactly with the error `rangeError?` reports. -/
theorem checkAccess_eq_error_iff {n pc : Nat} {a : Access} {e : Error} :
    checkAccess n pc a = .error e ↔ rangeError? n pc a = some e := by
  have hd := mapM_operand_eq_error_iff n s!"definition at instruction {pc}" a.defs
  have hu := mapM_operand_eq_error_iff n s!"usage at instruction {pc}" a.uses
  rw [checkAccess, except_bind_eq_error, rangeError?, Option.or_eq_some_iff, hd,
    ← exists_ok_iff_of_error_iff hd]
  constructor
  · rintro (h | ⟨ds, hds, h⟩)
    · exact .inl h
    · rcases except_bind_eq_error.mp h with h | ⟨us, -, h⟩
      · exact .inr ⟨⟨ds, hds⟩, (hu e).mp h⟩
      · cases h
  · rintro (h | ⟨⟨ds, hds⟩, h⟩)
    · exact .inl h
    · exact .inr ⟨ds, hds, except_bind_eq_error.mpr (.inl ((hu e).mpr h))⟩

/-- How decoding offset `pc` fails an analysis over the universe `[0, n)`, if it does: the
decoder aborts, or the access it reports names an operand outside the universe. -/
def decodeFault? (d : Decoder) (n pc : Nat) : Option Failure :=
  match d pc with
  | .error a => some (.abort a)
  | .ok a => (rangeError? n pc a).map fun e => .error (.context "liveness" e)

variable {n : Nat} {al : OperandSet n} {d : Decoder}

theorem decodeFault?_eq_none_iff {pc : Nat} :
    decodeFault? d n pc = none ↔ ∃ a, d pc = .ok a ∧ a.InRange n := by
  cases h : d pc with
  | error a => simp [decodeFault?, h]
  | ok a => simp [decodeFault?, h, rangeError?_eq_none_iff]

/-- Decoding an offset fails with an error, and not by aborting, exactly when the decoder reports
an operand outside the universe there. -/
theorem exists_decodeFault?_eq_error_iff {pc : Nat} :
    (∃ e, decodeFault? d n pc = some (.error e)) ↔ ∃ a, d pc = .ok a ∧ ¬ a.InRange n := by
  cases h : d pc with
  | error a => simp [decodeFault?, h]
  | ok a =>
    have hiff := @rangeError?_eq_none_iff n pc a
    cases hr : rangeError? n pc a with
    | none => simp [decodeFault?, h, hr, hiff.mp hr]
    | some e =>
      have hout : ¬ a.InRange n := fun hin => by simp [hiff.mpr hin] at hr
      simp [decodeFault?, h, hr, hout]

/-- An error of decoding is, under its notes, an operand out of range. -/
theorem root_of_decodeFault?_eq_error {pc : Nat} {e : Error}
    (h : decodeFault? d n pc = some (.error e)) :
    ∃ r : Int, e.root = .outOfRange "operand" r n := by
  unfold decodeFault? at h
  split at h
  · cases h
  · obtain ⟨e', he', heq⟩ := Option.map_eq_some_iff.mp h
    cases heq
    rcases Option.or_eq_some_iff.mp he' with he' | ⟨-, he'⟩ <;>
    · obtain ⟨_, r, _, -, hr, -⟩ := List.findSome?_eq_some_iff.mp he'
      unfold outsideError at hr
      split at hr
      · cases hr
      · cases hr
        exact ⟨r, rfl⟩

/-- Summarizing a block fails exactly at its first offset whose decoding fails. -/
theorem summarize_eq_error_iff (pcs : List Nat) (acc : Array (Effect n) × Summary n)
    (f : Failure) :
    summarize n al d pcs acc = .error f ↔ pcs.findSome? (decodeFault? d n) = some f := by
  induction pcs generalizing acc with
  | nil => simp [summarize]
  | cons pc pcs ih =>
    obtain ⟨effects, s⟩ := acc
    rw [List.findSome?_cons]
    cases hd : d pc with
    | error a => simp [summarize, decodeFault?, hd, Failure.ofAbort, bind, Except.bind]
    | ok a =>
      cases hc : checkAccess n pc a with
      | error e =>
        simp [summarize, decodeFault?, hd, hc, checkAccess_eq_error_iff.mp hc, Failure.ofAbort,
          Failure.ofError, Except.mapError, bind, Except.bind]
      | ok eff =>
        have hnone : rangeError? n pc a = none :=
          (exists_ok_iff_of_error_iff fun _ => checkAccess_eq_error_iff).mp ⟨eff, hc⟩
        simp only [summarize, decodeFault?, hd, hc, hnone, Failure.ofAbort, Failure.ofError,
          Except.mapError, Option.map_none, except_ok_bind]
        exact ih _

/-- The error an always-live operand `r` is refused with, if it lies outside `[0, n)`. -/
def alwaysLiveFault (n r : Nat) : Option Failure :=
  if r < n then none
  else some (.error (.context "liveness" (.outOfRange "always-live operand" r n)))

/-- The operand `alwaysLiveFault` finds first lies outside the universe, after operands that all
lie inside it. -/
theorem findSome?_alwaysLiveFault_eq_some {l : List Nat} {f : Failure}
    (h : l.findSome? (alwaysLiveFault n) = some f) :
    ∃ pre r post, l = pre ++ r :: post ∧ (∀ q ∈ pre, q < n) ∧ n ≤ r ∧
      f = .error (.context "liveness" (.outOfRange "always-live operand" r n)) := by
  obtain ⟨pre, r, post, hl, hr, hpre⟩ := List.findSome?_eq_some_iff.mp h
  have hnr : n ≤ r := by
    by_contra hlt
    simp [alwaysLiveFault, Nat.lt_of_not_le hlt] at hr
  simp only [alwaysLiveFault, Nat.not_lt.mpr hnr, if_false, Option.some.injEq] at hr
  refine ⟨pre, r, post, hl, fun q hq => ?_, hnr, hr.symm⟩
  simpa [alwaysLiveFault] using hpre q hq

/-- Collecting the always-live operands fails exactly with the first one outside the universe. -/
theorem forIn_alwaysLive_eq_error_iff (l : List Nat) (al : OperandSet n) (f : Failure) :
    (forIn l al fun r al =>
      if h : r < n then pure (ForInStep.yield (al.insert ⟨r, h⟩))
      else do
        throw (Failure.error (.context "liveness" (.outOfRange "always-live operand" r n)))
        pure (ForInStep.yield al) : Except Failure (OperandSet n)) = .error f ↔
      l.findSome? (alwaysLiveFault n) = some f := by
  apply forIn_eq_error_iff
  · intro r al e h
    by_cases hr : r < n
    · simp [alwaysLiveFault, hr] at h
    · simp only [alwaysLiveFault, hr, if_false, Option.some.injEq] at h
      simp [hr, h, throw, throwThe, MonadExceptOf.throw, bind, Except.bind]
  · intro r al h
    have hr : r < n := by simpa [alwaysLiveFault] using h
    exact ⟨al.insert ⟨r, hr⟩, by simp [hr, pure, Except.pure]⟩

/-- Summarizing blocks one after the other fails exactly at the first offset, blocks taken in
order and each from its last offset down, whose decoding fails. -/
theorem forIn_blocks_eq_error_iff (bs : List Block) (init : Array (Effect n) × Array (Summary n))
    (f : Failure) :
    (forIn bs init fun b st => do
      let x ← summarize n al d (offsetsDown b) (st.1, Summary.id)
      pure (ForInStep.yield (x.1, st.2.push x.2)) : Except Failure _) = .error f ↔
      (bs.flatMap offsetsDown).findSome? (decodeFault? d n) = some f := by
  rw [findSome?_flatMap]
  apply forIn_eq_error_iff
  · intro b st e h
    rw [except_bind_eq_error]
    exact .inl ((summarize_eq_error_iff _ _ e).mpr h)
  · intro b st h
    have hsum := @summarize_eq_error_iff n al d (offsetsDown b) (st.1, .id)
    obtain ⟨⟨es, s⟩, hs⟩ := (exists_ok_iff_of_error_iff hsum).mpr h
    exact ⟨_, by rw [hs]; rfl⟩

/-- With an operand count and a graph that validates, preparation fails exactly with the first
always-live operand outside the universe or, when there is none, with the first failure of
decoding, in decoding order. -/
theorem prepare_eq_error_iff_of_valid {rg : RawGraph} {o : Options} {g : FlowGraph}
    (hn : o.operandCount = some n) (hv : rg.validate = .ok g) (f : Failure) :
    prepare rg d o = .error f ↔
      ((o.alwaysLive.findSome? (alwaysLiveFault n)).or
        (g.decodeOrder.findSome? (decodeFault? d n))) = some f := by
  have hal := forIn_alwaysLive_eq_error_iff o.alwaysLive (.empty : OperandSet n)
  simp only [prepare, hn, hv, Failure.ofError, Except.mapError, except_ok_bind]
  rw [except_bind_eq_error, Option.or_eq_some_iff, hal, ← exists_ok_iff_of_error_iff hal]
  constructor
  · rintro (h | ⟨al, hal, h⟩)
    · exact .inl h
    · refine .inr ⟨⟨al, hal⟩, ?_⟩
      rcases except_bind_eq_error.mp h with h | ⟨_, -, h⟩
      · rw [← Array.forIn_toList, forIn_blocks_eq_error_iff] at h
        exact h
      · cases h
  · rintro (h | ⟨⟨al, hal⟩, h⟩)
    · exact .inl h
    · refine .inr ⟨al, hal, except_bind_eq_error.mpr (.inl ?_)⟩
      rw [← Array.forIn_toList, forIn_blocks_eq_error_iff]
      exact h

end Problem

/-! ### The refusals of an analysis -/

/-- The ways an analysis of the graph `rg`, with decoder `d` and options `o`, is refused, each
with what it reports; each case holds only when the checks before it pass. -/
inductive Refusal (rg : RawGraph) (d : Decoder) (o : Options) : Failure → Prop
  /-- No operand count was given. -/
  | unsized : o.operandCount = none →
      Refusal rg d o (.error (.plain "liveness: operand count is not specified"))
  /-- The graph does not validate: its report, under the note `liveness`. -/
  | malformed {n : Nat} {e : Error} : o.operandCount = some n → rg.validate = .error e →
      Refusal rg d o (.error (.context "liveness" e))
  /-- The first always-live operand, in the order given, that lies outside the universe. -/
  | alwaysLive {n r : Nat} {g : FlowGraph} {pre post : List Nat} : o.operandCount = some n →
      rg.validate = .ok g → o.alwaysLive = pre ++ r :: post → (∀ q ∈ pre, q < n) → n ≤ r →
      Refusal rg d o (.error (.context "liveness" (.outOfRange "always-live operand" r n)))
  /-- The first offset, in decoding order, whose decoding fails. -/
  | decode {n pc : Nat} {g : FlowGraph} {pre post : List Nat} {f : Failure} :
      o.operandCount = some n → rg.validate = .ok g → (∀ r ∈ o.alwaysLive, r < n) →
      g.decodeOrder = pre ++ pc :: post → (∀ q ∈ pre, Problem.decodeFault? d n q = none) →
      Problem.decodeFault? d n pc = some f → Refusal rg d o f

variable {rg : RawGraph} {d : Decoder} {o : Options}

/-- Preparing an analysis fails exactly in the ways `Refusal` lists. -/
theorem prepare_eq_error_iff {f : Failure} :
    Problem.prepare rg d o = .error f ↔ Refusal rg d o f := by
  constructor
  · intro h
    cases hn : o.operandCount with
    | none =>
      simp [Problem.prepare, hn, throw, throwThe, MonadExceptOf.throw] at h
      subst h
      exact .unsized hn
    | some n =>
      cases hv : rg.validate with
      | error e =>
        simp [Problem.prepare, hn, hv, Failure.ofError, Except.mapError, bind, Except.bind] at h
        subst h
        exact .malformed hn hv
      | ok g =>
        rcases Option.or_eq_some_iff.mp ((Problem.prepare_eq_error_iff_of_valid hn hv f).mp h)
          with h | ⟨hnone, h⟩
        · obtain ⟨pre, r, post, hl, hpre, hnr, rfl⟩ :=
            Problem.findSome?_alwaysLiveFault_eq_some h
          exact .alwaysLive hn hv hl hpre hnr
        · obtain ⟨pre, pc, post, hl, hpc, hpre⟩ := List.findSome?_eq_some_iff.mp h
          refine .decode hn hv (fun r hr => ?_) hl hpre hpc
          simpa [Problem.alwaysLiveFault] using List.findSome?_eq_none_iff.mp hnone r hr
  · intro h
    cases h with
    | unsized hn => simp [Problem.prepare, hn, throw, throwThe, MonadExceptOf.throw]
    | malformed hn hv =>
      simp [Problem.prepare, hn, hv, Failure.ofError, Except.mapError, bind, Except.bind]
    | alwaysLive hn hv hl hpre hr =>
      rw [Problem.prepare_eq_error_iff_of_valid hn hv, Option.or_eq_some_iff]
      refine .inl (List.findSome?_eq_some_iff.mpr ⟨_, _, _, hl, ?_, fun q hq => by
        simp [Problem.alwaysLiveFault, hpre q hq]⟩)
      simp [Problem.alwaysLiveFault, Nat.not_lt.mpr hr]
    | decode hn hv hal hl hpre hpc =>
      rw [Problem.prepare_eq_error_iff_of_valid hn hv, Option.or_eq_some_iff]
      refine .inr ⟨List.findSome?_eq_none_iff.mpr fun r hr => ?_,
        List.findSome?_eq_some_iff.mpr ⟨_, _, _, hl, hpc, hpre⟩⟩
      simp [Problem.alwaysLiveFault, hal r hr]

/-- The analysis fails exactly where its preparation does: the verification pass never refuses
a prepared analysis. -/
theorem analyze_eq_error_iff {f : Failure} :
    Liveness.analyze rg d o = .error f ↔ Problem.prepare rg d o = .error f := by
  cases hp : Problem.prepare rg d o with
  | error f' => simp [Liveness.analyze, Liveness.analyzeWith, hp, bind, Except.bind]
  | ok p => simp [Liveness.analyze_eq_ok_of_prepare hp]

/-! ### Which inputs are refused with an error -/

/-- Decoding the offsets of `g` in the analysis's order, the first offset at which the decoder
aborts or reports an operand outside `[0, n)` reports such an operand. -/
def FlowGraph.FirstDecodeOutside (g : FlowGraph) (d : Decoder) (n : Nat) : Prop :=
  ∃ pre pc post a, g.decodeOrder = pre ++ pc :: post ∧
    (∀ q ∈ pre, ∃ a, d q = .ok a ∧ a.InRange n) ∧ d pc = .ok a ∧ ¬ a.InRange n

/-- For a decoder that never aborts on the instructions, the first offset that fails has an
operand outside the universe as soon as any offset has one. -/
theorem FlowGraph.WellFormed.firstDecodeOutside_iff {g : FlowGraph} {n : Nat}
    (wf : g.WellFormed) (htot : ∀ pc < g.instrCount, ∃ a, d pc = .ok a) :
    g.FirstDecodeOutside d n ↔ ∃ pc < g.instrCount, ∃ a, d pc = .ok a ∧ ¬ a.InRange n := by
  have hmem : ∀ pc, pc ∈ g.decodeOrder ↔ pc < g.instrCount := fun pc =>
    wf.perm_decodeOrder.mem_iff.trans List.mem_range
  constructor
  · rintro ⟨pre, pc, post, a, hl, -, hd, hout⟩
    exact ⟨pc, (hmem pc).mp (by simp [hl]), a, hd, hout⟩
  · rintro ⟨pc, hpc, a, hd, hout⟩
    -- some offset fails, so decoding has a first failure, and it is not an abort
    have hsome : g.decodeOrder.findSome? (Problem.decodeFault? d n) ≠ none := by
      rw [Ne, List.findSome?_eq_none_iff]
      intro hall
      obtain ⟨a', hd', hin⟩ :=
        Problem.decodeFault?_eq_none_iff.mp (hall pc ((hmem pc).mpr hpc))
      rw [hd] at hd'
      cases hd'
      exact hout hin
    obtain ⟨f, hf⟩ := Option.ne_none_iff_exists'.mp hsome
    obtain ⟨pre, q, post, hl, hq, hpre⟩ := List.findSome?_eq_some_iff.mp hf
    obtain ⟨a', hq'⟩ := htot q ((hmem q).mp (by simp [hl]))
    refine ⟨pre, q, post, a', hl, fun q' hq'' => ?_, hq', fun hin => ?_⟩
    · exact Problem.decodeFault?_eq_none_iff.mp (hpre q' hq'')
    · simp [Problem.decodeFault?, hq', Problem.rangeError?_eq_none_iff.mpr hin] at hq

/-- Some check of an analysis's input fails with an error: no operand count is given, the graph
does not validate, an always-live operand lies outside the universe, or the graph validates and
the first offset whose decoding fails has an operand outside the universe. -/
def Rejected (rg : RawGraph) (d : Decoder) (o : Options) : Prop :=
  o.operandCount = none ∨ (∃ e, rg.validate = .error e) ∨
    (∃ n, o.operandCount = some n ∧ ∃ r ∈ o.alwaysLive, n ≤ r) ∨
    ∃ n g, o.operandCount = some n ∧ rg.validate = .ok g ∧ g.FirstDecodeOutside d n

theorem refusal_of_alwaysLive_outside {n : Nat} {g : FlowGraph} (hn : o.operandCount = some n)
    (hv : rg.validate = .ok g) (h : ∃ r ∈ o.alwaysLive, n ≤ r) :
    ∃ e, Refusal rg d o (.error e) := by
  obtain ⟨r, hr, hnr⟩ := h
  have hsome : o.alwaysLive.findSome? (Problem.alwaysLiveFault n) ≠ none := by
    rw [Ne, List.findSome?_eq_none_iff]
    intro hall
    simpa [Problem.alwaysLiveFault, Nat.not_lt.mpr hnr] using hall r hr
  obtain ⟨f, hf⟩ := Option.ne_none_iff_exists'.mp hsome
  obtain ⟨pre, r', post, hl, hpre, hr', rfl⟩ := Problem.findSome?_alwaysLiveFault_eq_some hf
  exact ⟨_, .alwaysLive hn hv hl hpre hr'⟩

/-- The analysis is refused with an error, and not by an abort, exactly on the inputs some check
rejects. -/
theorem exists_refusal_error_iff : (∃ e, Refusal rg d o (.error e)) ↔ Rejected rg d o := by
  constructor
  · rintro ⟨e, h⟩
    cases h with
    | unsized hn => exact .inl hn
    | malformed _ hv => exact .inr (.inl ⟨_, hv⟩)
    | alwaysLive hn _ hl _ hr => exact .inr (.inr (.inl ⟨_, hn, _, by simp [hl], hr⟩))
    | decode hn hv _ hl hpre hpc =>
      obtain ⟨a, hd, hout⟩ := Problem.exists_decodeFault?_eq_error_iff.mp ⟨_, hpc⟩
      refine .inr (.inr (.inr ⟨_, _, hn, hv, _, _, _, a, hl, fun q hq => ?_, hd, hout⟩))
      exact Problem.decodeFault?_eq_none_iff.mp (hpre q hq)
  · rintro (hn | ⟨e, hv⟩ | ⟨n, hn, hout⟩ | ⟨n, g, hn, hv, pre, pc, post, a, hl, hpre, hd, hout⟩)
    · exact ⟨_, .unsized hn⟩
    · cases hn : o.operandCount with
      | none => exact ⟨_, .unsized hn⟩
      | some n => exact ⟨_, .malformed hn hv⟩
    · cases hv : rg.validate with
      | error e => exact ⟨_, .malformed hn hv⟩
      | ok g => exact refusal_of_alwaysLive_outside hn hv hout
    · by_cases hal : ∀ r ∈ o.alwaysLive, r < n
      · obtain ⟨e, he⟩ := Problem.exists_decodeFault?_eq_error_iff.mpr ⟨a, hd, hout⟩
        refine ⟨e, .decode hn hv hal hl (fun q hq => ?_) he⟩
        exact Problem.decodeFault?_eq_none_iff.mpr (hpre q hq)
      · push Not at hal
        exact refusal_of_alwaysLive_outside hn hv hal

@[simp] theorem Error.isInvalidGraph_context (note : String) (e : Error) :
    (Error.context note e).isInvalidGraph = e.isInvalidGraph := rfl

@[simp] theorem Error.isOutOfRange_context (note : String) (e : Error) :
    (Error.context note e).isOutOfRange = e.isOutOfRange := rfl

theorem Error.isOutOfRange_eq_false_of_isInvalidGraph {e : Error}
    (h : e.isInvalidGraph = true) : e.isOutOfRange = false := by
  unfold isInvalidGraph at h
  unfold isOutOfRange
  split at h
  · rename_i heq
    simp [heq]
  · cases h

/-- A refusal reports a malformed graph exactly when the graph does not validate, and an index
out of range exactly when it validates: the operand count is checked before either. -/
theorem Refusal.kind {e : Error} (h : Refusal rg d o (.error e)) :
    (e.isInvalidGraph = true ↔ (∃ n, o.operandCount = some n) ∧ ∃ ge, rg.validate = .error ge) ∧
      (e.isOutOfRange = true ↔ (∃ n, o.operandCount = some n) ∧ ∃ g, rg.validate = .ok g) := by
  cases h with
  | unsized hn => simp [Error.isInvalidGraph, Error.isOutOfRange, Error.root, hn]
  | malformed hn hv =>
    have hk := (Cfg.fault_of_validate_eq_error hv).isInvalidGraph
    simp [hk, Error.isOutOfRange_eq_false_of_isInvalidGraph hk, hn, hv]
  | alwaysLive hn hv => simp [Error.isInvalidGraph, Error.isOutOfRange, Error.root, hn, hv]
  | decode hn hv _ _ _ hpc =>
    obtain ⟨r, hr⟩ := Problem.root_of_decodeFault?_eq_error hpc
    simp [Error.isInvalidGraph, Error.isOutOfRange, hr, hn, hv]

/-! ### The engine's totals -/

/-- An analysis that fails leaves the engine's totals as they were. -/
theorem run_analyzeCounting_of_error {f : Failure} (h : Liveness.analyze rg d o = .error f)
    (s : EngineStats) : (Liveness.analyzeCounting rg d o).run s = .error f s := by
  cases hp : Problem.prepare rg d o with
  | error f' =>
    rw [Liveness.analyze, Liveness.analyzeWith, hp] at h
    cases h
    simp only [Liveness.analyzeCounting, hp, liftExcept]
    rfl
  | ok p => simp [Liveness.analyze_eq_ok_of_prepare hp] at h

/-- An analysis that succeeds adds one analysis, its sweeps and its block updates to the totals. -/
theorem run_analyzeCounting_of_ok {lv : Liveness} (h : Liveness.analyze rg d o = .ok lv)
    (s : EngineStats) : (Liveness.analyzeCounting rg d o).run s = .ok lv (s.record lv) := by
  cases hp : Problem.prepare rg d o with
  | error f' => simp [Liveness.analyze, Liveness.analyzeWith, hp, bind, Except.bind] at h
  | ok p =>
    have han := Liveness.analyze_eq_ok_of_prepare hp
    rw [han] at h
    cases h
    -- the verification pass, when asked for, passed: the analysis succeeded
    have hcheck : p.verify = true → p.check p.solve = .ok () := by
      intro hv
      cases hc : p.check p.solve with
      | error a =>
        rw [Problem.solve] at hc
        simp [Liveness.analyze, Liveness.analyzeWith, hp, hv, hc, Failure.ofAbort, bind,
          Except.bind] at han
      | ok u => rfl
    cases hv : p.verify
    · simp only [Liveness.analyzeCounting, hp, liftExcept, pure_bind, hv]
      rfl
    · simp only [Liveness.analyzeCounting, hp, liftExcept, pure_bind, hv, hcheck hv,
        Failure.ofAbort]
      rfl

/-! ### The refusals of an analysis, assembled -/

/-- An analysis fails exactly at the first of its checks that fails, in the order: operand count,
graph, always-live operands in the order given, then every instruction in decoding order, where
decoding may abort. It is refused with an error exactly when the check that decides is not an
abort, reports a malformed graph exactly when the graph does not validate and an index out of
range exactly when it does; every instruction of a graph that validates is decoded, once, and a
decoder that never aborts is refused exactly when some instruction has an operand outside the
universe. The engine's totals count an analysis only when it succeeds. -/
theorem analyze_fails_at_first_failed_check (rg : RawGraph) (d : Decoder) (o : Options) :
    (∀ f, Liveness.analyze rg d o = .error f ↔ Refusal rg d o f) ∧
      ((∃ e, Liveness.analyze rg d o = .error (.error e)) ↔ Rejected rg d o) ∧
      (∀ e, Liveness.analyze rg d o = .error (.error e) →
        (e.isInvalidGraph = true ↔
          (∃ n, o.operandCount = some n) ∧ ∃ ge, rg.validate = .error ge) ∧
        (e.isOutOfRange = true ↔ (∃ n, o.operandCount = some n) ∧ ∃ g, rg.validate = .ok g)) ∧
      (∀ g, rg.validate = .ok g → g.decodeOrder.Perm (List.range g.instrCount) ∧
        ∀ n, (∀ pc < g.instrCount, ∃ a, d pc = .ok a) →
          (g.FirstDecodeOutside d n ↔ ∃ pc < g.instrCount, ∃ a, d pc = .ok a ∧ ¬ a.InRange n)) ∧
      (∀ s f s', (Liveness.analyzeCounting rg d o).run s = .error f s' → s' = s) ∧
      (∀ s lv s', (Liveness.analyzeCounting rg d o).run s = .ok lv s' →
        Liveness.analyze rg d o = .ok lv ∧ s' = s.record lv) := by
  have hrefusal : ∀ f, Liveness.analyze rg d o = .error f ↔ Refusal rg d o f := fun f =>
    analyze_eq_error_iff.trans prepare_eq_error_iff
  refine ⟨hrefusal, ?_, fun e h => ((hrefusal _).mp h).kind, fun g hv => ?_, ?_, ?_⟩
  · simp only [hrefusal]
    exact exists_refusal_error_iff
  · have wf := Cfg.validate_wellFormed hv
    exact ⟨wf.perm_decodeOrder, fun n htot => wf.firstDecodeOutside_iff htot⟩
  · intro s f s' h
    cases han : Liveness.analyze rg d o with
    | error f' =>
      rw [run_analyzeCounting_of_error han] at h
      cases h
      rfl
    | ok lv => simp [run_analyzeCounting_of_ok han] at h
  · intro s lv s' h
    cases han : Liveness.analyze rg d o with
    | error f => simp [run_analyzeCounting_of_error han] at h
    | ok lv' =>
      rw [run_analyzeCounting_of_ok han] at h
      cases h
      exact ⟨rfl, rfl⟩

/-- The program `mov %r9, %r0` followed by an instruction of unknown opcode `0x10`. -/
def movThenUnknown : Program := ⟨#[{ op := 2, rx := 9, ry := 0 }, { op := 16 }]⟩

/-- The one block that holds both instructions of `movThenUnknown`. -/
def movThenUnknownGraph : RawGraph := ⟨#[⟨0, 2, [], []⟩], 2⟩

/-- An operand outside the universe does not make the analysis return an error when decoding
aborts at an offset decoded before it: the block is decoded from its last instruction, whose
opcode is unknown. -/
theorem analyze_aborts_before_outside_operand :
    (∃ a, movThenUnknown.access 0 = .ok a ∧ ¬ a.InRange 2) ∧
      Liveness.analyze movThenUnknownGraph movThenUnknown.access { operandCount := some 2 } =
        .error (.abort (.message "invalid OpCode: 0x10")) := by
  refine ⟨⟨⟨[0], [9]⟩, rfl, fun h => ?_⟩, ?_⟩
  · have := h 9 (by simp)
    omega
  · cbv

end RegisterLiveness
