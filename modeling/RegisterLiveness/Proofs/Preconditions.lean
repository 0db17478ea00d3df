import RegisterLiveness.Proofs.Paths

/-!
# What a successful analysis had to begin with

`Problem.prepare` checks its input before any fixpoint work, and each check either passes or
ends the analysis. So an analysis that succeeds had a graph that validates, an operand count,
always-live operands inside the universe, and a decoder that decodes every instruction into the
universe: exactly the preconditions of `Problem.analyze_solved`. Every successful analysis is
therefore converged (`Liveness.solved_of_analyze_eq_ok`), and what is proved of converged
analyses holds of every result the analysis returns.
-/

namespace RegisterLiveness

/-! ### Loops and checks that succeeded -/

/-- A list traversal that succeeded applied its function successfully to every element. -/
theorem mapM_eq_ok_forall {ε α β : Type} {f : α → Except ε β} {l : List α} {l' : List β}
    (h : l.mapM f = .ok l') : ∀ x ∈ l, ∃ y, f x = .ok y := by
  induction l generalizing l' with
  | nil => simp
  | cons x l ih =>
    rw [List.mapM_cons] at h
    obtain ⟨y, hy, h⟩ := except_bind_eq_ok.mp h
    obtain ⟨ys, hys, -⟩ := except_bind_eq_ok.mp h
    intro z hz
    rcases List.mem_cons.mp hz with rfl | hz
    · exact ⟨y, hy⟩
    · exact ih hys z hz

/-- A loop whose body never stops it early, and that succeeded, ran its body successfully at
every element. -/
theorem forIn_eq_ok_forall {ε α β : Type} {l : List α} {init r : β}
    {f : α → β → Except ε (ForInStep β)}
    (hy : ∀ x b s, f x b = .ok s → ∃ b', s = .yield b') (h : forIn l init f = .ok r) :
    ∀ x ∈ l, ∃ b b', f x b = .ok (.yield b') := by
  induction l generalizing init with
  | nil => simp
  | cons x l ih =>
    rw [List.forIn_cons] at h
    obtain ⟨s, hs, h⟩ := except_bind_eq_ok.mp h
    obtain ⟨b', rfl⟩ := hy x init s hs
    intro z hz
    rcases List.mem_cons.mp hz with rfl | hz
    · exact ⟨init, b', hs⟩
    · exact ih h z hz

namespace Problem

variable {n : Nat}

theorem range_of_operand_eq_ok {r : Int} {x : Fin n} (h : operand n r = .ok x) :
    0 ≤ r ∧ r < n := by
  unfold operand at h
  split at h
  · omega
  · cases h

/-- A checked access names only operands of the universe. -/
theorem range_of_checkAccess {pc : Nat} {a : Access} {e : Effect n}
    (h : checkAccess n pc a = .ok e) : ∀ r ∈ a.defs ++ a.uses, 0 ≤ r ∧ r < n := by
  simp only [checkAccess] at h
  obtain ⟨defs, hd, h⟩ := except_bind_eq_ok.mp h
  obtain ⟨uses, hu, -⟩ := except_bind_eq_ok.mp h
  -- each operand passed its own check, whatever note an error would have carried
  have hop : ∀ {f : Error → Error} {l : List Int} {l' : List (Fin n)},
      l.mapM (fun r => (operand n r).mapError f) = .ok l' → ∀ r ∈ l, 0 ≤ r ∧ r < n := by
    intro f l l' hl r hr
    obtain ⟨x, hx⟩ := mapM_eq_ok_forall hl r hr
    cases hop : operand n r with
    | ok x => exact range_of_operand_eq_ok hop
    | error err => simp [hop, Except.mapError] at hx
  intro r hr
  rcases List.mem_append.mp hr with hr | hr
  · exact hop hd r hr
  · exact hop hu r hr

/-- Summarizing offsets succeeded only if each of them decoded into the universe. -/
theorem decodes_of_summarize_eq_ok {al : OperandSet n} {d : Decoder} {pcs : List Nat}
    {acc res : Array (Effect n) × Summary n} (h : summarize n al d pcs acc = .ok res) :
    ∀ pc ∈ pcs, ∃ a, d pc = .ok a ∧ ∀ r ∈ a.defs ++ a.uses, 0 ≤ r ∧ r < n := by
  induction pcs generalizing acc with
  | nil => simp
  | cons pc pcs ih =>
    obtain ⟨effects, s⟩ := acc
    simp only [summarize] at h
    obtain ⟨a, ha, h⟩ := except_bind_eq_ok.mp h
    obtain ⟨e, he, h⟩ := except_bind_eq_ok.mp h
    have hd : d pc = .ok a := by
      cases hpc : d pc with
      | ok a' => simp only [hpc, Failure.ofAbort, Except.ok.injEq] at ha; rw [ha]
      | error err => simp [hpc, Failure.ofAbort] at ha
    have hc : checkAccess n pc a = .ok e := by
      cases hpc : checkAccess n pc a with
      | ok e' => simp only [hpc, Failure.ofError, Except.mapError, Except.ok.injEq] at he; rw [he]
      | error err => simp [hpc, Failure.ofError, Except.mapError] at he
    intro q hq
    rcases List.mem_cons.mp hq with rfl | hq
    · exact ⟨a, hd, range_of_checkAccess hc⟩
    · exact ih h q hq

/-- The graph a prepared problem carries is well formed. -/
theorem Prepared.graph_wellFormed {p : Problem} {g : FlowGraph} {d : Decoder}
    (hp : p.Prepared g d) : p.graph.WellFormed :=
  hp.graph_eq ▸ hp.wellFormed

/-- A preparation that succeeded had a graph that validates, an operand count, always-live
operands of the universe, and a decoder that decodes every instruction into the universe. -/
theorem preconditions_of_prepare_eq_ok {rg : RawGraph} {d : Decoder} {o : Options} {p : Problem}
    (h : prepare rg d o = .ok p) :
    ∃ g n, rg.validate = .ok g ∧ o.operandCount = some n ∧ (∀ r ∈ o.alwaysLive, r < n) ∧
      d.Decodes g.instrCount n := by
  cases hn : o.operandCount with
  | none => simp [prepare, hn, throw, throwThe, MonadExceptOf.throw] at h
  | some n =>
    cases hg : rg.validate with
    | error err => simp [prepare, hn, hg, Failure.ofError, Except.mapError, bind, Except.bind] at h
    | ok g =>
      simp only [prepare, hn, hg, Failure.ofError, Except.mapError, except_ok_bind] at h
      obtain ⟨al, hfor, h⟩ := except_bind_eq_ok.mp h
      obtain ⟨acc, hblocks, -⟩ := except_bind_eq_ok.mp h
      rw [← Array.forIn_toList] at hblocks
      have wf := Cfg.validate_wellFormed hg
      refine ⟨g, n, rfl, rfl, ?_, ?_⟩
      · -- the always-live loop throws at the first operand outside the universe
        intro r hr
        obtain ⟨b, b', hb⟩ := forIn_eq_ok_forall (fun x b s hs => by
          split at hs
          · exact ⟨_, (Except.ok.inj hs).symm⟩
          · cases hs) hfor r hr
        by_contra hlt
        simp [hlt, throw, throwThe, MonadExceptOf.throw, bind, Except.bind] at hb
      · -- every instruction lies in a block, and each block was summarized
        intro pc hpc
        obtain ⟨bb, hown⟩ := wf.covered pc hpc
        have hlt : bb < g.blocks.size := hown.1
        have hmem : g.block bb ∈ g.blocks.toList := by
          rw [show g.block bb = g.blocks[bb] by simp [FlowGraph.block, hlt]]
          exact Array.mem_toList_iff.mpr (Array.getElem_mem hlt)
        obtain ⟨st, st', hbody⟩ := forIn_eq_ok_forall (fun x b s hs => by
          obtain ⟨res, -, hs⟩ := except_bind_eq_ok.mp hs
          exact ⟨_, (Except.ok.inj hs).symm⟩) hblocks _ hmem
        obtain ⟨res, hsum, -⟩ := except_bind_eq_ok.mp hbody
        apply decodes_of_summarize_eq_ok hsum pc
        simp only [offsetsDown, List.mem_reverse, List.mem_range'_1, Block.size]
        obtain ⟨-, h₁, h₂⟩ := hown
        omega

end Problem

namespace Liveness

variable {rg : RawGraph} {d : Decoder} {o : Options} {lv : Liveness}

/-- Every result the analysis returns is converged, over the graph its input validates to and
with a decoder that decodes every instruction. -/
theorem solved_of_analyze_eq_ok (h : analyze rg d o = .ok lv) :
    ∃ g n, rg.validate = .ok g ∧ o.operandCount = some n ∧ d.Decodes g.instrCount n ∧
      lv.Solved g d {r | r ∈ o.alwaysLive} := by
  simp only [analyze, analyzeWith] at h
  obtain ⟨p, hp, -⟩ := except_bind_eq_ok.mp h
  obtain ⟨g, n, hg, hn, hal, hd⟩ := Problem.preconditions_of_prepare_eq_ok hp
  obtain ⟨lv', han, hs⟩ := Problem.analyze_solved hg hn hal hd
  rw [analyze, analyzeWith] at han
  rw [han] at h
  cases h
  exact ⟨g, n, hg, hn, hd, hs⟩

/-- A successful preparation is solved, whatever the split into components, and the verification
pass never refuses it. -/
theorem analyzeWith_eq_ok_of_prepare (sccs : FlowGraph → List (List Nat)) {p : Problem}
    (h : Problem.prepare rg d o = .ok p) : analyzeWith sccs rg d o = .ok ⟨p, p.solveWith sccs⟩ := by
  obtain ⟨g, n, hg, hn, hal, hd⟩ := Problem.preconditions_of_prepare_eq_ok h
  obtain ⟨p', -, -, -, han⟩ := Problem.analyzeWith_eq_ok sccs hg hn hal hd
  -- whatever the analysis returns is the solved problem that preparation gave
  have hres : ∀ lv, analyzeWith sccs rg d o = .ok lv → lv = ⟨p, p.solveWith sccs⟩ := by
    intro lv hlv
    rw [analyzeWith, h, except_ok_bind] at hlv
    dsimp only at hlv
    split at hlv
    · obtain ⟨u, -, hlv⟩ := except_bind_eq_ok.mp hlv
      exact (Except.ok.inj hlv).symm
    · exact (Except.ok.inj hlv).symm
  rw [han, hres _ han]

theorem analyze_eq_ok_of_prepare {p : Problem} (h : Problem.prepare rg d o = .ok p) :
    analyze rg d o = .ok ⟨p, p.solve⟩ :=
  analyzeWith_eq_ok_of_prepare FlowGraph.components h

end Liveness

/-- The two blocks of `swapLoop` meet the preconditions of an analysis with two operands. -/
theorem swapLoop_valid : swapLoop.validate = .ok swapLoopGraph ∧ swapDecoder.Decodes 2 2 := by
  refine ⟨by cbv, fun pc _ => ?_⟩
  by_cases h : pc = 0 <;> simp [swapDecoder, h]

end RegisterLiveness
