import StreamEditor.Proofs.Editor.Cycles
import StreamEditor.Proofs.Editor.Hushed
import StreamEditor.Proofs.Program.Parsed
import StreamEditor.Regex.Builtin

/-!
Programs that only change the pattern space and the hold space.

* `Action.onlyEdits`: a command neither prints, nor reads, nor ends a cycle without printing.
* `Editor.moves_perform_onward`: it leaves what was read and printed alone.
* `Editor.WalkEnds`: the commands are walked through to an end.
* `Editor.Linewise.cycle`: a cycle prints the pattern space once, and no more.
* `Editor.prints_linewise`: so there is one print for each record of the input, in order.
-/

namespace StreamEditor

open Output (Write)

/-- A command that changes the pattern space or the hold space, or only decides which command is
next. -/
def Action.onlyEdits : Action → Bool
  | .substitute s => !s.print && s.write.isNone
  | .block _ | .blockEnd | .label _ | .branch _ _ _ | .transliterate _ | .hold | .holdAppend | .get
  | .getAppend | .exchange | .zap => true
  | _ => false

lemma Action.target?_of_onlyEdits {a : Action} (h : a.onlyEdits = true) : a.target? = none := by
  cases a
  case substitute s =>
    simp only [onlyEdits, Bool.and_eq_true, Option.isNone_iff_eq_none] at h
    exact h.2
  case write | writeFirstLine => cases h
  all_goals rfl

namespace Editor

section Edits

variable {c : Command} {p : Program} {e e' e₀ : Editor} {all : List Delivery} {index k n : ℕ}
  {ws : List Write}

/-! ### Commands -/

lemma looking_onward : Looking (Onward []) where
  aside e ranges lastRegex := (looking_asked.aside e ranges lastRegex).onward
  hasNext e := (looking_asked.hasNext e).onward

lemma moves_tell_onward (event : Event) : Moves (Onward []) (tell event) := onward_told event

/-- A substitution that neither prints nor writes only edits. -/
lemma moves_substitute_onward {s : Substitution} (hprint : s.print = false)
    (hwrite : s.write = none) :
    Moves (Onward []) (substitute c s) := by
  have hfor (regex : Regex) : Moves (Onward []) (substituteFor c s regex) := by
    refine Moves.get_bind fun e => (looking_onward.searched c _).bind fun ⟨result, count⟩ => ?_
    refine Moves.ite (looking_onward.pure _) ((moves_tell_onward _).bind fun _ => ?_)
    refine Moves.bind (Moves.modify fun e => onward_texts e result e.hold true) fun _ => ?_
    rw [hprint, writeResult, hwrite]
    exact looking_onward.pure _
  rw [substitute_eq]
  refine (looking_onward.resolve c _).bind fun regex => Moves.ite ?_ (hfor regex)
  exact (looking_onward.throw _).bind fun _ => hfor regex

lemma moves_test_onward (condition : Condition) : Moves (Onward []) (test condition) := by
  refine Moves.modifyGet fun e => ?_
  cases condition
  · exact onward_texts e e.pattern e.hold e.substituted
  all_goals exact onward_texts e e.pattern e.hold false

/-- A command that only edits leaves alone what was read and what was printed. -/
lemma moves_perform_onward (hc : c.action.onlyEdits = true) (following : ℕ) :
    Moves (Onward []) (perform c following) := by
  have goOn {m : Edit Unit} (hm : Moves (Onward []) m) (flow : Flow) :
      Moves (Onward []) (m >>= fun _ => pure flow) := hm.bind fun _ => looking_onward.pure _
  refine Moves.get fun e => ?_
  have done {m : Edit Flow} (hm : Moves (Onward []) m) : Onward [] e (m.run e).2 := hm e
  cases haction : c.action <;> rw [haction] at hc
  case block | blockEnd | label => exact done (looking_onward.pure _)
  case branch condition label target =>
    refine done ((moves_test_onward _).bind fun _ => Moves.ite ?_ (looking_onward.pure _))
    exact goOn (moves_tell_onward _) _
  case substitute s =>
    simp only [Action.onlyEdits, Bool.and_eq_true, Bool.not_eq_true',
      Option.isNone_iff_eq_none] at hc
    exact done (goOn (moves_substitute_onward hc.1 hc.2) _)
  case transliterate | zap =>
    exact done (goOn (Moves.modify fun e => onward_texts e _ e.hold e.substituted) _)
  case hold | holdAppend | get | getAppend | exchange => exact onward_texts e _ _ _
  all_goals cases hc

/-- Such a command is followed by another one, or by the end of the cycle. -/
lemma returns_perform_onward (hc : c.action.onlyEdits = true) (following : ℕ) :
    Returns (perform c following) fun flow =>
      (∃ next, flow = .goOn next) ∨ flow = .endCycle true := by
  refine Returns.after fun e => ?_
  have goOn {m : Edit Unit} : Returns (m >>= fun _ => pure (Flow.goOn following)) fun flow =>
      (∃ next, flow = .goOn next) ∨ flow = .endCycle true :=
    Returns.after fun _ => Returns.pure (.inl ⟨_, rfl⟩)
  cases haction : c.action <;> rw [haction] at hc
  case block | blockEnd | label => exact Returns.pure (.inl ⟨_, rfl⟩)
  case branch condition label target =>
    refine Returns.after fun _ => Returns.ite (Returns.after fun _ => Returns.pure ?_)
      (Returns.pure (.inl ⟨_, rfl⟩))
    cases target with
    | none => exact .inr rfl
    | some target => exact .inl ⟨target, rfl⟩
  case substitute | transliterate | zap | hold | holdAppend | get | getAppend | exchange =>
    exact goOn
  all_goals cases hc

/-- Such a command prints nothing. -/
lemma actionPrints_of_onlyEdits (hc : c.action.onlyEdits = true) (e : Editor) :
    actionPrints c e c.action = [] := by
  cases haction : c.action <;> rw [haction] at hc
  case substitute s =>
    simp only [Action.onlyEdits, Bool.and_eq_true, Bool.not_eq_true',
      Option.isNone_iff_eq_none] at hc
    obtain ⟨hprint, hwrite⟩ := hc
    have hnothing (regex : Regex) (e : Editor) : substitutePrints s regex e = [] := by
      rw [substitutePrints, hprint, hwrite]
      split
      · rfl
      · split <;> rfl
    simp only [actionPrints, hnothing, ite_self, sequel_nil]
  case block | blockEnd | label | branch | transliterate | zap | hold | holdAppend | get |
      getAppend | exchange => rfl
  all_goals cases hc

end Edits

/-! ### Steps -/

section Steps

variable {p : Program} {e e' e₀ : Editor} {all : List Delivery} {stage stage' : Stage}
  {index k n : ℕ} {prints : List Print} {d : Delivery}

/-- Where nothing waits the end of a cycle prints the pattern space. -/
lemma endPrints_of_idle (hprinting : e.options.quiet = false) (hqueue : e.queue = []) :
    endPrints true e = [⟨.record e.pattern e.terminated, true⟩] := by
  rw [endPrints, releasePrints, hqueue, hprinting]
  rfl

/-- What the last step of a run prints. -/
lemma runPrints_succ_last (h : advance p k stage e = (stage', e')) :
    runPrints p (k + 1) stage e = runPrints p k stage e ++ stepPrints p stage' e' := by
  induction k generalizing stage e with
  | zero =>
      cases h
      rw [runPrints, runPrints, List.nil_append]
      show _ ++ sequel _ (fun _ _ => []) _ = _
      rw [sequel_nil, List.append_nil]
  | succ k ih =>
      rw [advance_succ] at h
      rw [runPrints, runPrints, List.append_assoc, sequel, sequel]
      rcases hstep : (step p stage).run e with ⟨failure | stage₁, e₁⟩ <;> rw [hstep] at h
      · cases h
        rfl
      · exact congrArg _ (ih h)

/-- A run of such a program has come to `stage`. It has read `n` records and printed `prints`. -/
structure Linewise (p : Program) (e₀ : Editor) (all : List Delivery) (stage : Stage) (n : ℕ)
    (prints : List Print) (e : Editor) : Prop where
  printed : ∃ k, advance p k .reading e₀ = (stage, e) ∧ runPrints p k .reading e₀ = prints
  underway : Underway p e₀ all stage n (prints.map (·.write)) e

lemma Linewise.next {prints' : List Print} (h : Linewise p e₀ all stage n prints e)
    (hstep : (step p stage).run e = (.ok stage', e')) (hprints : stepPrints p stage e = prints')
    (honward : Onward (prints'.map (·.write)) e e') :
    Linewise p e₀ all stage' n (prints ++ prints') e' := by
  obtain ⟨k, hk, rfl⟩ := h.printed
  refine ⟨⟨k + 1, reached_step hk hstep, by rw [runPrints_succ_last hk, hprints]⟩, ?_⟩
  rw [List.map_append]
  exact h.underway.next hstep honward

/-- A step that ends the cycle prints the pattern space. -/
lemma Linewise.ends {e₁ : Editor} (hprinting : e₀.options.quiet = false)
    (h : Linewise p e₀ all (.running index) n prints e) (honward : Onward [] e e₁)
    (hstep : (Editor.step p (.running index)).run e = (follow (.endCycle true)).run e₁)
    (hprints : stepPrints p (.running index) e = endPrints true e₁) :
    ∃ e', (Editor.step p (.running index)).run e = (.ok .reading, e') ∧
      Linewise p e₀ all .reading n (prints ++ [⟨.record e₁.pattern e.terminated, true⟩]) e' := by
  have hprinting₁ : e₁.options.quiet = false :=
    (congrArg Options.quiet (honward.options.trans h.underway.options)).trans hprinting
  have hqueue : e₁.queue = [] := honward.queue.trans h.underway.queue
  have hendless : e₁.output.Endless := honward.output ▸ h.underway.endless
  have hend := hstep.trans (run_bind_of_ok (run_endCycle_of_endless hprinting₁ hqueue hendless))
  refine ⟨_, hend, ?_⟩
  rw [← honward.terminated]
  exact h.next hend (hprints.trans (endPrints_of_idle hprinting₁ hqueue))
    (honward.append (onward_write _ e₁))

/-- What a step at a command prints, once it is known whether it applies. -/
lemma stepPrints_of_some {c : Command} {selected : Bool} {e₁ : Editor}
    (hc : p.commands[index]? = some c) (happlies : (applies c).run e = (.ok selected, e₁)) :
    stepPrints p (.running index) e =
      if selected then
        actionPrints c e₁ c.action ++ sequel (perform c (index + 1)) flowPrints e₁
      else [] := by
  rw [stepPrints, hc]
  dsimp only
  rw [sequel, happlies]

/-- A step after which no command follows has printed the pattern space, and any other one
nothing. -/
lemma Linewise.step (hedits : ∀ c ∈ p.commands, c.action.onlyEdits = true)
    (hprinting : e₀.options.quiet = false) (h : Linewise p e₀ all (.running index) n prints e)
    (hstep : (Editor.step p (.running index)).run e = (.ok stage', e')) :
    (∃ next, stage' = .running next ∧ Linewise p e₀ all stage' n prints e' ∧
        e'.terminated = e.terminated) ∨
      stage' = .reading ∧ ∃ text,
        Linewise p e₀ all stage' n (prints ++ [⟨.record text e.terminated, true⟩]) e' := by
  cases hc : p.commands[index]? with
  | none =>
      have hprints : stepPrints p (.running index) e = endPrints true e := by
        rw [stepPrints, hc]
      obtain ⟨e₁, hend, hnext⟩ := h.ends hprinting (Onward.refl e) (by rw [step_of_none hc]) hprints
      cases hstep.symm.trans hend
      exact .inr ⟨rfl, e.pattern, hnext⟩
  | some c =>
      have hedit := hedits c (List.mem_of_getElem? hc)
      have hparts := hstep
      rw [step_of_some hc] at hparts
      obtain ⟨selected, e₁, happlies, hrest⟩ := run_bind_eq_ok hparts
      have hasked := looking_onward.applies c e
      rw [happlies] at hasked
      have hprints := stepPrints_of_some hc happlies
      cases selected with
      | false =>
          cases hrest
          have hnext := h.next hstep hprints hasked
          rw [if_neg Bool.false_ne_true, List.append_nil] at hnext
          exact .inl ⟨_, rfl, hnext, hasked.terminated⟩
      | true =>
          obtain ⟨flow, e₂, hperform, hfollow⟩ := run_bind_eq_ok hrest
          have hdone := moves_perform_onward hedit (index + 1) e₁
          rw [hperform] at hdone
          have honward : Onward [] e e₂ := hasked.append hdone
          have hprints : stepPrints p (.running index) e = flowPrints flow e₂ := by
            rw [hprints, if_pos rfl, actionPrints_of_onlyEdits hedit, List.nil_append, sequel,
              hperform]
          -- A command that only edits goes on with another command, or ends the cycle.
          obtain ⟨next, rfl⟩ | rfl := returns_perform_onward hedit _ _ _ _ hperform
          · cases hfollow
            have hnext := h.next hstep hprints honward
            rw [flowPrints, List.append_nil] at hnext
            exact .inl ⟨next, rfl, hnext, honward.terminated⟩
          · obtain ⟨e₃, hend, hnext⟩ :=
              h.ends hprinting honward (run_step_of_applies hc happlies hperform) hprints
            cases hstep.symm.trans hend
            exact .inr ⟨rfl, e₂.pattern, hnext⟩

/-- The commands are walked through to an end, from the first one on, and none of them fails. -/
def WalkEnds (p : Program) (e : Editor) : Prop :=
  ∃ m, (∀ index, (advance p m (.running 0) e).1 ≠ .running index) ∧
    ∀ failure, (advance p m (.running 0) e).1 ≠ .finished (.error failure)

/-- A walk that comes to an end prints the pattern space there, and nothing before. -/
lemma Linewise.walk (hedits : ∀ c ∈ p.commands, c.action.onlyEdits = true)
    (hprinting : e₀.options.quiet = false) {m : ℕ}
    (h : Linewise p e₀ all (.running index) n prints e)
    (hends : ∀ index', (advance p m (.running index) e).1 ≠ .running index')
    (hfine : ∀ failure, (advance p m (.running index) e).1 ≠ .finished (.error failure)) :
    ∃ text e', Linewise p e₀ all .reading n (prints ++ [⟨.record text e.terminated, true⟩]) e' := by
  induction m generalizing index e with
  | zero => exact absurd rfl (hends index)
  | succ m ih =>
      rw [advance_succ] at hends hfine
      rcases hstep : (Editor.step p (.running index)).run e with ⟨failure | stage', e'⟩ <;>
        rw [hstep] at hends hfine
      · exact absurd rfl (hfine failure)
      · obtain ⟨next, rfl, hnext, hterminated⟩ | ⟨rfl, text, hnext⟩ :=
          h.step hedits hprinting hstep
        · rw [← hterminated]
          exact ih hnext hends hfine
        · exact ⟨text, e', hnext⟩

/-- A cycle loads the next record, and prints the pattern space once. -/
lemma Linewise.cycle (hedits : ∀ c ∈ p.commands, c.action.onlyEdits = true)
    (hprinting : e₀.options.quiet = false)
    (hends : ∀ k e e', advance p k .reading e₀ = (.reading, e) →
      (Editor.step p .reading).run e = (.ok (.running 0), e') → WalkEnds p e')
    (h : Linewise p e₀ all .reading n prints e) (hd : all[n]? = some d) :
    ∃ text e', Linewise p e₀ all .reading (n + 1)
      (prints ++ [⟨.record text d.record.terminated, true⟩]) e' := by
  obtain ⟨k, hk, rfl⟩ := h.printed
  obtain ⟨input, environment, hstep, hread⟩ := h.underway.read hd
  obtain ⟨m, hstops, hfine⟩ := hends k e _ hk hstep
  have hprints : stepPrints p .reading e = [] := rfl
  have hloaded : Linewise p e₀ all (.running 0) (n + 1) (runPrints p k .reading e₀)
      (loaded d d.record.content { e with input, environment }) := by
    refine ⟨⟨k + 1, reached_step hk hstep, ?_⟩, hread⟩
    rw [runPrints_succ_last hk, hprints, List.append_nil]
  exact hloaded.walk hedits hprinting hstops hfine

/-- A run prints once for each record, in order. -/
lemma Linewise.run (hedits : ∀ c ∈ p.commands, c.action.onlyEdits = true)
    (hprinting : e₀.options.quiet = false)
    (hends : ∀ k e e', advance p k .reading e₀ = (.reading, e) →
      (Editor.step p .reading).run e = (.ok (.running 0), e') → WalkEnds p e')
    (hstart : Linewise p e₀ all .reading 0 [] e₀) (hn : n ≤ all.length) :
    ∃ prints e, Linewise p e₀ all .reading n prints e ∧
      List.Forall₂ (fun d print => ∃ text, print = ⟨.record text d.record.terminated, true⟩)
        (all.take n) prints := by
  induction n with
  | zero => exact ⟨[], e₀, hstart, .nil⟩
  | succ n ih =>
      obtain ⟨prints, e, h, hlines⟩ := ih (Nat.le_of_succ_le hn)
      have hd : all[n]? = some all[n] := List.getElem?_eq_getElem hn
      obtain ⟨text, e', hnext⟩ := h.cycle hedits hprinting hends hd
      refine ⟨_, e', hnext, ?_⟩
      rw [List.take_add_one, hd]
      exact List.rel_append hlines (.cons ⟨text, rfl⟩ .nil)

end Steps

/-- A program that only changes the pattern space and the hold space, and neither prints nor reads
by itself. If in every cycle its commands are walked through to an end without a failure, the run
prints once for each record of its files, in their order, with a separator where the record had one;
and it prints nothing else, whether the files are one stream or each of them is its own. It returns
zero. -/
theorem prints_linewise [Regex.Library] {script : Script} {options : Options} {p : Program}
    (hp : Program.parse script options = .ok p)
    (hedits : ∀ c ∈ p.commands, c.action.onlyEdits = true) {o : Options}
    (hprinting : (o.quiet || p.quiet) = false) {sink : Sink} (hroom : sink.room = none)
    (names : List Text) (env : Environment) :
    ∃ e₀, (start? p o (.ofFiles names o.separator o.separate) sink env).1 = .ok e₀ ∧
      ((∀ k e e', advance p k .reading e₀ = (.reading, e) →
          (step p .reading).run e = (.ok (.running 0), e') → WalkEnds p e') →
        ∃ k e₁ e, advance p k .reading e₀ = (.finished (.ok 0), e₁) ∧
          conclude (.ok 0) e₁ = (.ok 0, e) ∧
          List.Forall₂ (fun d print => ∃ text, print = ⟨.record text d.record.terminated, true⟩)
            (Input.deliveries o.separator env.storage names) (runPrints p k .reading e₀) ∧
          e₁.output = shown e₀.output (runPrints p k .reading e₀) ∧
          e.output.sink.delivered = sink.delivered ++
            Write.joined o.separator none ((runPrints p k .reading e₀).map (·.write))) := by
  have hfiles : p.outputFiles = [] := (Program.wellFormed_of_parse hp).outputFiles_eq_nil
    fun c hc => Action.target?_of_onlyEdits (hedits c hc)
  obtain ⟨e₀, hstart, hbegin, hoptions, houtput, -⟩ := exists_underway hfiles o names hroom env
  refine ⟨e₀, hstart, fun hends => ?_⟩
  have hprinting : e₀.options.quiet = false := (congrArg Options.quiet hoptions).trans hprinting
  obtain ⟨prints, e, h, hlines⟩ :=
    Linewise.run hedits hprinting hends ⟨⟨0, rfl, rfl⟩, hbegin⟩ le_rfl
  obtain ⟨k, hk, hprints⟩ := h.printed
  obtain ⟨e₁, e', hstep, hconclude, hdelivered⟩ := h.underway.finish hroom houtput
  have hlast := reached_step hk hstep
  have hnothing : stepPrints p .reading e = [] := rfl
  have hall : runPrints p (k + 1) .reading e₀ = prints := by
    rw [runPrints_succ_last hk, hnothing, List.append_nil, hprints]
  refine ⟨k + 1, e₁, e', hlast, hconclude, ?_, ?_, by rw [hall, hdelivered]⟩
  · rwa [hall, ← List.take_length (l := Input.deliveries o.separator env.storage names)]
  · obtain ⟨hshown, -⟩ := prints_advance p (k + 1) .reading hbegin.endless
    rwa [hlast] at hshown

/-- Whether all walks that begin within `count` steps come to an end within `m` steps. -/
def walksEnd (p : Program) (m count : ℕ) (e₀ : Editor) : Bool :=
  (List.range count).all fun k =>
    match advance p k .reading e₀ with
    | (.reading, e) =>
        match (step p .reading).run e with
        | (.ok (.running 0), e) =>
            (List.range m).any fun m =>
              match (advance p m (.running 0) e).1 with
              | .running _ | .finished (.error _) => false
              | .reading | .finished (.ok _) => true
        | _ => true
    | _ => true

lemma walkEnds_of_walksEnd {p : Program} {m count : ℕ} {e₀ e e' : Editor} {k : ℕ}
    (h : walksEnd p m count e₀ = true) {r : Except Failure ℕ}
    (hfinished : (advance p count .reading e₀).1 = .finished r)
    (hk : advance p k .reading e₀ = (.reading, e))
    (hstep : (step p .reading).run e = (.ok (.running 0), e')) : WalkEnds p e' := by
  have hlt : k < count := by
    by_contra hle
    obtain ⟨more, rfl⟩ := Nat.exists_eq_add_of_le (not_lt.1 hle)
    rw [advance_add, hfinished, advance_finished] at hk
    cases hk
  have hend := List.all_eq_true.1 h k (List.mem_range.2 hlt)
  rw [hk] at hend
  dsimp only at hend
  rw [hstep] at hend
  obtain ⟨m', -, hm'⟩ := List.any_eq_true.1 hend
  refine ⟨m', fun index hstage => ?_, fun failure hstage => ?_⟩ <;> rw [hstage] at hm' <;> cases hm'

/-- A loop of substitutions and the hold space, over two files that are streams of their own. -/
theorem prints_linewise_loop :
    ∃ p e₀ k e₁ e,
      Program.parse (.ofText (Text.ofString ":a\ns/b/x/\nta\nG\nh")) .standard = .ok p ∧
      (start? p { Options.standard with separate := true } (.ofFiles [['f'], ['g']] 10 true)
        .unlimited (.start ⟨[([['f']], [98, 98, 10]), ([['g']], [99])], [], []⟩)).1 = .ok e₀ ∧
      advance p k .reading e₀ = (.finished (.ok 0), e₁) ∧ conclude (.ok 0) e₁ = (.ok 0, e) ∧
      ∃ text text', runPrints p k .reading e₀ =
        [⟨.record text true, true⟩, ⟨.record text' false, true⟩] := by
  have hall : started? (fun p e₀ => (decide (∀ c ∈ p.commands, c.action.onlyEdits = true),
        walksEnd p 20 30 e₀,
        match (advance p 30 .reading e₀).1 with
          | .finished _ => true
          | .reading | .running _ => false,
        p.quiet))
      (Program.parse (.ofText (Text.ofString ":a\ns/b/x/\nta\nG\nh")) .standard)
      { Options.standard with separate := true } [['f'], ['g']]
      ⟨[([['f']], [98, 98, 10]), ([['g']], [99])], [], []⟩ = some (true, true, true, false) := by
    decide +kernel
  have hrecords : Input.deliveries 10 ⟨[([['f']], [98, 98, 10]), ([['g']], [99])], [], []⟩
      [['f'], ['g']] = [⟨⟨['b', 'b'], true⟩, ['f'], 1⟩, ⟨⟨['c'], false⟩, ['g'], 2⟩] := by
    decide +kernel
  obtain ⟨p, e₀, hp, hstart, hseen⟩ := start_of_started? hall
  simp only [Prod.mk.injEq, decide_eq_true_eq] at hseen
  obtain ⟨hedits, hwalks, hfinished, hquiet⟩ := hseen
  obtain ⟨r, hr⟩ : ∃ r, (advance p 30 .reading e₀).1 = .finished r := by
    cases hstage : (advance p 30 .reading e₀).1 with
    | finished r => exact ⟨r, rfl⟩
    | _ =>
        rw [hstage] at hfinished
        cases hfinished
  obtain ⟨e₀', hstart', hprints⟩ := @prints_linewise _ _ _ _ hp hedits
    { Options.standard with separate := true } (by rw [hquiet]; rfl) .unlimited rfl [['f'], ['g']]
    (.start ⟨[([['f']], [98, 98, 10]), ([['g']], [99])], [], []⟩)
  obtain rfl : e₀' = e₀ := Except.ok.inj (hstart'.symm.trans hstart)
  obtain ⟨k, e₁, e, hrun, hconclude, hlines, -⟩ :=
    hprints fun k e e' hk hstep => walkEnds_of_walksEnd hwalks hr hk hstep
  refine ⟨p, e₀', k, e₁, e, hp, hstart', hrun, hconclude, ?_⟩
  change List.Forall₂ _ (Input.deliveries 10 ⟨_, _, _⟩ _) _ at hlines
  rw [hrecords] at hlines
  generalize runPrints p k .reading e₀' = prints at hlines ⊢
  obtain _ | ⟨⟨text, rfl⟩, _ | ⟨⟨text', rfl⟩, _ | _⟩⟩ := hlines
  exact ⟨text, text', rfl⟩

end Editor

end StreamEditor
