import StreamEditor.Proofs.Editor.Outcome
import StreamEditor.Proofs.Editor.Printing
import StreamEditor.Regex.Builtin

/-!
A run with the quiet option beside one without it.

* `Editor.prints_step`: a step writes just what it is said to print, and the quiet editor writes
  the same but for the automatic prints.
* `Editor.prints_advance`: so does a run, and both go through the same states.
* `Editor.quiet_deletes_autoprints`: from the start to the end, the quiet option deletes the
  automatic prints and changes nothing else.
-/

namespace StreamEditor.Editor

section Prints

variable {e : Editor}

/-! ### Steps -/

lemma silent_beginCycle : Silent beginCycle :=
  Silent.look (fun _ _ => rfl) fun _ => (silent_tell _).andGo _

/-- Telling something changes nothing that is printed. -/
lemma endPrints_told (autoprint : Bool) (event : Event) (e : Editor) :
    endPrints autoprint (told event e) = endPrints autoprint e := by
  rw [told]
  split <;> rfl

lemma prints_follow (flow : Flow) : Prints (follow flow) (flowPrints flow) := by
  cases flow with
  | goOn next => exact Silent.pure _
  | endCycle autoprint => exact (prints_endCycle _).andGo _
  | restart => exact (prints_endCycle false).silently fun _ => silent_beginCycle
  | quit autoprint exitCode =>
      refine @Prints.look _ _ _ (fun e => sequel (tell (.quit e.lineNumber exitCode)) fun _ e =>
        if autoprint then endPrints true e else []) (fun e => ?_) (fun _ _ => rfl) ?_ ?_
      · exact (silent_tell _).bind fun _ => Prints.ite ((prints_endCycle true).andGo _)
          (Silent.pure _)
      · intro e
        rw [sequel_tell, endPrints_told]
        rfl
      · intro e o
        rw [sequel_tell, endPrints_told]
        rfl

lemma prints_step (p : Program) (stage : Stage) : Prints (step p stage) (stepPrints p stage) := by
  cases stage with
  | reading =>
      refine silent_readRecord.silently fun record => ?_
      cases record with
      | none => exact Silent.pure _
      | some record => exact (silent_load _ _).silently fun _ => silent_beginCycle
  | running index =>
      cases h : p.commands[index]? with
      | none =>
          have hprints : stepPrints p (.running index) = endPrints true := by
            funext e
            rw [stepPrints, h]
          rw [step_of_none h, hprints]
          exact prints_follow _
      | some c =>
          have hprints : stepPrints p (.running index) = sequel (applies c) fun selected e =>
              if selected then
                actionPrints c e c.action ++ sequel (perform c (index + 1)) flowPrints e
              else [] := by
            funext e
            rw [stepPrints, h]
          rw [step_of_some h, hprints]
          refine (silent_applies c).bind fun _ => Prints.ite ?_ (Silent.pure _)
          exact (prints_perform c _).bind prints_follow
  | finished result => exact Silent.pure _

/-- A run writes just what it is said to print. From the quiet editor it goes through the same
states, and prints the same but for the automatic prints. -/
lemma prints_advance (p : Program) (count : ℕ) (stage : Stage) {e : Editor}
    (he : e.output.Endless) :
    (advance p count stage e).2.output = shown e.output (runPrints p count stage e) ∧
      ∀ o : Output, o.Endless →
        advance p count stage (e.printing true o) =
          ((advance p count stage e).1, (advance p count stage e).2.printing true
            (shown o (deliberate (runPrints p count stage e)))) ∧
        runPrints p count stage (e.printing true o) =
          deliberate (runPrints p count stage e) := by
  induction count generalizing stage e with
  | zero => exact ⟨rfl, fun o _ => ⟨rfl, rfl⟩⟩
  | succ count ih =>
      obtain ⟨houtput, hquiet, hdeletes⟩ := prints_step p stage e he
      have he₁ := (prints_step p stage e he).endless he
      rw [advance_succ, runPrints, sequel, shown_append, deliberate_append, ← houtput]
      rcases hrun : (step p stage).run e with ⟨failure | stage', e₁⟩ <;> rw [hrun] at he₁ hquiet
      · refine ⟨rfl, fun o ho => ⟨?_, ?_⟩⟩
        · rw [advance_succ, hquiet o ho, shown_append]
          rfl
        · rw [runPrints, sequel, hquiet o ho, hdeletes o ho]
          rfl
      · obtain ⟨hafter, hbeside⟩ := ih stage' he₁
        refine ⟨hafter, fun o ho => ?_⟩
        -- The quiet run goes on from what the quiet step has output.
        obtain ⟨hadvance, hprints⟩ :=
          hbeside _ (endless_shown ho (deliberate (stepPrints p stage e)))
        refine ⟨?_, ?_⟩
        · rw [advance_succ, hquiet o ho, shown_append]
          exact hadvance
        · rw [runPrints, sequel, hquiet o ho, hdeletes o ho]
          exact congrArg _ hprints

/-- When the output is delivered at the end, a file fails in both runs or in none. -/
lemma run_flush_printing (he : e.output.Endless) {o : Output} (ho : o.Endless) :
    ∃ output, flush.run (e.printing true o) =
      ((flush.run e).1, (flush.run e).2.printing true output) := by
  have hfiles : flushFiles.run (e.printing true o) =
      ((flushFiles.run e).1, (flushFiles.run e).2.printing true o) := rfl
  have hkept : (flushFiles.run e).2.output.Endless := he
  rw [run_flush, run_flush, run_bind, run_bind, hfiles]
  rcases hrun : flushFiles.run e with ⟨failure | _ | failure, e₁⟩ <;> rw [hrun] at hkept
  · exact ⟨o, rfl⟩
  · refine ⟨o.flush.1, ?_⟩
    have ho' : (e₁.printing true o).output.Endless := ho
    dsimp only
    rw [Option.elim_none, run_emit, run_emit, hkept.flush.1, ho'.flush.1]
    rfl
  · exact ⟨o, rfl⟩

lemma conclude_printing (he : e.output.Endless) {o : Output} (ho : o.Endless)
    (r : Except Failure ℕ) :
    ∃ output, conclude r (e.printing true o) =
      ((conclude r e).1, (conclude r e).2.printing true output) := by
  obtain ⟨output, hflush⟩ := run_flush_printing he ho
  refine ⟨output, ?_⟩
  rw [conclude, conclude, hflush]
  rcases flush.run e with ⟨_ | _, e₁⟩ <;> rfl

end Prints

/-! ### Whole runs -/

/-- The quiet option changes nothing else at the start. -/
lemma start?_quiet (p : Program) (o : Options) (input : Input) (sink : Sink) (env : Environment) :
    start? p { o with quiet := true } input sink env =
      ((start? p { o with quiet := false } input sink env).1.map fun e => e.printing true e.output,
        (start? p { o with quiet := false } input sink env).2) := by
  have hopen (quiet : Bool) :
      Writer.openAll (Options.separator { o with quiet }) env.storage p.outputFiles =
        Writer.openAll o.separator env.storage p.outputFiles := rfl
  rw [start?, start?, hopen true, hopen false]
  rcases Writer.openAll o.separator env.storage p.outputFiles with ⟨_ | _, _⟩ <;> rfl

/-- The quiet option deletes the automatic prints of a run and changes nothing else, if the output
takes all bytes. At any time both runs stand at the same stage, and the editors differ in the option
and the output only; each output is what the prints of its run make of it, and those of the quiet
run are those of the other that are not automatic. If one run ends, the other ends with the same
result and the same files. -/
theorem quiet_deletes_autoprints (p : Program) (o : Options) (input : Input) {sink : Sink}
    (hsink : sink.room = none) (env : Environment) :
    (start? p { o with quiet := true } input sink env).2 =
        (start? p { o with quiet := false } input sink env).2 ∧
      (∀ failure, (start? p { o with quiet := false } input sink env).1 = .error failure →
        (start? p { o with quiet := true } input sink env).1 = .error failure) ∧
      ∀ e₀, (start? p { o with quiet := false } input sink env).1 = .ok e₀ →
        ∃ e₀', (start? p { o with quiet := true } input sink env).1 = .ok e₀' ∧
          (∀ k, ∃ output,
            advance p k .reading e₀' =
              ((advance p k .reading e₀).1, (advance p k .reading e₀).2.printing true output) ∧
            (advance p k .reading e₀).2.output = shown e₀.output (runPrints p k .reading e₀) ∧
            output = shown e₀'.output (runPrints p k .reading e₀') ∧
            runPrints p k .reading e₀' = deliberate (runPrints p k .reading e₀)) ∧
          ∀ result e, Concludes p e₀ result e →
            ∃ output, Concludes p e₀' result (e.printing true output) := by
  rw [start?_quiet]
  refine ⟨rfl, fun failure h => by rw [h]; rfl, fun e₀ h => ?_⟩
  obtain ⟨writers, storage, -, he₀⟩ := start?_eq_ok h
  have hendless : e₀.output.Endless := by
    rw [he₀]
    exact hsink
  refine ⟨e₀.printing true e₀.output, ?_, fun k => ?_, ?_⟩
  · rw [h]
    rfl
  · obtain ⟨houtput, hquiet⟩ := prints_advance p k .reading hendless
    obtain ⟨hadvance, hdeletes⟩ := hquiet _ hendless
    refine ⟨_, hadvance, houtput, ?_, hdeletes⟩
    rw [hdeletes]
    rfl
  · rintro result e ⟨k, r, e₁, hrun, hend⟩
    obtain ⟨houtput, hquiet⟩ := prints_advance p k .reading hendless
    obtain ⟨hadvance, -⟩ := hquiet _ hendless
    rw [hrun] at houtput hadvance
    have he₁ : e₁.output.Endless := by
      rw [houtput]
      exact endless_shown hendless _
    obtain ⟨output, hconclude⟩ := conclude_printing he₁ (endless_shown hendless _) r
    rw [hend] at hconclude
    exact ⟨output, k, r, _, hadvance, hconclude⟩

/-- Two lines, the first of which is printed. It is printed again before the second is read, which
is printed at the end; but neither happens if the run is quiet. -/
theorem quiet_deletes_autoprints_twice :
    ∃ p e₀ e₀',
      Program.parse (.ofText (Text.ofString "p\nn")) .standard = .ok p ∧ p.quiet = false ∧
      (start? p .standard (.ofFiles [['f']] 10 false) .unlimited
        (.start ⟨[([['f']], [97, 10, 98, 10])], [], []⟩)).1 = .ok e₀ ∧
      (start? p { Options.standard with quiet := true } (.ofFiles [['f']] 10 false) .unlimited
        (.start ⟨[([['f']], [97, 10, 98, 10])], [], []⟩)).1 = .ok e₀' ∧
      runPrints p 5 .reading e₀ =
        [⟨.record ['a'] true, false⟩, ⟨.record ['a'] true, true⟩, ⟨.record ['b'] true, true⟩] ∧
      runPrints p 5 .reading e₀' = [⟨.record ['a'] true, false⟩] := by
  have hall : started? (fun p e₀ => (p.quiet, runPrints p 5 .reading e₀))
      (Program.parse (.ofText (Text.ofString "p\nn")) .standard) .standard [['f']]
      ⟨[([['f']], [97, 10, 98, 10])], [], []⟩ =
      some (false,
        [⟨.record ['a'] true, false⟩, ⟨.record ['a'] true, true⟩, ⟨.record ['b'] true, true⟩]) := by
    decide +kernel
  obtain ⟨p, e₀, hparse, hstart, hseen⟩ := start_of_started? hall
  obtain ⟨hquiet, hprints⟩ := Prod.mk.inj hseen
  have hroom : Sink.unlimited.room = none := rfl
  obtain ⟨-, -, hruns⟩ := quiet_deletes_autoprints p .standard (.ofFiles [['f']] 10 false) hroom
    (.start ⟨[([['f']], [97, 10, 98, 10])], [], []⟩)
  obtain ⟨e₀', hstart', hsame, -⟩ := hruns e₀ hstart
  obtain ⟨output, -, -, -, hdeletes⟩ := hsame 5
  rw [hprints] at hdeletes
  exact ⟨p, e₀, e₀', hparse, hquiet, hstart, hstart', hprints, hdeletes⟩

end StreamEditor.Editor
