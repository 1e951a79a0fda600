import StreamEditor.Proofs.Editor.Stays
import StreamEditor.Proofs.Output.Opened
import StreamEditor.Proofs.Program.Parsed
import StreamEditor.Regex.Builtin

/-!
Running a program that is read from a script.

* `Editor.InBounds`: the ranges and output files of all commands are at hand, and the next
  command is one of the program or its end.
* `Editor.inBounds_advance`: this stays so in every run of a well-formed program.
* `Program.parse_sound`: programs that are read from a script are well-formed, and all their runs
  stay within bounds.
-/

namespace StreamEditor

namespace Editor

/-- Whatever a command names is there. -/
structure InBounds (p : Program) (stage : Stage) (e : Editor) : Prop where
  next : ∀ index, stage = .running index → index ≤ p.commands.length
  ranges : ∀ c ∈ p.commands, ∀ slot, c.selection.slot? = some slot → slot < e.ranges.length
  writers : ∀ c ∈ p.commands, ∀ index, c.action.target? = some (.file index) →
    index < e.writers.length

/-! ### Where a run goes on -/

/-- A run goes on with the next command or where a branch leads. -/
def Flow.Within (c : Command) (following : ℕ) (flow : Flow) : Prop :=
  ∀ next, flow = .goOn next →
    next = following ∨ ∃ condition label, c.action = .branch condition label (some next)

section Returns

variable {c : Command} {following : ℕ}

lemma within_following : Flow.Within c following (.goOn following) := by
  intro next h
  cases h
  exact .inl rfl

lemma within_of_ne {flow : Flow} (h : ∀ next, flow ≠ .goOn next) : Flow.Within c following flow :=
  fun next hn => absurd hn (h next)

lemma returns_following {α : Type} {m : Edit α} :
    Returns (m >>= fun _ => pure (.goOn following)) (Flow.Within c following) :=
  Returns.after fun _ => Returns.pure within_following

lemma returns_next : Returns (next following) (Flow.Within c following) := by
  refine Returns.after fun ended => Returns.ite (Returns.pure (within_of_ne (by simp))) ?_
  refine Returns.after fun _ => Returns.after fun record => ?_
  cases record with
  | none => exact Returns.pure (within_of_ne (by simp))
  | some record => exact returns_following

lemma returns_appendNext : Returns (appendNext following) (Flow.Within c following) := by
  refine Returns.after fun ended => Returns.ite (Returns.pure (within_of_ne (by simp))) ?_
  refine Returns.after fun _ => Returns.after fun record => ?_
  cases record with
  | none => exact Returns.pure (within_of_ne (by simp))
  | some record => exact Returns.after fun _ => returns_following

lemma returns_perform : Returns (perform c following) (Flow.Within c following) := by
  refine Returns.after fun e => ?_
  cases hc : c.action with
  | block | blockEnd | label => exact Returns.pure within_following
  | branch condition label target =>
      refine Returns.after fun taken => Returns.ite ?_ (Returns.pure within_following)
      refine Returns.after fun _ => Returns.pure fun next hn => ?_
      cases target with
      | none => cases hn
      | some target =>
          cases hn
          exact .inr ⟨condition, label, hc⟩
  | delete | quit => exact Returns.pure (within_of_ne (by simp))
  | deleteFirstLine =>
      rcases Text.splitLine e.pattern with ⟨first, _ | rest⟩
      · exact Returns.pure (within_of_ne (by simp))
      · exact Returns.after fun _ => Returns.pure (within_of_ne (by simp))
  | change text =>
      refine Returns.ite (Returns.after fun _ => ?_) ?_ <;>
        exact Returns.pure (within_of_ne (by simp))
  | next => exact returns_next
  | appendNext => exact returns_appendNext
  | appendFileLine name =>
      refine Returns.after fun line => ?_
      cases line with
      | none => exact Returns.pure within_following
      | some line => exact returns_following
  | printFirstLine =>
      rcases Text.splitLine e.pattern with ⟨first, _ | rest⟩ <;> exact returns_following
  | _ => exact returns_following

/-- A run that goes on with another command goes on where the command before says so. -/
lemma returns_follow {flow : Flow} {bound : ℕ} (h : ∀ next, flow = .goOn next → next ≤ bound) :
    Returns (follow flow) fun stage => ∀ next, stage = .running next → next ≤ bound := by
  cases flow with
  | goOn next =>
      refine Returns.pure fun next' hn => ?_
      cases hn
      exact h next rfl
  | endCycle autoprint => exact Returns.after fun _ => Returns.pure fun _ hn => nomatch hn
  | restart =>
      refine Returns.after fun _ => Returns.after fun _ => Returns.after fun _ => ?_
      refine Returns.pure fun next hn => ?_
      cases hn
      exact Nat.zero_le _
  | quit autoprint exitCode =>
      refine Returns.after fun _ => Returns.after fun _ => Returns.ite ?_ ?_
      · exact Returns.after fun _ => Returns.pure fun _ hn => nomatch hn
      · exact Returns.pure fun _ hn => nomatch hn

end Returns

/-! ### Runs within bounds -/

variable {p : Program}

/-- Nothing is skipped past the end of the program. -/
lemma skip_le (hp : p.WellFormed) {index : ℕ} {c : Command} (hc : p.commands[index]? = some c) :
    skip c (index + 1) ≤ p.commands.length := by
  have hlt : index < p.commands.length := (List.getElem?_eq_some_iff.1 hc).1
  rw [skip]
  split
  · rename_i stop ha
    exact (hp.opens index stop ⟨c, hc, ha⟩).2.lt_length.le
  · exact hlt

/-- No branch leads past the end of the program. -/
lemma branch_lt (hp : p.WellFormed) {c : Command} (hc : c ∈ p.commands) {condition : Condition}
    {label : Option Text} {target : ℕ} (h : c.action = .branch condition label (some target)) :
    target < p.commands.length := by
  obtain ⟨hnone, hsome⟩ := hp.branches c hc _ _ _ h
  cases label with
  | none => cases hnone rfl
  | some name =>
      obtain ⟨i, hlookup, htarget⟩ := hsome name rfl
      cases htarget
      exact ((hp.labels name target).1 hlookup).lt_length

/-- A step leads to a command of the program or to its end. -/
lemma returns_step (hp : p.WellFormed) (stage : Stage) :
    Returns (step p stage) fun stage' =>
      ∀ index, stage' = .running index → index ≤ p.commands.length := by
  cases stage with
  | reading =>
      refine Returns.after fun record => ?_
      cases record with
      | none => exact Returns.pure fun _ hn => nomatch hn
      | some record =>
          refine Returns.after fun _ => Returns.after fun _ => Returns.after fun _ => ?_
          refine Returns.pure fun index hi => ?_
          cases hi
          exact Nat.zero_le _
  | running index =>
      cases hc : p.commands[index]? with
      | none =>
          rw [step_of_none hc]
          exact returns_follow fun next hn => nomatch hn
      | some c =>
          have hmem : c ∈ p.commands := List.mem_of_getElem? hc
          have hlt : index < p.commands.length := (List.getElem?_eq_some_iff.1 hc).1
          rw [step_of_some hc]
          refine Returns.after fun selected => Returns.ite ?_ ?_
          · refine returns_perform.bind fun flow hflow => returns_follow fun next hn => ?_
            obtain rfl | ⟨condition, label, hb⟩ := hflow next hn
            · exact hlt
            · exact (branch_lt hp hmem hb).le
          · refine Returns.pure fun next hn => ?_
            cases hn
            exact skip_le hp hc
  | finished result => exact Returns.pure fun _ hn => nomatch hn

/-- What a command names does not vanish. -/
lemma InBounds.goes {stage stage' : Stage} {e e' : Editor} {kept : ℕ → Prop}
    (h : InBounds p stage e) (he : Goes kept e e')
    (hs : ∀ index, stage' = .running index → index ≤ p.commands.length) :
    InBounds p stage' e' where
  next := hs
  ranges c hc slot hslot := by
    rw [he.slots]
    exact h.ranges c hc slot hslot
  writers c hc index hi := by
    rw [he.writers]
    exact h.writers c hc index hi

/-- A run of a well-formed program stays within bounds. -/
lemma inBounds_advance (hp : p.WellFormed) {stage : Stage} {e : Editor} (h : InBounds p stage e)
    (count : ℕ) : InBounds p (advance p count stage e).1 (advance p count stage e).2 := by
  induction count generalizing stage e with
  | zero => exact h
  | succ count ih =>
    have hgoes := moves_step p stage e
    have hreturns := returns_step hp stage e
    rw [advance_succ]
    rcases hrun : (step p stage).run e with ⟨failure | stage', e₁⟩ <;> rw [hrun] at hgoes
    · exact h.goes hgoes fun _ hn => nomatch hn
    · exact ih (h.goes hgoes (hreturns _ _ hrun))

/-! ### The beginning -/

/-- What a run begins with. -/
lemma start?_eq_ok {o : Options} {input : Input} {sink : Sink} {env : Environment} {e : Editor}
    (h : (start? p o input sink env).1 = .ok e) :
    ∃ writers storage, Writer.openAll o.separator env.storage p.outputFiles
        = (.ok writers, storage) ∧
      e = { options := { o with quiet := o.quiet || p.quiet }
            environment := { env with storage }
            input
            output := .toSink sink o.separator o.unbuffered
            writers
            lineReaders := []
            lineNumber := 0
            recordsRead := 0
            fileIndex := 0
            pattern := []
            terminated := true
            hold := []
            ranges :=
              (List.range p.rangeCount).map fun slot => .initial ((openSlots p).contains slot)
            substituted := false
            queue := []
            lastRegex := none } := by
  rw [start?] at h
  rcases hopen : Writer.openAll o.separator env.storage p.outputFiles
    with ⟨_ | writers, storage⟩ <;>
    rw [hopen] at h
  · cases h
  · exact ⟨writers, storage, rfl, (Except.ok.inj h).symm⟩

lemma inBounds_start (hp : p.WellFormed) {o : Options} {input : Input} {sink : Sink}
    {env : Environment} {e : Editor} (h : (start? p o input sink env).1 = .ok e) :
    InBounds p .reading e := by
  obtain ⟨writers, storage, hopen, rfl⟩ := start?_eq_ok h
  exact
    { next := fun _ hn => nomatch hn
      ranges := fun c hc slot hslot => by
        have hmem : slot ∈ p.commands.filterMap (·.selection.slot?) :=
          List.mem_filterMap.2 ⟨c, hc, hslot⟩
        rw [hp.slots, List.mem_range] at hmem
        simpa using hmem
      writers := fun c hc index hi => by
        rw [Writer.length_of_openAll hopen]
        exact hp.targets c hc index hi }

end Editor

namespace Program

open Editor

/-- A program that is read from a script is well-formed. In its runs every range and every output
file that a command names is there, and every jump leads to a command or to the end. -/
theorem parse_sound [Regex.Library] (script : Script) (options : Options) (p : Program)
    (h : parse script options = .ok p) :
    p.WellFormed ∧
      ∀ o input sink env e, (start? p o input sink env).1 = .ok e →
        ∀ count, InBounds p (advance p count .reading e).1 (advance p count .reading e).2 :=
  have hp := wellFormed_of_parse h
  ⟨hp, fun _ _ _ _ _ he count => inBounds_advance hp (inBounds_start hp he) count⟩

/-- A script with a block, a range, a label and an output file, run on no input. -/
theorem parse_sound_block :
    ∃ p e,
      parse (.ofText (Text.ofString "2,/x/\x7bs/ab/&&/w out\nb e\n\x7d;:e")) .standard = .ok p ∧
      (start? p .standard (.ofFiles [] 10 false) .unlimited (.start .empty)).1 = .ok e ∧
      p.WellFormed ∧
      InBounds p (advance p 9 .reading e).1 (advance p 9 .reading e).2 := by
  have hok : ((parse (.ofText (Text.ofString "2,/x/\x7bs/ab/&&/w out\nb e\n\x7d;:e"))
      .standard).bind fun p =>
        (start? p .standard (.ofFiles [] 10 false) .unlimited (.start .empty)).1).isOk = true := by
    decide +kernel
  rcases hp : parse (.ofText (Text.ofString "2,/x/\x7bs/ab/&&/w out\nb e\n\x7d;:e")) .standard with
    _ | p
  · rw [hp] at hok
    cases hok
  · rw [hp] at hok
    rcases he : (start? p .standard (.ofFiles [] 10 false) .unlimited (.start .empty)).1 with _ | e
    · simp [Except.bind, he, Except.isOk, Except.toBool] at hok
    · obtain ⟨hwell, hruns⟩ := parse_sound _ _ p hp
      exact ⟨p, e, rfl, he, hwell, hruns _ _ _ _ e he 9⟩

end Program

end StreamEditor
