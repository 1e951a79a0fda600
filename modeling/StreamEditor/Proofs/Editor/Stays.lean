import StreamEditor.Proofs.Editor.Edits
import StreamEditor.Proofs.Program.WellFormed

/-!
What the commands of a program leave as it is.

* `Editor.Stays`: nothing but the texts, the input and the outputs has changed.
* `Editor.Goes`: records may have been read too, and ranges that are not `kept` may have moved on.
* `Editor.moves_step`: a step moves no range but that of the command it comes to.
-/

namespace StreamEditor.Editor

/-- The options, the number of the record, the ranges and the number of output files are as
before. -/
structure Stays (e e' : Editor) : Prop where
  options : e'.options = e.options
  lineNumber : e'.lineNumber = e.lineNumber
  recordsRead : e'.recordsRead = e.recordsRead
  ranges : e'.ranges = e.ranges
  writers : e'.writers.length = e.writers.length

/-- No record is taken back, and the ranges that are `kept` are as before. -/
structure Goes (kept : ℕ → Prop) (e e' : Editor) : Prop where
  options : e'.options = e.options
  recordsRead : e.recordsRead ≤ e'.recordsRead
  /-- In a single stream every record counts. -/
  lineNumber : e.options.separate = false →
    e'.lineNumber + e.recordsRead = e.lineNumber + e'.recordsRead
  slots : e'.ranges.length = e.ranges.length
  ranges : ∀ slot, kept slot → e'.ranges[slot]? = e.ranges[slot]?
  writers : e'.writers.length = e.writers.length

instance : Std.Refl Stays := ⟨fun _ => ⟨rfl, rfl, rfl, rfl, rfl⟩⟩

instance : IsTrans Editor Stays where
  trans _ _ _ h h' :=
    ⟨h'.options.trans h.options, h'.lineNumber.trans h.lineNumber,
      h'.recordsRead.trans h.recordsRead, h'.ranges.trans h.ranges, h'.writers.trans h.writers⟩

instance (kept : ℕ → Prop) : Std.Refl (Goes kept) :=
  ⟨fun _ => ⟨rfl, le_rfl, fun _ => rfl, rfl, fun _ _ => rfl, rfl⟩⟩

instance (kept : ℕ → Prop) : IsTrans Editor (Goes kept) where
  trans e e' e'' h h' :=
    { options := h'.options.trans h.options
      recordsRead := h.recordsRead.trans h'.recordsRead
      lineNumber := fun hs => by
        have := h.lineNumber hs
        have := h'.lineNumber (h.options ▸ hs)
        omega
      slots := h'.slots.trans h.slots
      ranges := fun slot hk => (h'.ranges slot hk).trans (h.ranges slot hk)
      writers := h'.writers.trans h.writers }

lemma Stays.goes {kept : ℕ → Prop} {e e' : Editor} (h : Stays e e') : Goes kept e e' where
  options := h.options
  recordsRead := h.recordsRead.ge
  lineNumber _ := by rw [h.lineNumber, h.recordsRead]
  slots := by rw [h.ranges]
  ranges _ _ := by rw [h.ranges]
  writers := h.writers

lemma Goes.mono {kept kept' : ℕ → Prop} {e e' : Editor} (h : Goes kept e e')
    (hk : ∀ slot, kept' slot → kept slot) : Goes kept' e e' :=
  { h with ranges := fun slot hs => h.ranges slot (hk slot hs) }

section Stays

variable {α : Type}

lemma Moves.goes {kept : ℕ → Prop} {m : Edit α} (h : Moves Stays m) : Moves (Goes kept) m :=
  h.mono fun _ _ => Stays.goes

/-! ### Output -/

@[simp] lemma moves_tell (event : Event) : Moves Stays (tell event) :=
  Moves.modify fun e => by
    split
    · exact ⟨rfl, rfl, rfl, rfl, rfl⟩
    · exact Std.Refl.refl e

@[simp] lemma moves_emit (f : Output → Output.Attempt) : Moves Stays (emit f) := by
  refine Moves.get fun e => ?_
  rcases f e.output with ⟨output, _ | fault⟩ <;> exact ⟨rfl, rfl, rfl, rfl, rfl⟩

@[simp] lemma moves_printRecord (text : Text) (terminated : Bool) :
    Moves Stays (printRecord text terminated) := moves_emit _

@[simp] lemma moves_printText (text : Text) : Moves Stays (printText text) := moves_emit _

@[simp] lemma moves_printPattern : Moves Stays printPattern :=
  Moves.get_bind fun _ => moves_printRecord _ _

@[simp] lemma moves_writeToFile (index : ℕ) (text : Text) (terminated : Bool) :
    Moves Stays (writeToFile index text terminated) := by
  refine Moves.get fun e => ?_
  cases e.writers[index]? with
  | none => exact Std.Refl.refl e
  | some writer =>
      simp only
      rcases writer.writeRecord e.environment.storage text terminated with
        ⟨writer', storage, _ | failure⟩ <;>
        exact ⟨rfl, rfl, rfl, rfl, List.length_set⟩

@[simp] lemma moves_writeTo (target : Target) (text : Text) (terminated : Bool) :
    Moves Stays (writeTo target text terminated) := by
  cases target with
  | output => exact moves_printRecord _ _
  | errors => exact Moves.modify fun e => ⟨rfl, rfl, rfl, rfl, rfl⟩
  | file index => exact moves_writeToFile _ _ _

@[simp] lemma moves_enqueue (q : Queued) : Moves Stays (enqueue q) :=
  Moves.modify fun _ => ⟨rfl, rfl, rfl, rfl, rfl⟩

@[simp] lemma moves_deliver (q : Queued) : Moves Stays (deliver q) := by
  cases q with
  | text t => exact moves_printText t
  | file name =>
      refine Moves.get fun e => ?_
      rcases e.environment.storage.read? name with ⟨fault | contents, storage⟩
      · exact ⟨rfl, rfl, rfl, rfl, rfl⟩
      · let e₁ := { e with environment := { e.environment with storage } }
        have hset : Stays e e₁ := ⟨rfl, rfl, rfl, rfl, rfl⟩
        exact IsTrans.trans _ _ _ hset (moves_emit (·.writeRaw contents) e₁)

@[simp] lemma moves_release : Moves Stays release := by
  refine Moves.get fun e => ?_
  refine IsTrans.trans _ _ _ ?_ (Moves.forM moves_deliver _ _)
  exact ⟨rfl, rfl, rfl, rfl, rfl⟩

@[simp] lemma moves_endCycle (autoprint : Bool) : Moves Stays (endCycle autoprint) := by
  refine Moves.get_bind fun e => Moves.ite ?_ moves_release
  exact moves_printPattern.bind fun _ => moves_release

/-- Neither the input nor what waits for the end of the cycle has changed. -/
structure Writes (e e' : Editor) : Prop where
  input : e'.input = e.input
  queue : e'.queue = e.queue

instance : Std.Refl Writes := ⟨fun _ => ⟨rfl, rfl⟩⟩

instance : IsTrans Editor Writes where
  trans _ _ _ h h' := ⟨h'.input.trans h.input, h'.queue.trans h.queue⟩

lemma writes_told (event : Event) (e : Editor) : Writes e (told event e) := by
  rw [told]
  split
  · exact ⟨rfl, rfl⟩
  · exact Std.Refl.refl e

lemma writes_emit (f : Output → Output.Attempt) : Moves Writes (emit f) := by
  intro e
  rw [run_emit]
  exact ⟨rfl, rfl⟩

lemma writes_deliver (q : Queued) : Moves Writes (deliver q) := by
  cases q with
  | text t => exact writes_emit (·.writeText t)
  | file name =>
      refine Moves.get fun e => ?_
      rcases e.environment.storage.read? name with ⟨fault | contents, storage⟩
      · exact ⟨rfl, rfl⟩
      · have hset : Writes e { e with environment := { e.environment with storage } } := ⟨rfl, rfl⟩
        exact IsTrans.trans _ _ _ hset (writes_emit (·.writeRaw contents) _)

/-- After all that waited is written nothing waits. -/
lemma release_spec (e : Editor) :
    (release.run e).2.input = e.input ∧ (release.run e).2.queue = [] := by
  obtain ⟨hinput, hqueue⟩ := Moves.forM writes_deliver e.queue { e with queue := [] }
  exact ⟨hinput, hqueue⟩

/-- Where nothing waits nothing is written. -/
lemma run_release_of_nil {e : Editor} (h : e.queue = []) : release.run e = (.ok (), e) := by
  have heta : { e with queue := [] } = e := by rw [← h]
  rw [release, run_get_bind, run_set_bind, h, heta]
  rfl

lemma endCycle_of_quiet {e : Editor} (h : e.options.quiet = true) (autoprint : Bool) :
    (endCycle autoprint).run e = release.run e := by
  rw [endCycle, run_get_bind, h]
  simp

/-- A cycle that ends without a failure leaves nothing waiting. -/
lemma endCycle_spec {autoprint : Bool} {e e' : Editor}
    (h : (endCycle autoprint).run e = (.ok (), e')) : e'.input = e.input ∧ e'.queue = [] := by
  rw [endCycle, run_get_bind] at h
  dsimp only at h
  split at h
  · have hprint : Writes e (printPattern.run e).2 :=
      writes_emit (·.writeRecord e.pattern e.terminated) e
    obtain ⟨⟨⟩, e₁, hrun, hrest⟩ := run_bind_eq_ok h
    have hrelease := release_spec e₁
    rw [hrun] at hprint
    rw [hrest, hprint.input] at hrelease
    exact hrelease
  · have hrelease := release_spec e
    rw [h] at hrelease
    exact hrelease

/-! ### Input -/

@[simp] lemma moves_readRecord : Moves Stays readRecord :=
  Moves.modifyGet fun _ => ⟨rfl, rfl, rfl, rfl, rfl⟩

@[simp] lemma moves_hasNext : Moves Stays hasNext :=
  Moves.modifyGet fun _ => ⟨rfl, rfl, rfl, rfl, rfl⟩

@[simp] lemma moves_readLineOf (name : Text) : Moves Stays (readLineOf name) := by
  refine Moves.modifyGet fun e => ?_
  dsimp only
  split <;> exact ⟨rfl, rfl, rfl, rfl, rfl⟩

/-- A record that becomes the pattern space counts. -/
@[simp] lemma moves_load {kept : ℕ → Prop} (record : Record) (pattern : Text) :
    Moves (Goes kept) (load record pattern) :=
  Moves.modify fun e =>
    { options := rfl
      recordsRead := Nat.le_succ _
      lineNumber := fun hs => by
        simp only [hs, Bool.false_and, Bool.false_eq_true, if_false]
        omega
      slots := rfl
      ranges := fun _ _ => rfl
      writers := rfl }

/-! ### Selection -/

@[simp] lemma moves_fail (c : Command) (reason : Text) : Moves Stays (fail c reason : Edit α) :=
  Moves.throw _

@[simp] lemma moves_resolve (c : Command) (regex : Option Regex) :
    Moves Stays (resolve c regex) := by
  refine Moves.get fun e => ?_
  cases regex.or e.lastRegex with
  | none => exact Std.Refl.refl e
  | some regex => exact ⟨rfl, rfl, rfl, rfl, rfl⟩

@[simp] lemma moves_searched (c : Command) (result : Except Regex.Exhausted α) :
    Moves Stays (searched c result) := by
  cases result with
  | ok found => exact Moves.pure found
  | error _ => exact moves_fail _ _

@[simp] lemma moves_atLast : Moves Stays atLast := moves_hasNext.bind fun _ => Moves.pure _

@[simp] lemma moves_meets (c : Command) (a : Address) : Moves Stays (meets c a) := by
  refine Moves.get_bind fun e => ?_
  cases a with
  | line n => exact Moves.pure _
  | last => exact moves_atLast
  | pattern regex =>
      refine (moves_resolve c regex).bind fun regex => Moves.get_bind fun e => ?_
      exact moves_searched c _
  | step first step => cases step <;> exact Moves.pure _
  | zero => exact Moves.pure _

@[simp] lemma moves_endLine (stop : RangeEnd) (line : ℕ) : Moves Stays (endLine stop line) := by
  unfold endLine
  split
  · exact Moves.pure _
  · exact moves_atLast.bind fun _ => Moves.pure _
  all_goals exact Moves.pure _

@[simp] lemma moves_advanceRange (c : Command) (first : Address) (stop : RangeEnd)
    (state : RangeState) : Moves Stays (advanceRange c first stop state) := by
  refine Moves.get_bind fun e => Moves.ite ?_ ((moves_meets c first).bind fun _ => Moves.ite ?_ ?_)
  · split
    · exact Moves.pure _
    · exact (moves_meets c _).bind fun _ => Moves.pure _
    · exact Moves.pure _
  · exact (moves_endLine _ _).bind fun _ => Moves.pure _
  · exact Moves.pure _

/-- Asking a range moves on this range only. -/
lemma moves_inRange (c : Command) (first : Address) (stop : RangeEnd) (slot : ℕ) :
    Moves (Goes (· ≠ slot)) (inRange c first stop slot) := by
  have moved (state : RangeState) :
      Moves (Goes (· ≠ slot)) (inRange.moved c first stop slot state) := by
    refine (moves_advanceRange c first stop state).goes.bind fun ⟨answer, state'⟩ => ?_
    refine Moves.bind (Moves.modify fun e => ?_) fun _ => Moves.pure _
    exact
      { options := rfl
        recordsRead := le_rfl
        lineNumber := fun _ => rfl
        slots := List.length_set
        ranges := fun other ho => List.getElem?_set_ne (Ne.symm ho)
        writers := rfl }
  refine Moves.get_bind fun e => ?_
  cases e.ranges[slot]? with
  | none => exact Moves.pure _
  | some state =>
      dsimp only
      split
      · exact Moves.ite (Moves.pure _) (moved state)
      · exact moved state

/-- Whether a command applies can only depend on its own range. -/
lemma moves_applies (c : Command) :
    Moves (Goes fun slot => c.selection.slot? ≠ some slot) (applies c) := by
  rw [applies]
  cases c.selection with
  | all => exact Moves.pure _
  | single a => exact (moves_meets c a).goes.bind fun _ => Moves.pure _
  | range first stop slot =>
      refine Moves.bind ?_ fun _ => Moves.pure _
      refine (moves_inRange c first stop slot).mono fun e e' h => h.mono fun other ho => ?_
      exact fun he => ho (congrArg some he.symm)

/-! ### Commands -/

@[simp] lemma moves_edit (f : Text → Text) : Moves Stays (edit f) :=
  Moves.modify fun _ => ⟨rfl, rfl, rfl, rfl, rfl⟩

lemma moves_writeResult (s : Substitution) (text : Text) (terminated : Bool) :
    Moves Stays (writeResult s text terminated) := by
  rw [writeResult]
  cases s.write with
  | none => exact Moves.pure _
  | some target => exact moves_writeTo _ _ _

lemma moves_substituteFor (c : Command) (s : Substitution) (regex : Regex) :
    Moves Stays (substituteFor c s regex) := by
  refine Moves.get_bind fun e => (moves_searched c _).bind fun ⟨result, count⟩ => ?_
  refine Moves.ite (Moves.pure _) ((moves_tell _).bind fun _ => ?_)
  refine Moves.bind (Moves.modify fun _ => ⟨rfl, rfl, rfl, rfl, rfl⟩) fun _ => ?_
  refine Moves.ite ?_ (moves_writeResult s _ _)
  exact moves_printPattern.bind fun _ => moves_writeResult s _ _

lemma moves_substitute (c : Command) (s : Substitution) : Moves Stays (substitute c s) := by
  rw [substitute_eq]
  refine (moves_resolve c _).bind fun regex => Moves.ite ?_ (moves_substituteFor c s regex)
  exact (moves_fail c _).bind fun _ => moves_substituteFor c s regex

@[simp] lemma moves_test (condition : Condition) : Moves Stays (test condition) := by
  refine Moves.modifyGet fun e => ?_
  cases condition <;> exact ⟨rfl, rfl, rfl, rfl, rfl⟩

@[simp] lemma moves_atEnd : Moves Stays atEnd :=
  moves_hasNext.bind fun _ => Moves.get_bind fun _ => Moves.pure _

variable {kept : ℕ → Prop}

lemma moves_next (following : ℕ) : Moves (Goes kept) (next following) := by
  refine moves_atEnd.goes.bind fun _ => Moves.ite (Moves.pure _) ?_
  refine (moves_endCycle true).goes.bind fun _ => moves_readRecord.goes.bind fun record => ?_
  cases record with
  | none => exact Moves.pure _
  | some record => exact (moves_load _ _).bind fun _ => Moves.pure _

lemma moves_appendNext (following : ℕ) : Moves (Goes kept) (appendNext following) := by
  refine moves_atEnd.goes.bind fun _ => Moves.ite (Moves.pure _) ?_
  refine moves_release.goes.bind fun _ => moves_readRecord.goes.bind fun record => ?_
  cases record with
  | none => exact Moves.pure _
  | some record =>
      exact Moves.get_bind fun e => (moves_load _ _).bind fun _ => Moves.pure _

/-- A command that does one thing and goes on. -/
lemma Moves.goOn {m : Edit α} (h : Moves Stays m) (flow : Flow) :
    Moves (Goes kept) (m >>= fun _ => Pure.pure flow) :=
  (h.bind fun _ => Moves.pure _).goes

/-- No command moves a range on. -/
lemma moves_perform (c : Command) (following : ℕ) : Moves (Goes kept) (perform c following) := by
  refine Moves.get fun e => ?_
  have done {m : Edit Flow} (h : Moves (Goes kept) m) : Goes kept e (m.run e).2 := h e
  cases c.action with
  | block | blockEnd | label | delete | quit => exact done (Moves.pure _)
  | branch condition label target =>
      refine done ((moves_test _).goes.bind fun _ => Moves.ite ?_ (Moves.pure _))
      exact (moves_tell _).goOn _
  | substitute s => exact done ((moves_substitute c s).goOn _)
  | transliterate | zap => exact done ((moves_edit _).goOn _)
  | insert | lineNumber | list | fileName => exact done ((moves_printText _).goOn _)
  | append | appendFile => exact done ((moves_enqueue _).goOn _)
  | change text => exact done (Moves.ite ((moves_printText _).goOn _) (Moves.pure _))
  | deleteFirstLine =>
      refine done ?_
      rcases Text.splitLine e.pattern with ⟨first, _ | rest⟩
      · exact Moves.pure _
      · exact (moves_edit _).goOn _
  | print => exact done (moves_printPattern.goOn _)
  | printFirstLine =>
      refine done ?_
      rcases Text.splitLine e.pattern with ⟨first, _ | rest⟩
      · exact moves_printPattern.goOn _
      · exact (moves_printRecord _ _).goOn _
  | next => exact done (moves_next _)
  | appendNext => exact done (moves_appendNext _)
  | hold => exact (⟨rfl, rfl, rfl, rfl, rfl⟩ : Stays e { e with hold := e.pattern }).goes
  | holdAppend =>
      exact (⟨rfl, rfl, rfl, rfl, rfl⟩ :
        Stays e { e with hold := e.hold ++ '\n' :: e.pattern }).goes
  | get => exact (⟨rfl, rfl, rfl, rfl, rfl⟩ : Stays e { e with pattern := e.hold }).goes
  | getAppend =>
      exact (⟨rfl, rfl, rfl, rfl, rfl⟩ :
        Stays e { e with pattern := e.pattern ++ '\n' :: e.hold }).goes
  | exchange =>
      exact (⟨rfl, rfl, rfl, rfl, rfl⟩ :
        Stays e { e with pattern := e.hold, hold := e.pattern }).goes
  | appendFileLine name =>
      refine done ((moves_readLineOf name).goes.bind fun line => ?_)
      cases line with
      | none => exact Moves.pure _
      | some line => exact (moves_enqueue _).goOn _
  | write | writeFirstLine => exact done ((moves_writeTo _ _ _).goOn _)

/-! ### Steps -/

@[simp] lemma moves_beginCycle : Moves Stays beginCycle :=
  Moves.get_bind fun _ => (moves_tell _).bind fun _ => Moves.pure _

@[simp] lemma moves_follow (flow : Flow) : Moves Stays (follow flow) := by
  cases flow with
  | goOn next => exact Moves.pure _
  | endCycle autoprint => exact (moves_endCycle _).bind fun _ => Moves.pure _
  | restart => exact (moves_endCycle _).bind fun _ => moves_beginCycle
  | quit autoprint exitCode =>
      refine Moves.get_bind fun e => (moves_tell _).bind fun _ => Moves.ite ?_ (Moves.pure _)
      exact (moves_endCycle _).bind fun _ => Moves.pure _

/-- The range with this number is asked at a stage of a program. -/
def Asks (p : Program) (slot : ℕ) (stage : Stage) : Prop :=
  ∃ index c, stage = .running index ∧ p.commands[index]? = some c ∧ c.selection.slot? = some slot

/-- A step moves no range on but the one that is asked. -/
lemma moves_step (p : Program) (stage : Stage) :
    Moves (Goes fun slot => ¬Asks p slot stage) (step p stage) := by
  cases stage with
  | reading =>
      refine moves_readRecord.goes.bind fun record => ?_
      cases record with
      | none => exact Moves.pure _
      | some record => exact (moves_load _ _).bind fun _ => moves_beginCycle.goes
  | running index =>
      cases hc : p.commands[index]? with
      | none =>
          rw [step_of_none hc]
          exact (moves_follow _).goes
      | some c =>
          rw [step_of_some hc]
          refine Moves.bind ?_ fun _ => Moves.ite ?_ (Moves.pure _)
          · refine (moves_applies c).mono fun e e' h => h.mono fun slot ha hs => ?_
            exact ha ⟨index, c, rfl, hc, hs⟩
          · exact (moves_perform c _).bind fun _ => (moves_follow _).goes
  | finished result => exact Moves.pure _

/-- A run takes no record back. -/
lemma moves_advance (p : Program) (count : ℕ) (stage : Stage) (e : Editor) :
    Goes (fun _ => False) e (advance p count stage e).2 := by
  induction count generalizing stage e with
  | zero => exact Std.Refl.refl e
  | succ count ih =>
    have hstep := (moves_step p stage e).mono fun _ (h : False) => h.elim
    rw [advance_succ]
    rcases h : (step p stage).run e with ⟨failure | stage', e₁⟩ <;> rw [h] at hstep
    · exact hstep
    · exact IsTrans.trans _ _ _ hstep (ih stage' e₁)

end Stays

end StreamEditor.Editor
