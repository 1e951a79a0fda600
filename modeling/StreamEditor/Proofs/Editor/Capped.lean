import StreamEditor.Proofs.Editor.Bounds
import StreamEditor.Proofs.Editor.Outcome
import StreamEditor.Proofs.Output.Capped
import StreamEditor.Regex.Builtin

/-!
A run whose output takes only so many bytes.

* `Editor.capped`: the editor with an output that takes `n` bytes in all.
* `Editor.Steady`: a change has the same result there and keeps the outputs alike, or fails once
  the first `n` bytes are delivered. Changes put together from such are of this kind too.
* `Editor.steady_step`: a step of a run is; so the runs go on alike until one fails
  (`Editor.keepsUp_advance`).
* `Editor.capped_delivers_prefix`: such a run delivers the first `n` bytes of what it delivers
  without a bound, and fails if that is not all.
-/

namespace StreamEditor.Editor

/-- The editor with an output that takes `n` bytes in all. -/
def capped (n : ℕ) (fault : Fault) (e : Editor) : Editor :=
  { e with output := e.output.capped n fault }

/-- No byte that `m` delivered is lost. From the capped editor `m` comes to the same, or it fails
after the first `n` bytes. -/
structure Steady {α : Type} (n : ℕ) (fault : Fault) (m : Edit α) : Prop where
  grows : ∀ e : Editor, e.output.Grows (m.run e).2.output
  follows : ∀ e : Editor, e.output.Fits n →
    ((m.run e).2.output.Fits n ∧
        m.run (e.capped n fault) = ((m.run e).1, (m.run e).2.capped n fault)) ∨
      ((m.run e).2.output.Cut n (m.run (e.capped n fault)).2.output ∧
        ∃ failure, (m.run (e.capped n fault)).1 = .error failure)

section Steady

variable {α β : Type} {n : ℕ} {fault : Fault} {m m' : Edit α} {f : α → Edit β}

/-! ### Changes put together -/

/-- What neither looks at the output nor changes it. -/
lemma Steady.blind (h : ∀ (e : Editor) output, m.run { e with output } =
    ((m.run e).1, { (m.run e).2 with output })) : Steady n fault m := by
  have houtput (e : Editor) : (m.run e).2.output = e.output := by
    have hself := h e e.output
    rw [show { e with output := e.output } = e from rfl] at hself
    rw [hself]
  refine ⟨fun e => ?_, fun e he => .inl ⟨?_, ?_⟩⟩
  · rw [houtput]
    exact Output.Grows.refl _
  · rw [houtput]
    exact he
  · rw [capped, h, capped, houtput]

lemma Steady.congr (m' : Edit α) (h : ∀ e, m.run e = m'.run e) (hm : Steady n fault m') :
    Steady n fault m where
  grows e := by
    rw [h]
    exact hm.grows e
  follows e he := by
    rw [h, h]
    exact hm.follows e he

lemma Steady.pure (a : α) : Steady n fault (Pure.pure a : Edit α) := .blind fun _ _ => rfl

lemma Steady.throw (failure : Failure) : Steady n fault (throw failure : Edit α) :=
  .blind fun _ _ => rfl

lemma Steady.bind (hm : Steady n fault m) (hf : ∀ a, Steady n fault (f a)) :
    Steady n fault (m >>= f) := by
  have hgrows (e : Editor) : (m.run e).2.output.Grows ((m >>= f).run e).2.output := by
    rw [run_bind]
    rcases m.run e with ⟨failure | a, e₁⟩
    · exact Output.Grows.refl _
    · exact (hf a).grows e₁
  refine ⟨fun e => (hm.grows e).trans (hgrows e), fun e he => ?_⟩
  obtain ⟨hfits, hsame⟩ | ⟨hcut, failure, hfailed⟩ := hm.follows e he
  · rw [run_bind, run_bind, hsame]
    rcases hrun : m.run e with ⟨failure | a, e₁⟩ <;> rw [hrun] at hfits
    · exact .inl ⟨hfits, rfl⟩
    · exact (hf a).follows e₁ hfits
  · have hbind : (m >>= f).run (e.capped n fault) =
        (.error failure, (m.run (e.capped n fault)).2) :=
      run_bind_of_error (Prod.ext hfailed rfl)
    rw [hbind]
    exact .inr ⟨hcut.grows (hgrows e), failure, rfl⟩

/-- What is looked at may be anything but the output. -/
lemma Steady.look {f : Editor → Edit α} (h : ∀ (e : Editor) output, f { e with output } = f e)
    (hf : ∀ e, Steady n fault (f e)) : Steady n fault (MonadState.get >>= f) where
  grows e := (hf e).grows e
  follows e he := by
    have hf' : f (e.capped n fault) = f e := h e _
    rw [run_get_bind, run_get_bind, hf']
    exact (hf e).follows e he

lemma Steady.ite {c : Prop} [Decidable c] (hm : Steady n fault m) (hm' : Steady n fault m') :
    Steady n fault (if c then m else m') := by
  split
  · exact hm
  · exact hm'

lemma Steady.forM {γ : Type} {f : γ → Edit PUnit} (h : ∀ c, Steady n fault (f c)) (l : List γ) :
    Steady n fault (l.forM f) := by
  induction l with
  | nil => exact Steady.pure _
  | cons c l ih => exact (h c).bind fun _ => ih

/-- A change after which a run goes on. -/
lemma Steady.andGo (hm : Steady n fault m) (b : β) : Steady n fault (m >>= fun _ => Pure.pure b) :=
  hm.bind fun _ => Steady.pure b

/-! ### Output -/

lemma steady_tell (event : Event) : Steady n fault (tell event) :=
  Steady.blind fun e output => by
    show (Except.ok (), told event { e with output }) = (Except.ok (), { told event e with output })
    rw [told, told]
    cases e.options.debug <;> rfl

lemma steady_emit {f : Output → Output.Attempt} (hf : Output.Steady n fault f) :
    Steady n fault (emit f) := by
  refine ⟨fun e => ?_, fun e he => ?_⟩
  · rw [run_emit]
    exact hf.grows e.output
  · rw [run_emit, run_emit, hf.succeeds _ he.room]
    obtain ⟨hfits, hsame⟩ | ⟨hcut, hfault⟩ := hf.follows e.output he
    · refine .inl ⟨hfits, ?_⟩
      rw [capped, hsame]
      rfl
    · refine .inr ⟨hcut, ?_⟩
      obtain ⟨fault', hfault'⟩ := Option.ne_none_iff_exists'.1 hfault
      rw [capped, hfault']
      exact ⟨_, rfl⟩

lemma steady_printRecord (text : Text) (terminated : Bool) :
    Steady n fault (printRecord text terminated) := steady_emit (Output.steady_writeRecord _ _)

lemma steady_printText (text : Text) : Steady n fault (printText text) :=
  steady_emit (Output.steady_writeText _)

lemma steady_printPattern : Steady n fault printPattern :=
  Steady.look (fun _ _ => rfl) fun _ => steady_printRecord _ _

lemma steady_writeToFile (index : ℕ) (text : Text) (terminated : Bool) :
    Steady n fault (writeToFile index text terminated) :=
  Steady.blind fun e output => by
    cases h : e.writers[index]? with
    | none =>
        have h' : ({ e with output } : Editor).writers[index]? = none := h
        rw [run_writeToFile_of_none h, run_writeToFile_of_none h']
    | some writer =>
        have h' : ({ e with output } : Editor).writers[index]? = some writer := h
        rw [run_writeToFile h, run_writeToFile h']

lemma steady_writeTo (target : Target) (text : Text) (terminated : Bool) :
    Steady n fault (writeTo target text terminated) := by
  cases target with
  | output => exact steady_printRecord _ _
  | errors => exact Steady.blind fun _ _ => rfl
  | file index => exact steady_writeToFile _ _ _

lemma steady_enqueue (q : Queued) : Steady n fault (enqueue q) := Steady.blind fun _ _ => rfl

/-- Reads all of a file. -/
def readWhole (name : Text) : Edit (Except Fault Bytes) :=
  modifyGet fun e =>
    ((e.environment.storage.read? name).1,
      { e with environment :=
        { e.environment with storage := (e.environment.storage.read? name).2 } })

lemma run_deliver_file (name : Text) (e : Editor) :
    (deliver (.file name)).run e =
      (readWhole name >>= fun contents => contents.toOption.elim (Pure.pure ()) fun contents =>
        emit (·.writeRaw contents)).run e := by
  have hread : (readWhole name).run e = (.ok _, _) := rfl
  rw [deliver, run_get_bind, run_bind_of_ok hread]
  rcases e.environment.storage.read? name with ⟨fault | contents, storage⟩ <;> rfl

lemma steady_deliver (q : Queued) : Steady n fault (deliver q) := by
  cases q with
  | text t => exact steady_printText t
  | file name =>
      refine Steady.congr _ (run_deliver_file name) (Steady.bind (.blind fun _ _ => rfl) ?_)
      intro contents
      cases contents with
      | ok contents => exact steady_emit (Output.steady_writeRaw contents)
      | error _ => exact Steady.pure _

lemma steady_release : Steady n fault release := by
  refine Steady.congr
    (modifyGet (fun e => (e.queue, { e with queue := [] })) >>= fun queue => queue.forM deliver)
    (fun e => rfl) ?_
  exact Steady.bind (.blind fun _ _ => rfl) fun queue => Steady.forM steady_deliver queue

lemma steady_endCycle (autoprint : Bool) : Steady n fault (endCycle autoprint) :=
  Steady.look (fun _ _ => rfl) fun _ =>
    Steady.ite (steady_printPattern.bind fun _ => steady_release) steady_release

/-! ### Input -/

lemma steady_readRecord : Steady n fault readRecord := Steady.blind fun _ _ => rfl

lemma steady_hasNext : Steady n fault hasNext := Steady.blind fun _ _ => rfl

lemma steady_load (record : Record) (pattern : Text) : Steady n fault (load record pattern) :=
  Steady.blind fun _ _ => rfl

lemma steady_readLineOf (name : Text) : Steady n fault (readLineOf name) :=
  Steady.blind fun e output => by
    rw [readLineOf, run_modifyGet, run_modifyGet]
    dsimp only
    split <;> rfl

/-! ### Selection -/

lemma steady_fail (c : Command) (reason : Text) : Steady n fault (fail c reason : Edit α) :=
  Steady.throw _

lemma steady_resolve (c : Command) (regex : Option Regex) : Steady n fault (resolve c regex) :=
  Steady.blind fun e output => by
    rw [resolve, run_get_bind, run_get_bind]
    dsimp only
    cases regex.or e.lastRegex <;> rfl

lemma steady_searched (c : Command) (result : Except Regex.Exhausted α) :
    Steady n fault (searched c result) := by
  cases result with
  | ok found => exact Steady.pure found
  | error _ => exact steady_fail _ _

lemma steady_atLast : Steady n fault atLast := steady_hasNext.bind fun _ => Steady.pure _

lemma steady_meets (c : Command) (a : Address) : Steady n fault (meets c a) := by
  refine Steady.look (fun _ _ => rfl) fun e => ?_
  cases a with
  | line number => exact Steady.pure _
  | last => exact steady_atLast
  | pattern regex =>
      refine (steady_resolve c regex).bind fun regex => ?_
      exact Steady.look (fun _ _ => rfl) fun e => steady_searched c _
  | step first step => cases step <;> exact Steady.pure _
  | zero => exact Steady.pure _

lemma steady_endLine (stop : RangeEnd) (line : ℕ) : Steady n fault (endLine stop line) := by
  unfold endLine
  split
  · exact Steady.pure _
  · exact steady_atLast.bind fun _ => Steady.pure _
  all_goals exact Steady.pure _

lemma steady_advanceRange (c : Command) (first : Address) (stop : RangeEnd) (state : RangeState) :
    Steady n fault (advanceRange c first stop state) := by
  refine Steady.look (fun _ _ => rfl) fun e =>
    Steady.ite ?_ ((steady_meets c first).bind fun _ => Steady.ite ?_ (Steady.pure _))
  · split
    · exact Steady.pure _
    · exact (steady_meets c _).bind fun _ => Steady.pure _
    · exact Steady.pure _
  · exact (steady_endLine _ _).bind fun _ => Steady.pure _

lemma steady_inRange (c : Command) (first : Address) (stop : RangeEnd) (slot : ℕ) :
    Steady n fault (inRange c first stop slot) := by
  have moved (state : RangeState) : Steady n fault (inRange.moved c first stop slot state) :=
    (steady_advanceRange c first stop state).bind fun _ =>
      Steady.andGo (Steady.blind fun _ _ => rfl) _
  refine Steady.look (fun _ _ => rfl) fun e => ?_
  cases e.ranges[slot]? with
  | none => exact Steady.pure _
  | some state =>
      dsimp only
      split
      · exact Steady.ite (Steady.pure _) (moved state)
      · exact moved state

lemma steady_applies (c : Command) : Steady n fault (applies c) := by
  rw [applies]
  cases c.selection with
  | all => exact Steady.pure _
  | single a => exact (steady_meets c a).bind fun _ => Steady.pure _
  | range first stop slot => exact (steady_inRange c first stop slot).bind fun _ => Steady.pure _

/-! ### Commands -/

lemma steady_edit (f : Text → Text) : Steady n fault (edit f) := Steady.blind fun _ _ => rfl

lemma steady_writeResult (s : Substitution) (text : Text) (terminated : Bool) :
    Steady n fault (writeResult s text terminated) := by
  rw [writeResult]
  cases s.write with
  | none => exact Steady.pure _
  | some target => exact steady_writeTo _ _ _

lemma steady_substituteFor (c : Command) (s : Substitution) (regex : Regex) :
    Steady n fault (substituteFor c s regex) := by
  refine Steady.look (fun _ _ => rfl) fun e => (steady_searched c _).bind fun ⟨result, count⟩ => ?_
  refine Steady.ite (Steady.pure _) ((steady_tell _).bind fun _ => ?_)
  refine Steady.bind (.blind fun _ _ => rfl) fun _ => Steady.ite ?_ (steady_writeResult s _ _)
  exact steady_printPattern.bind fun _ => steady_writeResult s _ _

lemma steady_substitute (c : Command) (s : Substitution) : Steady n fault (substitute c s) := by
  rw [substitute_eq]
  refine (steady_resolve c _).bind fun regex => Steady.ite ?_ (steady_substituteFor c s regex)
  exact (steady_fail c _).bind fun _ => steady_substituteFor c s regex

lemma steady_test (condition : Condition) : Steady n fault (test condition) := by
  cases condition <;> exact Steady.blind fun _ _ => rfl

lemma steady_atEnd : Steady n fault atEnd :=
  steady_hasNext.bind fun _ => Steady.look (fun _ _ => rfl) fun _ => Steady.pure _

lemma steady_next (following : ℕ) : Steady n fault (next following) := by
  refine steady_atEnd.bind fun _ => Steady.ite (Steady.pure _) ?_
  refine (steady_endCycle true).bind fun _ => steady_readRecord.bind fun record => ?_
  cases record with
  | none => exact Steady.pure _
  | some record => exact (steady_load _ _).andGo _

lemma steady_appendNext (following : ℕ) : Steady n fault (appendNext following) := by
  refine steady_atEnd.bind fun _ => Steady.ite (Steady.pure _) ?_
  refine steady_release.bind fun _ => steady_readRecord.bind fun record => ?_
  cases record with
  | none => exact Steady.pure _
  | some record => exact Steady.look (fun _ _ => rfl) fun e => (steady_load _ _).andGo _

lemma steady_perform (c : Command) (following : ℕ) : Steady n fault (perform c following) := by
  rw [perform]
  cases c.action with
  | branch condition label target =>
      refine Steady.look (fun _ _ => rfl) fun _ => (steady_test _).bind fun _ => ?_
      exact Steady.ite ((steady_tell _).andGo _) (Steady.pure _)
  | deleteFirstLine =>
      refine Steady.look (fun _ _ => rfl) fun e => ?_
      dsimp only
      split
      · exact (steady_edit _).andGo _
      · exact Steady.pure _
  | change text =>
      exact Steady.look (fun _ _ => rfl) fun _ =>
        Steady.ite ((steady_printText _).andGo _) (Steady.pure _)
  | next => exact Steady.look (fun _ _ => rfl) fun _ => steady_next _
  | appendNext => exact Steady.look (fun _ _ => rfl) fun _ => steady_appendNext _
  | substitute s => exact Steady.look (fun _ _ => rfl) fun _ => (steady_substitute c s).andGo _
  | transliterate | zap => exact Steady.look (fun _ _ => rfl) fun _ => (steady_edit _).andGo _
  | insert | lineNumber | list | fileName =>
      exact Steady.look (fun _ _ => rfl) fun _ => (steady_printText _).andGo _
  | append | appendFile =>
      exact Steady.look (fun _ _ => rfl) fun _ => (steady_enqueue _).andGo _
  | appendFileLine name =>
      refine Steady.look (fun _ _ => rfl) fun _ => (steady_readLineOf _).bind fun line => ?_
      cases line with
      | none => exact Steady.pure _
      | some line => exact (steady_enqueue _).andGo _
  | print => exact Steady.look (fun _ _ => rfl) fun _ => steady_printPattern.andGo _
  | printFirstLine =>
      refine Steady.look (fun _ _ => rfl) fun e => ?_
      dsimp only
      split
      · exact (steady_printRecord _ _).andGo _
      · exact steady_printPattern.andGo _
  | write | writeFirstLine =>
      exact Steady.look (fun _ _ => rfl) fun _ => (steady_writeTo _ _ _).andGo _
  | hold | holdAppend | get | getAppend | exchange => exact Steady.blind fun _ _ => rfl
  | _ => exact Steady.look (fun _ _ => rfl) fun _ => Steady.pure _

/-! ### Runs -/

lemma steady_beginCycle : Steady n fault beginCycle :=
  Steady.look (fun _ _ => rfl) fun _ => (steady_tell _).andGo _

lemma steady_follow (flow : Flow) : Steady n fault (follow flow) := by
  cases flow with
  | goOn next => exact Steady.pure _
  | endCycle autoprint => exact (steady_endCycle _).andGo _
  | restart => exact (steady_endCycle false).bind fun _ => steady_beginCycle
  | quit autoprint exitCode =>
      refine Steady.look (fun _ _ => rfl) fun _ => (steady_tell _).bind fun _ => ?_
      exact Steady.ite ((steady_endCycle true).andGo _) (Steady.pure _)

lemma steady_step (p : Program) (stage : Stage) : Steady n fault (step p stage) := by
  cases stage with
  | reading =>
      refine steady_readRecord.bind fun record => ?_
      cases record with
      | none => exact Steady.pure _
      | some record => exact (steady_load _ _).bind fun _ => steady_beginCycle
  | running index =>
      cases h : p.commands[index]? with
      | none =>
          rw [step_of_none h]
          exact steady_follow _
      | some c =>
          rw [step_of_some h]
          refine (steady_applies c).bind fun _ => Steady.ite ?_ (Steady.pure _)
          exact (steady_perform c _).bind steady_follow
  | finished result => exact Steady.pure _

/-- Delivers all that waits at the output files; what failed, if anything did. -/
def flushFiles : Edit (Option Failure) :=
  modifyGet fun e =>
    ((Writer.flushAll e.environment.storage e.writers).2.2,
      { e with
        writers := (Writer.flushAll e.environment.storage e.writers).1
        environment :=
          { e.environment with
            storage := (Writer.flushAll e.environment.storage e.writers).2.1 } })

lemma run_flush (e : Editor) :
    flush.run e =
      (flushFiles >>= fun failure => failure.elim (emit Output.flush) throw).run e := by
  have hfiles : flushFiles.run e = (.ok _, _) := rfl
  rw [flush, run_get_bind, run_bind_of_ok hfiles]
  rcases Writer.flushAll e.environment.storage e.writers with ⟨_, _, _ | failure⟩ <;> rfl

lemma steady_flush : Steady n fault flush := by
  refine Steady.congr _ run_flush (Steady.bind (.blind fun _ _ => rfl) fun failure => ?_)
  cases failure with
  | none => exact steady_emit Output.steady_flush
  | some failure => exact Steady.throw failure

variable {p : Program} {e : Editor}

lemma grows_advance (k : ℕ) (stage : Stage) (e : Editor) :
    e.output.Grows (advance p k stage e).2.output := by
  induction k generalizing stage e with
  | zero => exact Output.Grows.refl _
  | succ k ih =>
      have hstep := (steady_step p stage : Steady 0 .noSpace _).grows e
      rw [advance_succ]
      rcases hrun : (step p stage).run e with ⟨failure | stage', e₁⟩ <;> rw [hrun] at hstep
      · exact hstep
      · exact hstep.trans (ih stage' e₁)

/-- Where two runs stand: they went on alike, or that with the capped output has failed after the
first `n` bytes. -/
def KeepsUp (n : ℕ) (fault : Fault) (run run' : Stage × Editor) : Prop :=
  (run.2.output.Fits n ∧ run' = (run.1, run.2.capped n fault)) ∨
    (run.2.output.Cut n run'.2.output ∧ ∃ failure, run'.1 = .finished (.error failure))

lemma KeepsUp.delivered {run run' : Stage × Editor} (h : KeepsUp n fault run run') :
    run'.2.output.sink.delivered = run.2.output.sink.delivered.take n := by
  obtain ⟨hfits, rfl⟩ | ⟨hcut, -⟩ := h
  · exact hfits.delivered_capped
  · exact hcut.delivered

lemma keepsUp_advance (he : e.output.Fits n) (k : ℕ) (stage : Stage) :
    KeepsUp n fault (advance p k stage e) (advance p k stage (e.capped n fault)) := by
  induction k generalizing stage e with
  | zero => exact .inl ⟨he, rfl⟩
  | succ k ih =>
      rw [advance_succ, advance_succ]
      obtain ⟨hfits, hsame⟩ | ⟨hcut, failure, hfailed⟩ := (steady_step p stage).follows e he
      · rw [hsame]
        rcases hrun : (step p stage).run e with ⟨failure | stage', e₁⟩ <;> rw [hrun] at hfits
        · exact .inl ⟨hfits, rfl⟩
        · exact ih hfits stage'
      · have hright : goOnWith p k ((step p stage).run (e.capped n fault)) =
            (.finished (.error failure), ((step p stage).run (e.capped n fault)).2) := by
          rw [show (step p stage).run (e.capped n fault) =
            (.error failure, ((step p stage).run (e.capped n fault)).2) from Prod.ext hfailed rfl]
          rfl
        rw [hright]
        refine .inr ⟨?_, failure, rfl⟩
        rcases hrun : (step p stage).run e with ⟨failure | stage', e₁⟩ <;> rw [hrun] at hcut
        · exact hcut
        · exact hcut.grows (grows_advance k stage' e₁)

/-! ### The end of a run -/

/-- At the end the output may be delivered, or not be reached. -/
lemma run_flush_output (e : Editor) :
    (flush.run e).2.output = e.output ∨ (flush.run e).2.output = e.output.flush.1 := by
  have hfiles : flushFiles.run e = (.ok _, _) := rfl
  rw [run_flush, run_bind_of_ok hfiles]
  cases (Writer.flushAll e.environment.storage e.writers).2.2 with
  | none =>
      right
      rw [Option.elim_none, run_emit]
  | some failure => exact .inl rfl

/-- Delivering what waits keeps two runs where they stand: alike, or the one with the capped output
failed after the first `n` bytes. -/
lemma KeepsUp.conclude {r r' : Except Failure ℕ} {e e' : Editor}
    (h : KeepsUp n fault (.finished r, e) (.finished r', e')) :
    ((conclude r e).2.output.Fits n ∧
        conclude r' e' = ((conclude r e).1, (conclude r e).2.capped n fault)) ∨
      ((conclude r e).2.output.Cut n (conclude r' e').2.output ∧
        ∃ failure, (conclude r' e').1 = .error failure) := by
  obtain ⟨hfits, heq⟩ | ⟨hcut, failure, hfailed⟩ := h
  · cases heq
    rw [conclude_snd, conclude_snd]
    obtain ⟨hfits, hsame⟩ | ⟨hcut, failure, hfailed⟩ := steady_flush.follows e hfits
    · refine .inl ⟨hfits, ?_⟩
      rw [Editor.conclude, Editor.conclude, hsame]
      rcases flush.run e with ⟨_ | _, e₁⟩ <;> rfl
    · refine .inr ⟨hcut, ?_⟩
      rw [Editor.conclude]
      rcases hrun : flush.run (e.capped n fault) with ⟨failure | _, e₁⟩ <;> rw [hrun] at hfailed
      · cases r with
        | error failure' => exact ⟨failure', rfl⟩
        | ok _ => exact ⟨failure, rfl⟩
      · cases hfailed
  · cases hfailed
    -- What is flushed later can only add to what was cut off.
    have hgrows := (steady_flush : Steady n fault _).grows e
    rw [conclude_snd, conclude_snd]
    refine .inr ⟨?_, ?_⟩
    · obtain hkept | hflushed := run_flush_output e'
      · rw [hkept]
        exact hcut.grows hgrows
      · rw [hflushed]
        exact (hcut.grows hgrows).flush
    · rw [Editor.conclude]
      rcases flush.run e' with ⟨_ | _, e₁⟩ <;> exact ⟨failure, rfl⟩

/-- If a run ends, so does the one whose output takes only `n` bytes: alike, or it failed after the
first `n` bytes. -/
lemma Concludes.exists_capped {p : Program} {e₀ e : Editor} {result : Except Failure ℕ}
    (h : Concludes p e₀ result e) (hfits : e₀.output.Fits n) (fault : Fault) :
    ∃ result' e', Concludes p (e₀.capped n fault) result' e' ∧
      ((e.output.Fits n ∧ (result', e') = (result, e.capped n fault)) ∨
        (e.output.Cut n e'.output ∧ ∃ failure, result' = .error failure)) := by
  obtain ⟨k, r, e₁, hrun, hend⟩ := h
  have hkeeps : KeepsUp n fault _ _ := keepsUp_advance (p := p) hfits k .reading
  rw [hrun] at hkeeps
  obtain ⟨r', e₁', hrun'⟩ : ∃ r' e₁', advance p k .reading (e₀.capped n fault) =
      (.finished r', e₁') := by
    obtain ⟨-, heq⟩ | ⟨-, failure, hfailed⟩ := hkeeps
    · exact ⟨r, _, heq⟩
    · exact ⟨.error failure, _, Prod.ext hfailed rfl⟩
  rw [hrun'] at hkeeps
  have hlast := hkeeps.conclude
  rw [hend] at hlast
  exact ⟨(conclude r' e₁').1, (conclude r' e₁').2, ⟨k, r', e₁', hrun', rfl⟩, hlast⟩

/-- If a run ends, so does the one whose output takes only `n` bytes. Unless this fails, it delivers
the same. -/
lemma Concludes.capped {p : Program} {e₀ e : Editor} {result : Except Failure ℕ}
    (h : Concludes p e₀ result e) (hfits : e₀.output.Fits n) (fault : Fault) :
    ∃ result' e', Concludes p (e₀.capped n fault) result' e' ∧
      ∀ code, result' = .ok code →
        result = .ok code ∧ e'.output.sink.delivered = e.output.sink.delivered := by
  obtain ⟨result', e', hends, hlast⟩ := h.exists_capped hfits fault
  refine ⟨result', e', hends, fun code hcode => ?_⟩
  obtain ⟨-, heq⟩ | ⟨-, failure, hfailed⟩ := hlast
  · cases heq
    exact ⟨hcode, rfl⟩
  · rw [hfailed] at hcode
    cases hcode

end Steady

/-- If the output takes only `n` bytes, a run has at any time delivered the first `n` of the bytes
that it delivers without this bound. So it is when the run has ended and what still waits is
delivered; and if these bytes are not all, the run has failed or delivering what waits does. -/
theorem capped_delivers_prefix (p : Program) (o : Options) (input : Input) (env : Environment)
    (n : ℕ) (fault : Fault) (e₀ : Editor) (h : (start? p o input .unlimited env).1 = .ok e₀) :
    ∃ e₀', (start? p o input (.limited n fault) env).1 = .ok e₀' ∧
      (∀ k, (advance p k .reading e₀').2.output.sink.delivered =
        (advance p k .reading e₀).2.output.sink.delivered.take n) ∧
      ∀ result e, Concludes p e₀ result e →
        ∃ result' e', Concludes p e₀' result' e' ∧
          e'.output.flush.1.sink.delivered = e.output.flush.1.sink.delivered.take n ∧
          (n < e.output.flush.1.sink.delivered.length →
            (∃ failure, result' = .error failure) ∨ e'.output.flush.2 ≠ none) := by
  obtain ⟨writers, storage, hopen, he₀⟩ := start?_eq_ok h
  have hfits : e₀.output.Fits n := by
    rw [he₀]
    exact ⟨rfl, Nat.zero_le n⟩
  refine ⟨e₀.capped n fault, ?_, fun k => (keepsUp_advance hfits k _).delivered, ?_⟩
  · rw [start?, hopen, he₀]
    rfl
  intro result e hconcludes
  obtain ⟨result', e', hends, hlast⟩ := hconcludes.exists_capped hfits fault
  refine ⟨result', e', hends, ?_⟩
  obtain ⟨hfits, heq⟩ | ⟨hcut, hfailed⟩ := hlast
  · cases heq
    -- The run is over without a byte too many, so only the last delivery can reach the bound.
    obtain ⟨hfits', heq'⟩ | ⟨hcut', hfault⟩ :=
      (Output.steady_flush : Output.Steady n fault _).follows e.output hfits
    · refine ⟨?_, fun hlt => absurd hfits'.length (not_le.2 hlt)⟩
      show (e.output.capped n fault).flush.1.sink.delivered = _
      rw [heq']
      exact hfits'.delivered_capped
    · exact ⟨hcut'.delivered, fun _ => .inr hfault⟩
  · have hgrows := (Output.steady_flush : Output.Steady n fault _).grows e.output
    exact ⟨(hcut.grows hgrows).flush.delivered, fun _ => .inl hfailed⟩

/-- A line that is printed twice, of which the output takes four bytes. -/
theorem capped_delivers_prefix_twice :
    ∃ p e₀ result e,
      Program.parse (.ofText (Text.ofString "p")) .standard = .ok p ∧
      (start? p .standard (.ofFiles [['f']] 10 false) (.limited 4 .sinkFull)
        (.start ⟨[([['f']], [97, 98, 10])], [], []⟩)).1 = .ok e₀ ∧
      Concludes p e₀ result e ∧
      e.output.flush.1.sink.delivered = Text.utf8 (Text.ofString "ab\na") ∧
      ((∃ failure, result = .error failure) ∨ e.output.flush.2 ≠ none) := by
  have hall : outcome? (·.output.flush.1.sink.delivered)
      (Program.parse (.ofText (Text.ofString "p")) .standard) .standard [['f']]
      ⟨[([['f']], [97, 98, 10])], [], []⟩ 4
        = some (.ok 0, Text.utf8 (Text.ofString "ab\nab\n")) := by decide +kernel
  obtain ⟨p, e₀, e, hp, he₀, hends, hbytes⟩ := concludes_of_outcome? hall
  obtain ⟨e₀', he₀', -, hcapped⟩ := capped_delivers_prefix p _ _ _ 4 .sinkFull e₀ he₀
  obtain ⟨result, e', hends', hdelivered, hfails⟩ := hcapped _ e hends
  rw [hbytes] at hdelivered hfails
  exact ⟨p, e₀', result, e', hp, he₀', hends', hdelivered, hfails (by decide +kernel)⟩

end StreamEditor.Editor
