import StreamEditor.Proofs.Editor.Asking
import StreamEditor.Proofs.Output.Stored
import StreamEditor.Proofs.Program.WellFormed

/-!
Relations of editors that no run leaves.

* `Editor.Still`: a relation that the basic changes stay within, except those that write or touch
  what waits: those of the state of the program alone, and one rule for each way of reading.
* `Editor.Still.applies`: so does asking whether a command applies.
* `Editor.Calm`: a relation that the basic changes stay within, except those that write elsewhere
  than to the output.
* `Editor.Calm.perform`: so does a command without a target.
* `Editor.Confined`: a relation that all basic changes stay within.
* `Editor.Confined.moves_step`, `Editor.Confined.advance`: so do a step and a run.
-/

namespace StreamEditor.Editor

/-- The basic changes stay within the relation `R`, if nothing is written, and nothing begins to
wait or ceases to. -/
structure Still (R : Editor → Editor → Prop) : Prop where
  aside : ∀ {e e' : Editor}, e'.options = e.options → e'.environment = e.environment →
    e'.input = e.input → e'.output = e.output → e'.writers = e.writers → e'.queue = e.queue → R e e'
  tell : ∀ event, Moves R (tell event)
  readRecord : Moves R readRecord
  hasNext : Moves R hasNext
  readLineOf : ∀ name, Moves R (readLineOf name)

/-- The basic changes stay within the relation `R`, if nothing is written to files or to the
standard error stream. -/
structure Calm (R : Editor → Editor → Prop) : Prop extends Still R where
  requeue : ∀ (e : Editor) queue, R e { e with queue }
  emit : ∀ f, Output.Extends f → Moves R (emit f)
  readFile : ∀ name, Moves R (deliver (.file name))

/-- The basic changes stay within the relation `R`. -/
structure Confined (R : Editor → Editor → Prop) : Prop extends Calm R where
  writeErrors : ∀ text terminated, Moves R (writeTo .errors text terminated)
  writeToFile : ∀ index text terminated, Moves R (writeToFile index text terminated)

namespace Still

variable {R : Editor → Editor → Prop} {α : Type}

/-- Asking whether a command applies is looking on, and a change aside. -/
lemma looking (h : Still R) : Looking R :=
  ⟨fun _ _ _ => h.aside rfl rfl rfl rfl rfl rfl, h.hasNext⟩

lemma refl (h : Still R) : Std.Refl R := h.looking.refl

lemma pure (h : Still R) (a : α) : Moves R (Pure.pure a) := h.looking.pure a

lemma throw (h : Still R) (failure : Failure) : Moves R (throw failure : Edit α) :=
  h.looking.throw failure

/-! ### Single changes -/

lemma load (h : Still R) (record : Record) (pattern : Text) : Moves R (load record pattern) :=
  Moves.modify fun _ => h.aside rfl rfl rfl rfl rfl rfl

lemma resolve (h : Still R) (c : Command) (regex : Option Regex) : Moves R (resolve c regex) :=
  h.looking.resolve c regex

lemma searched (h : Still R) (c : Command) (result : Except Regex.Exhausted α) :
    Moves R (searched c result) := h.looking.searched c result

lemma edit (h : Still R) (f : Text → Text) : Moves R (edit f) :=
  Moves.modify fun _ => h.aside rfl rfl rfl rfl rfl rfl

lemma test (h : Still R) (condition : Condition) : Moves R (test condition) := by
  refine Moves.modifyGet fun e => ?_
  cases condition <;> exact h.aside rfl rfl rfl rfl rfl rfl

variable [IsTrans Editor R]

lemma applies (h : Still R) (c : Command) : Moves R (applies c) := h.looking.applies c

/-! ### Sequences -/

lemma atEnd (h : Still R) : Moves R atEnd :=
  h.hasNext.bind fun _ => Moves.get_bind fun _ => h.pure _

lemma beginCycle (h : Still R) : Moves R beginCycle :=
  Moves.get_bind fun _ => (h.tell _).bind fun _ => h.pure _

/-- A command that does one thing and goes on. -/
lemma goOn (h : Still R) {m : Edit α} (hm : Moves R m) (flow : Flow) :
    Moves R (m >>= fun _ => Pure.pure flow) := hm.bind fun _ => h.pure _

end Still

namespace Calm

variable {R : Editor → Editor → Prop} {α : Type}

/-! ### Output -/

lemma printRecord (h : Calm R) (text : Text) (terminated : Bool) :
    Moves R (printRecord text terminated) := h.emit _ (Output.extends_writeRecord _ _)

lemma printText (h : Calm R) (text : Text) : Moves R (printText text) :=
  h.emit _ (Output.extends_writeText _)

lemma printPattern (h : Calm R) : Moves R printPattern :=
  Moves.get_bind fun _ => h.printRecord _ _

lemma enqueue (h : Calm R) (q : Queued) : Moves R (enqueue q) := Moves.modify fun _ => h.requeue _ _

lemma deliver (h : Calm R) (q : Queued) : Moves R (deliver q) := by
  cases q with
  | text t => exact h.printText t
  | file name => exact h.readFile name

variable [IsTrans Editor R]

lemma release (h : Calm R) : Moves R release := by
  have := h.refl
  refine Moves.get fun e => ?_
  exact IsTrans.trans _ _ _ (h.requeue e []) (Moves.forM h.deliver _ _)

lemma endCycle (h : Calm R) (autoprint : Bool) : Moves R (endCycle autoprint) :=
  Moves.get_bind fun _ => Moves.ite (h.printPattern.bind fun _ => h.release) h.release

/-! ### Commands -/

lemma substitute (h : Calm R) (c : Command) (s : Substitution)
    (hwrite : ∀ text terminated, Moves R (writeResult s text terminated)) :
    Moves R (substitute c s) := by
  have hfor : ∀ regex, Moves R (substituteFor c s regex) := by
    intro regex
    refine Moves.get_bind fun e => (h.searched c _).bind fun ⟨result, count⟩ => ?_
    refine Moves.ite (h.pure _) ((h.tell _).bind fun _ => ?_)
    refine Moves.bind (Moves.modify fun _ => h.aside rfl rfl rfl rfl rfl rfl) fun _ => ?_
    refine Moves.ite ?_ (hwrite _ _)
    exact h.printPattern.bind fun _ => hwrite _ _
  rw [substitute_eq]
  exact (h.resolve c _).bind fun regex =>
    Moves.ite ((h.throw _).bind fun _ => hfor regex) (hfor regex)

lemma next (h : Calm R) (following : ℕ) : Moves R (next following) := by
  refine h.atEnd.bind fun _ => Moves.ite (h.pure _) ?_
  refine (h.endCycle true).bind fun _ => h.readRecord.bind fun record => ?_
  cases record with
  | none => exact h.pure _
  | some record => exact (h.load _ _).bind fun _ => h.pure _

lemma appendNext (h : Calm R) (following : ℕ) : Moves R (appendNext following) := by
  refine h.atEnd.bind fun _ => Moves.ite (h.pure _) ?_
  refine h.release.bind fun _ => h.readRecord.bind fun record => ?_
  cases record with
  | none => exact h.pure _
  | some record => exact Moves.get_bind fun e => (h.load _ _).bind fun _ => h.pure _

/-- A command stays within it if writing to its target does. -/
lemma perform_of (h : Calm R) (c : Command) (following : ℕ)
    (hwrite : ∀ target, c.action.target? = some target → ∀ text terminated,
      Moves R (writeTo target text terminated)) : Moves R (perform c following) := by
  refine Moves.get fun e => ?_
  have done {m : Edit Flow} (hm : Moves R m) : R e (m.run e).2 := hm e
  cases hc : c.action with
  | block _ | blockEnd | label _ | delete | quit _ _ => exact done (h.pure _)
  | branch condition label target =>
      exact done ((h.test _).bind fun _ => Moves.ite (h.goOn (h.tell _) _) (h.pure _))
  | substitute s =>
      refine done (h.goOn (h.substitute c s fun text terminated => ?_) _)
      rw [hc] at hwrite
      cases hs : s.write with
      | none =>
          rw [writeResult, hs]
          exact h.pure _
      | some target =>
          rw [writeResult, hs]
          exact hwrite target hs text terminated
  | transliterate y => exact done (h.goOn (h.edit _) _)
  | insert text => exact done (h.goOn (h.printText _) _)
  | append text => exact done (h.goOn (h.enqueue _) _)
  | change text => exact done (Moves.ite (h.goOn (h.printText _) _) (h.pure _))
  | deleteFirstLine =>
      refine done ?_
      rcases Text.splitLine e.pattern with ⟨first, _ | rest⟩
      · exact h.pure _
      · exact h.goOn (h.edit _) _
  | print => exact done (h.goOn h.printPattern _)
  | printFirstLine =>
      refine done ?_
      rcases Text.splitLine e.pattern with ⟨first, _ | rest⟩
      · exact h.goOn h.printPattern _
      · exact h.goOn (h.printRecord _ _) _
  | next => exact done (h.next _)
  | appendNext => exact done (h.appendNext _)
  | hold | holdAppend | get | getAppend | exchange => exact h.aside rfl rfl rfl rfl rfl rfl
  | appendFile name => exact done (h.goOn (h.enqueue _) _)
  | appendFileLine name =>
      refine done ((h.readLineOf name).bind fun line => ?_)
      cases line with
      | none => exact h.pure _
      | some line => exact h.goOn (h.enqueue _) _
  | write target | writeFirstLine target =>
      rw [hc] at hwrite
      exact done (h.goOn (hwrite target rfl _ _) _)
  | lineNumber | list width | fileName => exact done (h.goOn (h.printText _) _)
  | zap => exact done (h.goOn (h.edit _) _)

/-- A command without a target stays within it. -/
lemma perform (h : Calm R) {c : Command} (hc : c.action.target? = none) (following : ℕ) :
    Moves R (perform c following) :=
  h.perform_of c following fun target ht => by
    rw [hc] at ht
    cases ht

/-! ### Steps -/

lemma follow (h : Calm R) (flow : Flow) : Moves R (follow flow) := by
  cases flow with
  | goOn next => exact h.pure _
  | endCycle autoprint => exact (h.endCycle _).bind fun _ => h.pure _
  | restart => exact (h.endCycle _).bind fun _ => h.beginCycle
  | quit autoprint exitCode =>
      refine Moves.get_bind fun e => (h.tell _).bind fun _ => Moves.ite ?_ (h.pure _)
      exact (h.endCycle _).bind fun _ => h.pure _

end Calm

namespace Confined

variable {R : Editor → Editor → Prop}

lemma writeTo (h : Confined R) (target : Target) (text : Text) (terminated : Bool) :
    Moves R (writeTo target text terminated) := by
  cases target with
  | output => exact h.printRecord _ _
  | errors => exact h.writeErrors _ _
  | file index => exact h.writeToFile _ _ _

variable [IsTrans Editor R]

lemma perform (h : Confined R) (c : Command) (following : ℕ) : Moves R (perform c following) :=
  h.perform_of c following fun target _ => h.writeTo target

/-- A step stays within it. -/
lemma moves_step (h : Confined R) (p : Program) (stage : Stage) : Moves R (step p stage) := by
  cases stage with
  | reading =>
      refine h.readRecord.bind fun record => ?_
      cases record with
      | none => exact h.pure _
      | some record => exact (h.load _ _).bind fun _ => h.beginCycle
  | running index =>
      cases hc : p.commands[index]? with
      | none =>
          rw [step_of_none hc]
          exact h.follow _
      | some c =>
          rw [step_of_some hc]
          refine (h.applies c).bind fun _ => Moves.ite ?_ (h.pure _)
          exact (h.perform c _).bind fun _ => h.follow _
  | finished result => exact h.pure _

/-- A run stays within it. -/
lemma advance (h : Confined R) (p : Program) (count : ℕ) (stage : Stage) (e : Editor) :
    R e (advance p count stage e).2 := by
  induction count generalizing stage e with
  | zero => exact h.aside rfl rfl rfl rfl rfl rfl
  | succ count ih =>
      have hstep := h.moves_step p stage e
      rw [advance_succ]
      rcases hrun : (step p stage).run e with ⟨failure | stage', e₁⟩ <;> rw [hrun] at hstep
      · exact hstep
      · exact IsTrans.trans _ _ _ hstep (ih stage' e₁)

end Confined

end StreamEditor.Editor
