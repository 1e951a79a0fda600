import Mathlib.Tactic
import StreamEditor.Editor.Run

/-!
How changes of the editor are put together.

* `Editor.run_bind` and its companions: what each way of putting changes together does.
* `Editor.sequel`: what is listed of what comes after a change.
* `Editor.Moves`: a change, failed or not, stays within a relation of editors.
* `Editor.Returns`: what a change gives back, unless it fails.
* `Editor.AgreesAt`, `Editor.Agrees`: two changes of two editors give the same result and keep the
  editors alike.
* `Editor.substitute_eq`, `Editor.advance_succ`: a substitution and a run taken apart.
-/

namespace StreamEditor.Editor

section Runs

variable {α β : Type}

@[simp] lemma run_pure (a : α) (e : Editor) : (pure a : Edit α).run e = (.ok a, e) := rfl

@[simp] lemma run_modifyGet (f : Editor → α × Editor) (e : Editor) :
    (modifyGet f : Edit α).run e = (.ok (f e).1, (f e).2) := rfl

/-- A sequence goes on from what its first part leaves, unless that failed. -/
lemma run_bind (m : Edit α) (f : α → Edit β) (e : Editor) :
    (m >>= f).run e =
      match m.run e with
      | (.ok a, e) => (f a).run e
      | (.error failure, e) => (.error failure, e) := by
  rw [ExceptT.run, ExceptT.run]
  simp only [bind, ExceptT.bind, ExceptT.mk, StateT.bind, ExceptT.bindCont]
  rcases m e with ⟨failure | a, e₁⟩ <;> rfl

@[simp] lemma run_get_bind (f : Editor → Edit α) (e : Editor) :
    (MonadState.get >>= f).run e = (f e).run e := rfl

@[simp] lemma run_set_bind (s : Editor) (f : PUnit → Edit α) (e : Editor) :
    (set s >>= f).run e = (f ⟨⟩).run s := rfl

lemma run_bind_of_ok {m : Edit α} {f : α → Edit β} {e e₁ : Editor} {a : α}
    (h : m.run e = (.ok a, e₁)) : (m >>= f).run e = (f a).run e₁ := by
  rw [run_bind, h]

lemma run_bind_of_error {m : Edit α} {f : α → Edit β} {e e₁ : Editor} {failure : Failure}
    (h : m.run e = (.error failure, e₁)) : (m >>= f).run e = (.error failure, e₁) := by
  rw [run_bind, h]

/-- Where a sequence succeeds, so do its parts. -/
lemma run_bind_eq_ok {m : Edit α} {f : α → Edit β} {e e' : Editor} {b : β}
    (h : (m >>= f).run e = (.ok b, e')) :
    ∃ a e₁, m.run e = (.ok a, e₁) ∧ (f a).run e₁ = (.ok b, e') := by
  rcases hm : m.run e with ⟨failure | a, e₁⟩
  · rw [run_bind_of_error hm] at h
    cases h
  · rw [run_bind_of_ok hm] at h
    exact ⟨a, e₁, rfl, h⟩

lemma run_readRecord (e : Editor) :
    readRecord.run e =
      (.ok (e.input.read e.environment).1,
        { e with
          input := (e.input.read e.environment).2.1
          environment := (e.input.read e.environment).2.2 }) := rfl

lemma run_hasNext (e : Editor) :
    hasNext.run e =
      (.ok (e.input.hasNext e.environment).1,
        { e with
          input := (e.input.hasNext e.environment).2.1
          environment := (e.input.hasNext e.environment).2.2 }) := rfl

/-- Writing to the output changes the output only. -/
lemma run_emit (f : Output → Output.Attempt) (e : Editor) :
    (emit f).run e =
      ((match (f e.output).2 with
        | none => .ok ()
        | some fault => .error (.output fault.message)),
        { e with output := (f e.output).1 }) := by
  rw [emit, run_get_bind]
  rcases f e.output with ⟨output, _ | fault⟩ <;> rfl

/-- Nothing is written to a file that is not there. -/
lemma run_writeToFile_of_none {e : Editor} {index : ℕ} (h : e.writers[index]? = none)
    (text : Text) (terminated : Bool) :
    (writeToFile index text terminated).run e = (.ok (), e) := by
  rw [writeToFile, run_get_bind, h]
  rfl

/-- Writing to a file changes its writer and the files only. -/
lemma run_writeToFile {e : Editor} {index : ℕ} {writer : Writer}
    (h : e.writers[index]? = some writer) (text : Text) (terminated : Bool) :
    (writeToFile index text terminated).run e =
      ((match (writer.writeRecord e.environment.storage text terminated).2.2 with
        | none => .ok ()
        | some failure => .error failure),
        { e with
          writers := e.writers.set index
            (writer.writeRecord e.environment.storage text terminated).1
          environment := { e.environment with
            storage := (writer.writeRecord e.environment.storage text terminated).2.1 } }) := by
  rw [writeToFile, run_get_bind, h]
  dsimp only
  rcases writer.writeRecord e.environment.storage text terminated with
    ⟨writer', storage, _ | failure⟩ <;> rfl

/-- What is listed of what comes after a change; nothing if it failed. -/
def sequel {γ : Type} (m : Edit α) (next : α → Editor → List γ) (e : Editor) : List γ :=
  match m.run e with
  | (.ok a, e) => next a e
  | (.error _, _) => []

lemma sequel_nil {γ : Type} (m : Edit α) (e : Editor) :
    sequel m (fun _ _ => ([] : List γ)) e = [] := by
  rw [sequel]
  split <;> rfl

lemma run_bind_congr {m n : Edit α} {e e₁ : Editor} (h : m.run e = n.run e₁) (f : α → Edit β) :
    (m >>= f).run e = (n >>= f).run e₁ := by
  rw [run_bind, run_bind, h]

end Runs

/-! ### One editor -/

/-- Whether `m` fails or not, it leads from an editor to one in the relation `R` to it. -/
def Moves {α : Type} (R : Editor → Editor → Prop) (m : Edit α) : Prop := ∀ e, R e (m.run e).2

section Moves

variable {α β : Type} {R S : Editor → Editor → Prop} {m : Edit α} {f : α → Edit β}

lemma Moves.mono (h : Moves R m) (hRS : ∀ e e', R e e' → S e e') : Moves S m :=
  fun e => hRS _ _ (h e)

lemma Moves.modify {g : Editor → Editor} (h : ∀ e, R e (g e)) : Moves R (modify g) := h

lemma Moves.modifyGet {g : Editor → α × Editor} (h : ∀ e, R e (g e).2) :
    Moves R (modifyGet g) := h

/-- The editor that is looked at is the one from which the rest goes on. -/
lemma Moves.get {f : Editor → Edit α} (h : ∀ e, R e ((f e).run e).2) :
    Moves R (MonadState.get >>= f) := h

/-- What is done with the editor that is looked at does not depend on its being the present one. -/
lemma Moves.get_bind {f : Editor → Edit α} (h : ∀ e, Moves R (f e)) :
    Moves R (MonadState.get >>= f) := fun e => h e e

lemma Moves.ite {c : Prop} [Decidable c] {m m' : Edit α} (h : Moves R m) (h' : Moves R m') :
    Moves R (if c then m else m') := by
  split
  · exact h
  · exact h'

lemma Moves.bind_at [IsTrans Editor R] {e : Editor} (hm : R e (m.run e).2)
    (hf : ∀ a, Moves R (f a)) : R e ((m >>= f).run e).2 := by
  rw [run_bind]
  rcases h : m.run e with ⟨failure | a, e₁⟩
  · rw [h] at hm
    exact hm
  · rw [h] at hm
    exact IsTrans.trans _ _ _ hm (hf a e₁)

lemma Moves.bind [IsTrans Editor R] (hm : Moves R m) (hf : ∀ a, Moves R (f a)) :
    Moves R (m >>= f) := fun e => Moves.bind_at (hm e) hf

variable [Std.Refl R]

lemma Moves.pure (a : α) : Moves R (Pure.pure a) := fun e => Std.Refl.refl e

lemma Moves.throw (failure : Failure) : Moves R (throw failure : Edit α) :=
  fun e => Std.Refl.refl e

lemma Moves.forM [IsTrans Editor R] {γ : Type} {f : γ → Edit PUnit} (h : ∀ c, Moves R (f c))
    (l : List γ) : Moves R (l.forM f) := by
  induction l with
  | nil => exact Moves.pure _
  | cons c l ih => exact (h c).bind fun _ => ih

end Moves

/-- If `m` succeeds, its result satisfies `Q`. -/
def Returns {α : Type} (m : Edit α) (Q : α → Prop) : Prop :=
  ∀ e a e', m.run e = (.ok a, e') → Q a

section Returns

variable {α β : Type} {Q : α → Prop} {m : Edit α}

lemma Returns.pure {a : α} (h : Q a) : Returns (Pure.pure a) Q := by
  intro e b e' hb
  cases hb
  exact h

/-- The result of a sequence is that of its last part. -/
lemma Returns.after {m : Edit β} {f : β → Edit α} (h : ∀ b, Returns (f b) Q) :
    Returns (m >>= f) Q := by
  intro e a e' hm
  obtain ⟨b, e₁, -, hf⟩ := run_bind_eq_ok hm
  exact h b _ _ _ hf

lemma Returns.bind {P : β → Prop} {m : Edit β} {f : β → Edit α} (hm : Returns m P)
    (h : ∀ b, P b → Returns (f b) Q) : Returns (m >>= f) Q := by
  intro e a e' hmf
  obtain ⟨b, e₁, hb, hf⟩ := run_bind_eq_ok hmf
  exact h b (hm _ _ _ hb) _ _ _ hf

lemma Returns.ite {c : Prop} [Decidable c] {m m' : Edit α} (h : Returns m Q)
    (h' : Returns m' Q) : Returns (if c then m else m') Q := by
  split
  · exact h
  · exact h'

end Returns

/-! ### Two editors -/

/-- From two editors, `m` and `m'` give the same result and leave editors in the relation `R`. -/
def AgreesAt {α : Type} (R : Editor → Editor → Prop) (m m' : Edit α) (e e' : Editor) : Prop :=
  (m.run e).1 = (m'.run e').1 ∧ R (m.run e).2 (m'.run e').2

/-- From any two editors in the relation `R`, `m` and `m'` give the same result and leave editors
in this relation. -/
def Agrees {α : Type} (R : Editor → Editor → Prop) (m m' : Edit α) : Prop :=
  ∀ e e', R e e' → AgreesAt R m m' e e'

section Agrees

variable {α β : Type} {R : Editor → Editor → Prop} {m m' : Edit α} {f f' : α → Edit β}
  {e e' : Editor}

/-- Changes that come to the same agree if what they come to does. -/
lemma AgreesAt.of_run {n n' : Edit α} {e₁ e₁' : Editor} (h : m.run e = n.run e₁)
    (h' : m'.run e' = n'.run e₁') (hn : AgreesAt R n n' e₁ e₁') : AgreesAt R m m' e e' := by
  rw [AgreesAt, h, h']
  exact hn

lemma AgreesAt.pure {a : α} (h : R e e') : AgreesAt R (Pure.pure a) (Pure.pure a) e e' := ⟨rfl, h⟩

lemma Agrees.pure (a : α) : Agrees R (Pure.pure a) (Pure.pure a) := fun _ _ => AgreesAt.pure

lemma Agrees.throw (failure : Failure) : Agrees R (throw failure : Edit α) (throw failure) :=
  fun _ _ h => ⟨rfl, h⟩

/-- Both sides go on from what their first parts leave, unless these fail. -/
lemma AgreesAt.bind_run (hm : AgreesAt R m m' e e')
    (hf : ∀ a e₁ e₁', m.run e = (.ok a, e₁) → m'.run e' = (.ok a, e₁') → R e₁ e₁' →
      AgreesAt R (f a) (f' a) e₁ e₁') :
    AgreesAt R (m >>= f) (m' >>= f') e e' := by
  obtain ⟨hresult, hR⟩ := hm
  rcases h : m.run e with ⟨failure | a, e₁⟩ <;> rcases h' : m'.run e' with ⟨failure' | a', e₁'⟩ <;>
    rw [h, h'] at hresult hR
  · rw [AgreesAt, run_bind_of_error h, run_bind_of_error h']
    exact ⟨congrArg Except.error (Except.error.inj hresult), hR⟩
  · cases hresult
  · cases hresult
  · cases hresult
    exact AgreesAt.of_run (run_bind_of_ok h) (run_bind_of_ok h') (hf a e₁ e₁' h h' hR)

lemma AgreesAt.bind (hm : AgreesAt R m m' e e') (hf : ∀ a, Agrees R (f a) (f' a)) :
    AgreesAt R (m >>= f) (m' >>= f') e e' :=
  hm.bind_run fun a _ _ _ _ hR => hf a _ _ hR

lemma Agrees.bind (hm : Agrees R m m') (hf : ∀ a, Agrees R (f a) (f' a)) :
    Agrees R (m >>= f) (m' >>= f') := fun e e' h => (hm e e' h).bind hf

lemma Agrees.get {f f' : Editor → Edit α} (h : ∀ e e', R e e' → AgreesAt R (f e) (f' e') e e') :
    Agrees R (MonadState.get >>= f) (MonadState.get >>= f') := h

lemma Agrees.modify {g g' : Editor → Editor} (h : ∀ e e', R e e' → R (g e) (g' e')) :
    Agrees R (modify g) (modify g') := fun e e' hR => ⟨rfl, h e e' hR⟩

lemma Agrees.ite {c : Prop} [Decidable c] {n n' : Edit α} (h : Agrees R m m')
    (h' : Agrees R n n') : Agrees R (if c then m else n) (if c then m' else n') := by
  split
  · exact h
  · exact h'

lemma Agrees.forM {γ : Type} {f f' : γ → Edit PUnit} {l : List γ}
    (h : ∀ c ∈ l, Agrees R (f c) (f' c)) : Agrees R (l.forM f) (l.forM f') := by
  induction l with
  | nil => exact Agrees.pure _
  | cons c l ih =>
      refine (h c (List.mem_cons_self ..)).bind fun _ => ih fun d hd => ?_
      exact h d (List.mem_cons_of_mem c hd)

end Agrees

/-! ### Telling and reading on -/

/-- The editor after an event is told, if the run is to be traced. -/
def told (event : Event) (e : Editor) : Editor :=
  if e.options.debug then { e with environment := e.environment.note (.event event) } else e

/-- A run that quits ends its last cycle after it has told so. -/
lemma run_quit (exitCode : ℕ) (e : Editor) :
    (follow (.quit true exitCode)).run e =
      (endCycle true >>= fun _ => pure (.finished (.ok exitCode))).run
        (told (.quit e.lineNumber exitCode) e) := rfl

/-- The number of the record before one that is read; none counts before the first record of a
stream. -/
def lineBefore (e : Editor) : ℕ :=
  if e.options.separate && e.input.recordIndex ≠ e.fileIndex then 0 else e.lineNumber

/-- What is left of reading the next record if there is one. -/
def nextAfter (following : ℕ) : Edit Flow := do
  endCycle true
  match ← readRecord with
  | none => return .quit false 0
  | some record =>
      load record record.content
      return .goOn following

/-- What is left of appending the next record if there is one. -/
def appendAfter (following : ℕ) : Edit Flow := do
  release
  match ← readRecord with
  | none => return .quit true 0
  | some record =>
      load record ((← get).pattern ++ '\n' :: record.content)
      return .goOn following

section Reading

variable {c : Command} {following : ℕ} {e e₁ : Editor} {found : Bool}

lemma lineBefore_of_joined (h : e.options.separate = false) : lineBefore e = e.lineNumber := by
  rw [lineBefore, h]
  rfl

lemma lineBefore_of_same (h : e.input.recordIndex = e.fileIndex) :
    lineBefore e = e.lineNumber := by
  simp [lineBefore, h]

lemma lineBefore_of_new (hs : e.options.separate = true)
    (h : e.input.recordIndex ≠ e.fileIndex) : lineBefore e = 0 := by
  simp [lineBefore, hs, h]

lemma run_atEnd (h : hasNext.run e = (.ok found, e₁)) :
    atEnd.run e = (.ok (!found && !e₁.options.separate), e₁) := by
  rw [atEnd, run_bind_of_ok h]
  rfl

lemma run_atEnd_of_last (h : hasNext.run e = (.ok false, e₁))
    (hjoined : e₁.options.separate = false) : atEnd.run e = (.ok true, e₁) := by
  rw [run_atEnd h, hjoined]
  rfl

lemma run_atEnd_of_more (h : hasNext.run e = (.ok found, e₁))
    (hgo : found = true ∨ e₁.options.separate = true) : atEnd.run e = (.ok false, e₁) := by
  rw [run_atEnd h]
  obtain rfl | hseparate := hgo
  · rfl
  · rw [hseparate, Bool.not_true, Bool.and_false]

lemma run_next_at_end (hc : c.action = .next) (h : hasNext.run e = (.ok false, e₁))
    (hjoined : e₁.options.separate = false) (following : ℕ) :
    (perform c following).run e = (.ok (.quit true 0), e₁) := by
  rw [perform, run_get_bind, hc]
  exact run_bind_of_ok (run_atEnd_of_last h hjoined)

lemma run_next (hc : c.action = .next) (h : hasNext.run e = (.ok found, e₁))
    (hgo : found = true ∨ e₁.options.separate = true) (following : ℕ) :
    (perform c following).run e = (nextAfter following).run e₁ := by
  rw [perform, run_get_bind, hc]
  exact run_bind_of_ok (run_atEnd_of_more h hgo)

lemma run_appendNext_at_end (hc : c.action = .appendNext) (h : hasNext.run e = (.ok false, e₁))
    (hjoined : e₁.options.separate = false) (following : ℕ) :
    (perform c following).run e = (.ok (.quit true 0), e₁) := by
  rw [perform, run_get_bind, hc]
  exact run_bind_of_ok (run_atEnd_of_last h hjoined)

lemma run_appendNext (hc : c.action = .appendNext) (h : hasNext.run e = (.ok found, e₁))
    (hgo : found = true ∨ e₁.options.separate = true) (following : ℕ) :
    (perform c following).run e = (appendAfter following).run e₁ := by
  rw [perform, run_get_bind, hc]
  exact run_bind_of_ok (run_atEnd_of_more h hgo)

end Reading

/-! ### Substitutions and steps -/

/-- Writes the result of a substitution where it asks for that. -/
def writeResult (s : Substitution) (text : Text) (terminated : Bool) : Edit Unit :=
  match s.write with
  | some target => writeTo target text terminated
  | none => return ()

/-- Substitutes for what matches an expression. -/
def substituteFor (c : Command) (s : Substitution) (regex : Regex) : Edit Unit := do
  let e ← get
  let (result, count) ←
    searched c (regex.replace s.template s.occurrence s.everywhere e.pattern)
  if count = 0 then return ()
  tell (.substituted count)
  modify fun e => { e with pattern := result, substituted := true }
  if s.print then printPattern
  writeResult s result e.terminated

lemma substitute_eq (c : Command) (s : Substitution) :
    substitute c s =
      resolve c s.regex >>= fun regex =>
        if regex.groupCount ≤ s.template.maxGroup then
          fail c (invalidReference s.template.maxGroup) >>= fun _ : Unit => substituteFor c s regex
        else substituteFor c s regex := rfl

section Steps

variable {p : Program} {index : ℕ}

lemma step_of_none (h : p.commands[index]? = none) :
    step p (.running index) = follow (.endCycle true) := by
  rw [step, h]

lemma step_of_some {c : Command} (h : p.commands[index]? = some c) :
    step p (.running index) =
      applies c >>= fun selected =>
        if selected then perform c (index + 1) >>= follow
        else pure (.running (skip c (index + 1))) := by
  rw [step, h]

/-- A step at a command that applies. -/
lemma run_step_of_applies {c : Command} {e e₁ e₂ : Editor} {flow : Flow}
    (h : p.commands[index]? = some c) (happlies : (applies c).run e = (.ok true, e₁))
    (hperform : (perform c (index + 1)).run e₁ = (.ok flow, e₂)) :
    (step p (.running index)).run e = (follow flow).run e₂ := by
  rw [step_of_some h, run_bind_of_ok happlies, if_pos rfl, run_bind_of_ok hperform]

/-- A step at a command that does not apply. -/
lemma run_step_of_skips {c : Command} {e e₁ : Editor} (h : p.commands[index]? = some c)
    (happlies : (applies c).run e = (.ok false, e₁)) :
    (step p (.running index)).run e = (.ok (.running (skip c (index + 1))), e₁) := by
  rw [step_of_some h, run_bind_of_ok happlies]
  rfl

/-- What is left to run after a step. -/
def goOnWith (p : Program) (count : ℕ) : Except Failure Stage × Editor → Stage × Editor
  | (.ok stage, e) => advance p count stage e
  | (.error failure, e) => (.finished (.error failure), e)

lemma advance_succ (p : Program) (count : ℕ) (stage : Stage) (e : Editor) :
    advance p (count + 1) stage e = goOnWith p count ((step p stage).run e) := by
  cases stage with
  | finished result => rw [advance_finished, step, run_pure, goOnWith, advance_finished]
  | reading =>
    rw [advance]
    · rcases (step p .reading).run e with ⟨failure | stage, e₁⟩ <;> rfl
    · simp
  | running index =>
    rw [advance]
    · rcases (step p (.running index)).run e with ⟨failure | stage, e₁⟩ <;> rfl
    · simp

/-- Steps that agree lead to the same stage. -/
lemma AgreesAt.goOnWith {R : Editor → Editor → Prop} {m m' : Edit Stage} {e e' : Editor}
    (h : AgreesAt R m m' e e') :
    (goOnWith p 0 (m'.run e')).1 = (goOnWith p 0 (m.run e)).1 ∧
      R (goOnWith p 0 (m.run e)).2 (goOnWith p 0 (m'.run e')).2 := by
  rcases hrun : m.run e with ⟨failure | stage, e₁⟩ <;>
    rcases hrun' : m'.run e' with ⟨failure' | stage', e₁'⟩ <;> rw [AgreesAt, hrun, hrun'] at h
  · cases h.1
    exact ⟨rfl, h.2⟩
  · cases h.1
  · cases h.1
  · cases h.1
    exact ⟨rfl, h.2⟩

/-- The last step of a run. -/
lemma advance_succ_last (p : Program) (count : ℕ) (stage : Stage) (e : Editor) :
    advance p (count + 1) stage e =
      goOnWith p 0 ((step p (advance p count stage e).1).run (advance p count stage e).2) := by
  rw [advance_add, advance_succ]

end Steps

end StreamEditor.Editor
