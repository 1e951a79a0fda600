import StreamEditor.Proofs.Editor.Lockstep
import StreamEditor.Proofs.Editor.Outcome

/-!
Two programs that run side by side.

* `Failure.anonymous`: a failure without the command that it names.
* `Editor.Likens`: two changes of two editors give the same result, but for the command that a
  failure names, and keep the editors alike.
* `Editor.likens_applies`, `Editor.likens_perform`: it makes no other difference what a command is
  called and where it stands.
* `Editor.ReadingLockstep`: a relation of editors that look alike to all commands that use no other
  files; `Editor.TotalLockstep` is the same for all commands.
* `Editor.ReadingLockstep.likens_step`, `Editor.likens_advance`: programs whose commands have the
  same effect go through the same stages; `Editor.likens_conclude` is about the end of a run.
-/

namespace StreamEditor

/-- A failure without the command that it names. What was done and why it failed remain, and so does
the exit code. -/
def Failure.anonymous : Failure → Failure
  | .command phase _ _ reason => .environment phase reason
  | failure => failure

/-- A stage without the command that a failure names. -/
def Stage.anonymous : Stage → Stage
  | .finished result => .finished (result.mapError Failure.anonymous)
  | stage => stage

namespace Editor

/-! ### Alike but for names -/

/-- From two editors, `m` and `m'` give the same result, but for the command that a failure names,
and leave editors in the relation `R`. -/
def LikensAt {α : Type} (R : Editor → Editor → Prop) (m m' : Edit α) (e e' : Editor) : Prop :=
  (m'.run e').1.mapError Failure.anonymous = (m.run e).1.mapError Failure.anonymous ∧
    R (m.run e).2 (m'.run e').2

/-- So it is from any two editors in the relation `R`. -/
def Likens {α : Type} (R : Editor → Editor → Prop) (m m' : Edit α) : Prop :=
  ∀ e e', R e e' → LikensAt R m m' e e'

section Likens

variable {α β : Type} {R : Editor → Editor → Prop} {m m' m'' : Edit α} {f f' : α → Edit β}
  {e e' : Editor}

lemma AgreesAt.likens (h : AgreesAt R m m' e e') : LikensAt R m m' e e' :=
  ⟨by rw [h.1], h.2⟩

lemma Agrees.likens (h : Agrees R m m') : Likens R m m' := fun e e' hR => (h e e' hR).likens

lemma Likens.refl (m : Edit α) : Likens Eq m m := by
  rintro e _ rfl
  exact ⟨rfl, rfl⟩

/-- What has the same effect from one editor may take the place of a change. -/
lemma LikensAt.trans (h : LikensAt R m m' e e') (h' : LikensAt Eq m' m'' e' e') :
    LikensAt R m m'' e e' := by
  obtain ⟨hresult, hR⟩ := h
  obtain ⟨hresult', hrest⟩ := h'
  exact ⟨hresult'.trans hresult, hrest ▸ hR⟩

lemma Agrees.trans_likens (h : Agrees R m m') (h' : Likens Eq m' m'') : Likens R m m'' :=
  fun e e' hR => (h e e' hR).likens.trans (h' e' e' rfl)

/-- Both sides go on from what their first parts leave, unless these fail. -/
lemma LikensAt.bind_of_run (hm : LikensAt R m m' e e')
    (hf : ∀ a e₁ e₁', m.run e = (.ok a, e₁) → R e₁ e₁' → LikensAt R (f a) (f' a) e₁ e₁') :
    LikensAt R (m >>= f) (m' >>= f') e e' := by
  obtain ⟨hresult, hR⟩ := hm
  rcases h : m.run e with ⟨failure | a, e₁⟩ <;> rcases h' : m'.run e' with ⟨failure' | a', e₁'⟩ <;>
    rw [h, h'] at hresult hR
  · rw [LikensAt, run_bind_of_error h, run_bind_of_error h']
    exact ⟨congrArg Except.error (Except.error.inj hresult), hR⟩
  · cases hresult
  · cases hresult
  · cases hresult
    rw [LikensAt, run_bind_of_ok h, run_bind_of_ok h']
    exact hf a e₁ e₁' h hR

lemma LikensAt.bind (hm : LikensAt R m m' e e') (hf : ∀ a, Likens R (f a) (f' a)) :
    LikensAt R (m >>= f) (m' >>= f') e e' :=
  hm.bind_of_run fun a e₁ e₁' _ hR => hf a e₁ e₁' hR

lemma Likens.bind (hm : Likens R m m') (hf : ∀ a, Likens R (f a) (f' a)) :
    Likens R (m >>= f) (m' >>= f') := fun e e' h => (hm e e' h).bind hf

lemma Likens.ite {c : Prop} [Decidable c] {n n' : Edit α} (h : Likens R m m')
    (h' : Likens R n n') : Likens R (if c then m else n) (if c then m' else n') := by
  split
  · exact h
  · exact h'

/-- The editor that is looked at is the same on both sides. -/
lemma Likens.get {f f' : Editor → Edit α} (h : ∀ e, Likens Eq (f e) (f' e)) :
    Likens Eq (MonadState.get >>= f) (MonadState.get >>= f') := by
  rintro e _ rfl
  exact h e e e rfl

end Likens

/-! ### Commands by another name -/

section Named

variable {c c' : Command}

lemma likens_fail {α : Type} (reason : Text) :
    Likens Eq (fail c reason : Edit α) (fail c' reason) := by
  rintro e _ rfl
  exact ⟨rfl, rfl⟩

lemma likens_resolve (regex : Option Regex) : Likens Eq (resolve c regex) (resolve c' regex) := by
  refine Likens.get fun e => ?_
  cases regex.or e.lastRegex with
  | none => exact likens_fail _
  | some regex => exact Likens.refl _

lemma likens_searched {α : Type} (result : Except Regex.Exhausted α) :
    Likens Eq (searched c result) (searched c' result) := by
  cases result with
  | ok found => exact Likens.refl _
  | error _ => exact likens_fail _

lemma likens_meets (a : Address) : Likens Eq (meets c a) (meets c' a) := by
  refine Likens.get fun e => ?_
  cases a with
  | pattern regex =>
      refine (likens_resolve regex).bind fun regex => Likens.get fun e => ?_
      exact likens_searched _
  | step first step => cases step <;> exact Likens.refl _
  | line | last | zero => exact Likens.refl _

lemma likens_advanceRange (first : Address) (stop : RangeEnd) (state : RangeState) :
    Likens Eq (advanceRange c first stop state) (advanceRange c' first stop state) := by
  refine Likens.get fun e => Likens.ite ?_ ?_
  · split
    · exact Likens.refl _
    · exact (likens_meets _).bind fun _ => Likens.refl _
    · exact Likens.refl _
  · exact (likens_meets _).bind fun _ => Likens.ite (Likens.refl _) (Likens.refl _)

lemma likens_inRange (first : Address) (stop : RangeEnd) (slot : ℕ) :
    Likens Eq (inRange c first stop slot) (inRange c' first stop slot) := by
  have hmoved (state : RangeState) :
      Likens Eq (inRange.moved c first stop slot state) (inRange.moved c' first stop slot state) :=
    (likens_advanceRange first stop state).bind fun _ => Likens.refl _
  refine Likens.get fun e => ?_
  split
  · exact Likens.refl _
  · split
    · exact Likens.ite (Likens.refl _) (hmoved _)
    · exact hmoved _

/-- Whether a command applies depends on its selection alone. -/
lemma likens_applies (hselection : c'.selection = c.selection) (hnegated : c'.negated = c.negated) :
    Likens Eq (applies c) (applies c') := by
  rw [applies, applies, hselection, hnegated]
  cases c.selection with
  | all => exact Likens.refl _
  | single a => exact (likens_meets a).bind fun _ => Likens.refl _
  | range first stop slot => exact (likens_inRange first stop slot).bind fun _ => Likens.refl _

lemma likens_substitute (s : Substitution) : Likens Eq (substitute c s) (substitute c' s) := by
  have hfor (regex : Regex) : Likens Eq (substituteFor c s regex) (substituteFor c' s regex) :=
    Likens.get fun e => (likens_searched _).bind fun _ => Likens.refl _
  rw [substitute_eq, substitute_eq]
  refine (likens_resolve s.regex).bind fun regex => Likens.ite ?_ (hfor regex)
  exact (likens_fail _).bind fun _ => hfor regex

/-- What a command does depends on its action, and on the ranges of its selection. -/
lemma likens_perform (hselection : c'.selection = c.selection) (hnegated : c'.negated = c.negated)
    (haction : c'.action = c.action) (following : ℕ) :
    Likens Eq (perform c following) (perform c' following) := by
  obtain ⟨letter, selection, negated, action, place⟩ := c
  obtain ⟨letter', selection', negated', action', place'⟩ := c'
  obtain rfl : selection' = selection := hselection
  obtain rfl : negated' = negated := hnegated
  obtain rfl : action' = action := haction
  cases action' with
  | substitute s => exact Likens.get fun e => (likens_substitute s).bind fun _ => Likens.refl _
  | _ => exact Likens.refl _

end Named

/-! ### All commands -/

lemma getElem?_eq_none_of_forall₂ {α β : Type} {Q : α → β → Prop} {l : List α} {l' : List β}
    {i : ℕ} (h : List.Forall₂ Q l l') (hi : l[i]? = none) : l'[i]? = none := by
  rw [List.getElem?_eq_none_iff] at hi ⊢
  rwa [← h.length_eq]

/-- Where one list has an element, another one has a related one. -/
lemma getElem?_of_forall₂ {α β : Type} {Q : α → β → Prop} {l : List α} {l' : List β} {i : ℕ} {a : α}
    (h : List.Forall₂ Q l l') (ha : l[i]? = some a) : ∃ b, l'[i]? = some b ∧ Q a b := by
  obtain ⟨hlt, rfl⟩ := List.getElem?_eq_some_iff.1 ha
  have hlt' : i < l'.length := h.length_eq ▸ hlt
  exact ⟨_, List.getElem?_eq_getElem hlt', h.get hlt hlt'⟩

/-- Editors in the relation `R` look alike to all commands that use no other files, and remain in it
if both read on. -/
structure ReadingLockstep (R : Editor → Editor → Prop) : Prop extends HoldLockstep R where
  separate : ∀ {e e'}, R e e' → e'.options.separate = e.options.separate
  resolve : ∀ c regex, Agrees R (resolve c regex) (resolve c regex)
  readRecord : Agrees R readRecord readRecord
  load : ∀ record pattern, Agrees R (load record pattern) (load record pattern)

/-- Editors in the relation `R` look alike to all commands. -/
structure TotalLockstep (R : Editor → Editor → Prop) : Prop extends FullLockstep R,
  ReadingLockstep R

namespace ReadingLockstep

variable {R : Editor → Editor → Prop} {c : Command}

lemma agrees_atEnd (h : ReadingLockstep R) : Agrees R atEnd atEnd := by
  refine h.hasNext.bind fun found => Agrees.get fun e e' hR => ?_
  rw [h.separate hR]
  exact AgreesAt.pure hR

lemma agrees_next (h : ReadingLockstep R) (following : ℕ) :
    Agrees R (next following) (next following) := by
  refine h.agrees_atEnd.bind fun _ => Agrees.ite (Agrees.pure _) ?_
  refine (h.agrees_endCycle true).bind fun _ => h.readRecord.bind fun record => ?_
  cases record with
  | none => exact Agrees.pure _
  | some record => exact (h.load _ _).bind fun _ => Agrees.pure _

lemma agrees_appendNext (h : ReadingLockstep R) (following : ℕ) :
    Agrees R (appendNext following) (appendNext following) := by
  refine h.agrees_atEnd.bind fun _ => Agrees.ite (Agrees.pure _) ?_
  refine h.release.bind fun _ => h.readRecord.bind fun record => ?_
  cases record with
  | none => exact Agrees.pure _
  | some record =>
      refine Agrees.get fun e e' hR => ?_
      rw [h.pattern hR]
      exact (h.load _ _).bind (fun _ => Agrees.pure _) _ _ hR

/-- A command has the same effect on both sides if what it does with other files has. -/
lemma agrees_perform (h : ReadingLockstep R) (c : Command) (following : ℕ)
    (hwrite : ∀ target, c.action.target? = some target → ∀ text terminated,
      Agrees R (writeTo target text terminated) (writeTo target text terminated))
    (hfile : ∀ name, c.action = .appendFile name →
      Agrees R (enqueue (.file name)) (enqueue (.file name)))
    (hline : ∀ name, c.action = .appendFileLine name →
      Agrees R (readLineOf name) (readLineOf name)) :
    Agrees R (perform c following) (perform c following) := by
  by_cases hnext : c.action = .next
  · rw [perform, hnext]
    exact Agrees.get fun e e' hR => h.agrees_next following e e' hR
  by_cases happend : c.action = .appendNext
  · rw [perform, happend]
    exact Agrees.get fun e e' hR => h.agrees_appendNext following e e' hR
  exact h.toHoldLockstep.agrees_perform following (fun _ _ => h.resolve c _) hwrite hfile
    hline hnext happend

lemma agrees_applies (h : ReadingLockstep R) (c : Command) : Agrees R (applies c) (applies c) :=
  h.toLockstep.agrees_applies fun _ _ => h.resolve c _

variable {p p' : Program}

/-- A step has the same effect on both sides if the commands do to which the programs come. -/
lemma likens_step (h : ReadingLockstep R) {Q : Command → Command → Prop}
    (hcommands : List.Forall₂ Q p.commands p'.commands)
    (hselection : ∀ c c', Q c c' → c'.selection = c.selection ∧ c'.negated = c.negated)
    (hskip : ∀ c c', Q c c' → ∀ following, skip c' following = skip c following)
    (hperform : ∀ c c', Q c c' → ∀ following,
      Likens R (perform c following) (perform c' following)) (stage : Stage) :
    Likens R (step p stage) (step p' stage) := by
  cases stage with
  | reading =>
      refine Agrees.likens (h.readRecord.bind fun record => ?_)
      cases record with
      | none => exact Agrees.pure _
      | some record => exact (h.load _ _).bind fun _ => h.agrees_beginCycle
  | running index =>
      cases hc : p.commands[index]? with
      | none =>
          rw [step_of_none hc, step_of_none (getElem?_eq_none_of_forall₂ hcommands hc)]
          exact (h.agrees_follow _).likens
      | some c =>
          obtain ⟨c', hc', hQ⟩ := getElem?_of_forall₂ hcommands hc
          obtain ⟨hsame, hnegated⟩ := hselection c c' hQ
          rw [step_of_some hc, step_of_some hc']
          refine ((h.agrees_applies c).trans_likens (likens_applies hsame hnegated)).bind
            fun _ => ?_
          refine Likens.ite ((hperform c c' hQ _).bind fun flow => (h.agrees_follow flow).likens) ?_
          rw [hskip c c' hQ]
          exact (Agrees.pure _).likens
  | finished result => exact (Agrees.pure _).likens

end ReadingLockstep

/-- A command has the same effect on both sides. -/
lemma TotalLockstep.agrees_perform {R : Editor → Editor → Prop} (h : TotalLockstep R) (c : Command)
    (following : ℕ) : Agrees R (perform c following) (perform c following) :=
  h.toReadingLockstep.agrees_perform c following (fun target _ => h.writeTo target)
    (fun name _ => h.enqueueFile name) fun name _ => h.readLineOf name

/-- Programs whose steps have the same effect along a run go through the same stages. -/
lemma likens_advance {R : Editor → Editor → Prop} {p p' : Program} {k : ℕ} {stage : Stage}
    {e e' : Editor}
    (h : ∀ j < k, ∀ e₁', R (advance p j stage e).2 e₁' →
      LikensAt R (step p (advance p j stage e).1) (step p' (advance p j stage e).1)
        (advance p j stage e).2 e₁') (hR : R e e') :
    (advance p' k stage e').1.anonymous = (advance p k stage e).1.anonymous ∧
      R (advance p k stage e).2 (advance p' k stage e').2 := by
  induction k generalizing stage e e' with
  | zero => exact ⟨rfl, hR⟩
  | succ k ih =>
      have hfirst : LikensAt R (step p stage) (step p' stage) e e' := h 0 (Nat.succ_pos k) e' hR
      obtain ⟨hresult, hrest⟩ := hfirst
      rw [advance_succ, advance_succ]
      rcases hrun : (step p stage).run e with ⟨failure | stage₁, e₁⟩ <;>
        rcases hrun' : (step p' stage).run e' with ⟨failure' | stage₁', e₁'⟩ <;>
        rw [hrun, hrun'] at hresult hrest
      · exact ⟨congrArg (Stage.finished ∘ Except.error) (Except.error.inj hresult), hrest⟩
      · cases hresult
      · cases hresult
      · obtain rfl : stage₁' = stage₁ := Except.ok.inj hresult
        refine ih (fun j hj => ?_) hrest
        have hlater := h (j + 1) (Nat.succ_lt_succ hj)
        rwa [advance_succ, hrun] at hlater

/-- Where one run has ended so has the other. -/
lemma eq_finished_of_anonymous {stage : Stage} {r : Except Failure ℕ}
    (h : stage.anonymous = (Stage.finished r).anonymous) :
    ∃ r', stage = .finished r' ∧ r'.mapError Failure.anonymous = r.mapError Failure.anonymous := by
  cases stage with
  | reading | running => cases h
  | finished r' => exact ⟨r', rfl, Stage.finished.inj h⟩

/-- Delivering all output at the end makes no difference either. -/
lemma likens_conclude {R : Editor → Editor → Prop} (hflush : Agrees R flush flush) {e e' : Editor}
    (hR : R e e') {r r' : Except Failure ℕ}
    (hr : r'.mapError Failure.anonymous = r.mapError Failure.anonymous) :
    (conclude r' e').1.mapError Failure.anonymous = (conclude r e).1.mapError Failure.anonymous ∧
      R (conclude r e).2 (conclude r' e').2 := by
  obtain ⟨hresult, hrest⟩ := hflush e e' hR
  rw [conclude_fst, conclude_fst, conclude_snd, conclude_snd, hresult]
  refine ⟨?_, hrest⟩
  rcases r with failure | code <;> rcases r' with failure' | code'
  · exact hr
  · cases hr
  · cases hr
  · obtain rfl : code' = code := Except.ok.inj hr
    rfl

end Editor

end StreamEditor
