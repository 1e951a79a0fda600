import StreamEditor.Proofs.Editor.Stays
import StreamEditor.Proofs.Input.Lookahead
import StreamEditor.Proofs.Range.Machine

/-!
What happens when the editor asks a range about the current record.

* `Editor.isMet`, `Editor.isEndMet`: whether the record meets an address or the end of a range.
* `Editor.advanceRange_eq`: a range is moved on as `RangeState.moved` says.
* `Editor.inRange_spec`: an answer is remembered for its record, so that asking again moves
  nothing on.
-/

namespace StreamEditor.Editor

/-- Whether the current record meets an address. A search that is given up, or has nothing to
search for, meets nothing. -/
def isMet (c : Command) (a : Address) (e : Editor) : Bool :=
  match ((meets c a).run e).1 with
  | .ok met => met
  | .error _ => false

/-- Whether the current record meets the end of a range; a number of records is met by none. -/
def isEndMet (c : Command) (stop : RangeEnd) (e : Editor) : Bool :=
  match stop with
  | .address a => isMet c a e
  | _ => false

section Asked

variable {c : Command} {first a : Address} {stop : RangeEnd} {slot : ℕ} {st st' : RangeState}
  {e e' : Editor} {b : Bool}

lemma isMet_of_run (h : (meets c a).run e = (.ok b, e')) : isMet c a e = b := by
  rw [isMet, h]

/-- No record meets the address zero. -/
lemma isMet_zero : isMet c .zero e = false := rfl

/-- The input and the files are as before. -/
structure Unread (e e' : Editor) : Prop where
  input : e'.input = e.input
  environment : e'.environment = e.environment

instance : Std.Refl Unread := ⟨fun _ => ⟨rfl, rfl⟩⟩

instance : IsTrans Editor Unread where
  trans _ _ _ h h' := ⟨h'.input.trans h.input, h'.environment.trans h.environment⟩

/-- A search in the pattern space does not read on. -/
lemma unread_pattern (c : Command) (regex : Option Regex) :
    Moves Unread (meets c (.pattern regex)) := by
  have resolved : Moves Unread (resolve c regex) := by
    refine Moves.get fun e => ?_
    cases regex.or e.lastRegex with
    | none | some => exact ⟨rfl, rfl⟩
  refine Moves.get_bind fun e => resolved.bind fun regex => Moves.get_bind fun e => ?_
  cases regex.isMatch e.pattern with
  | ok found => exact Moves.pure found
  | error _ => exact Moves.throw _

/-- Whether the record is the last does not change while it is looked whether it meets an
address. -/
lemma atLast_after_meets (c : Command) (a : Address) (e : Editor) :
    (atLast.run ((meets c a).run e).2).1 = (atLast.run e).1 := by
  cases a with
  | line n => rfl
  | last => exact congrArg (fun found => Except.ok !found) (e.input.hasNext_again _ _)
  | pattern regex =>
      obtain ⟨hinput, henvironment⟩ := unread_pattern c regex e
      generalize ((meets c (.pattern regex)).run e).2 = e₁ at hinput henvironment ⊢
      show Except.ok (!(e₁.input.hasNext e₁.environment).1)
        = Except.ok (!(e.input.hasNext e.environment).1)
      rw [hinput, henvironment]
  | step first step => cases step <;> rfl
  | zero => rfl

/-- Where a span ends that begins at the current record. -/
lemma knownEnd_of_run {last : Option ℕ} {line : ℕ} {e₁ : Editor}
    (hsame : (atLast.run e₁).1 = (atLast.run e).1)
    (h : (endLine stop line).run e₁ = (.ok last, e')) :
    last = stop.knownEnd line (isEndMet c stop e) := by
  cases stop with
  | address a =>
      cases a with
      | line n =>
          cases h
          rfl
      -- Here alone it is looked on in the input, where the start of the range may have been looked
      -- for.
      | last =>
          have hmet : isEndMet c (.address .last) e = !(e.input.hasNext e.environment).1 := rfl
          have hlast : atLast.run e₁ =
              (.ok (isEndMet c (.address .last) e), (atLast.run e₁).2) := by
            rw [hmet]
            exact Prod.ext hsame rfl
          rw [endLine, run_bind_of_ok hlast] at h
          cases h
          rfl
      | pattern | step | zero =>
          cases h
          rfl
  | following n =>
      cases h
      rfl
  | multiple n =>
      cases n with
      | zero =>
          cases h
          rfl
      | succ n =>
          cases h
          rfl

/-- A range is moved on by whether the record meets its start and its end. -/
lemma advanceRange_eq {e' : Editor}
    (h : (advanceRange c first stop st).run e = (.ok (b, st'), e')) :
    (b, st') = st.moved stop e.lineNumber (isMet c first e) (isEndMet c stop e) := by
  rw [advanceRange, run_get_bind] at h
  dsimp only at h
  -- An open span is looked at for its end only, and one that begins ends at once if its end is
  -- known.
  cases hactive : st.active with
  | true =>
      rw [if_pos hactive] at h
      cases hlast : st.lastLine with
      | some last =>
          rw [RangeState.moved_of_known hactive hlast]
          simp only [hlast] at h
          cases h
          rw [hlast]
      | none =>
          simp only [hlast] at h
          cases stop with
          | address a =>
              rw [RangeState.moved_of_searching hactive hlast]
              rcases hmeets : (meets c a).run e with ⟨failure | met, e₁⟩
              · rw [run_bind_of_error hmeets] at h
                cases h
              · rw [run_bind_of_ok hmeets] at h
                cases h
                rw [isEndMet, isMet_of_run hmeets, hlast]
          | following | multiple =>
              cases h
              simp [RangeState.moved, hactive, hlast]
  | false =>
      rw [if_neg (by simp [hactive])] at h
      rw [RangeState.moved_of_inactive hactive]
      rcases hmeets : (meets c first).run e with ⟨failure | met, e₁⟩
      · rw [run_bind_of_error hmeets] at h
        cases h
      · rw [run_bind_of_ok hmeets] at h
        rw [isMet_of_run hmeets]
        cases met with
        | false =>
            cases h
            rfl
        | true =>
            rw [if_pos rfl] at h ⊢
            rcases hend : (endLine stop e.lineNumber).run e₁ with ⟨failure | last, e₂⟩
            · rw [run_bind_of_error hend] at h
              cases h
            · rw [run_bind_of_ok hend] at h
              cases h
              have hsame : (atLast.run e₁).1 = (atLast.run e).1 := by
                have := atLast_after_meets c first e
                rwa [hmeets] at this
              rw [knownEnd_of_run hsame hend]

/-- Moved on, a range remembers its answer. -/
lemma moved_spec {state : RangeState} (hst : e.ranges[slot]? = some state)
    (h : (inRange.moved c first stop slot state).run e = (.ok b, e')) :
    b = (state.moved stop e.lineNumber (isMet c first e) (isEndMet c stop e)).1 ∧
      e'.ranges[slot]? = some
        { (state.moved stop e.lineNumber (isMet c first e) (isEndMet c stop e)).2 with
          answered := some (e.recordsRead, b) } := by
  rw [inRange.moved] at h
  rcases hadvance : (advanceRange c first stop state).run e with ⟨failure | ⟨answer, st₁⟩, e₁⟩
  · rw [run_bind_of_error hadvance] at h
    cases h
  · have hstays := moves_advanceRange c first stop state e
    rw [hadvance] at hstays
    rw [run_bind_of_ok hadvance] at h
    cases h
    rw [← advanceRange_eq hadvance]
    refine ⟨rfl, ?_⟩
    have hlt : slot < e₁.ranges.length := by
      rw [hstays.ranges]
      exact (List.getElem?_eq_some_iff.1 hst).1
    show (e₁.ranges.set slot _)[slot]? = _
    rw [List.getElem?_set_self hlt, hstays.recordsRead]

/-- A range that is not there includes nothing. -/
lemma inRange_of_none (hst : e.ranges[slot]? = none) :
    (inRange c first stop slot).run e = (.ok false, e) := by
  rw [inRange, run_get_bind]
  simp only [hst]
  rfl

/-- An answer that is remembered is given. -/
lemma inRange_of_answered {state : RangeState} (hst : e.ranges[slot]? = some state)
    (hanswered : state.answered = some (e.recordsRead, b)) :
    (inRange c first stop slot).run e = (.ok b, e) := by
  rw [inRange, run_get_bind]
  simp only [hst, hanswered, if_true]
  rfl

/-- Without an answer for the record the range is moved on. -/
lemma inRange_of_new {state : RangeState} (hst : e.ranges[slot]? = some state)
    (hnew : ∀ answer, state.answered ≠ some (e.recordsRead, answer)) :
    (inRange c first stop slot).run e = (inRange.moved c first stop slot state).run e := by
  rw [inRange, run_get_bind]
  simp only [hst]
  cases hanswered : state.answered with
  | none => rfl
  | some known =>
      have hrecord : known.1 ≠ e.recordsRead := fun he =>
        hnew known.2 (by rw [hanswered, ← he])
      simp only [hrecord, if_false]

/-- An answer is given again for the same record. For another record the range is moved on. -/
lemma inRange_spec {state : RangeState} (hst : e.ranges[slot]? = some state)
    (h : (inRange c first stop slot).run e = (.ok b, e')) :
    (state.answered = some (e.recordsRead, b) ∧ e'.ranges[slot]? = some state) ∨
      ((∀ answer, state.answered ≠ some (e.recordsRead, answer)) ∧
        b = (state.moved stop e.lineNumber (isMet c first e) (isEndMet c stop e)).1 ∧
        e'.ranges[slot]? = some
          { (state.moved stop e.lineNumber (isMet c first e) (isEndMet c stop e)).2 with
            answered := some (e.recordsRead, b) }) := by
  by_cases hknown : ∃ answer, state.answered = some (e.recordsRead, answer)
  · obtain ⟨answer, hanswered⟩ := hknown
    rw [inRange_of_answered hst hanswered] at h
    cases h
    exact .inl ⟨hanswered, hst⟩
  · have hnew : ∀ answer, state.answered ≠ some (e.recordsRead, answer) :=
      fun answer ha => hknown ⟨answer, ha⟩
    rw [inRange_of_new hst hnew] at h
    exact .inr ⟨hnew, moved_spec hst h⟩

/-- The answer is remembered, and it is the one that was remembered if there was one. -/
lemma answered_of_inRange {state : RangeState} (hst : e.ranges[slot]? = some state)
    (h : (inRange c first stop slot).run e = (.ok b, e')) :
    ∃ state', e'.ranges[slot]? = some state' ∧ state'.answered = some (e.recordsRead, b) ∧
      ∀ answer, state.answered = some (e.recordsRead, answer) → answer = b := by
  obtain ⟨hanswered, hrange⟩ | ⟨hnew, -, hrange⟩ := inRange_spec hst h
  · refine ⟨state, hrange, hanswered, fun answer ha => ?_⟩
    rw [hanswered] at ha
    cases ha
    rfl
  · exact ⟨_, hrange, rfl, fun answer ha => absurd ha (hnew answer)⟩

end Asked

end StreamEditor.Editor
