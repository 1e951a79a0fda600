import StreamEditor.Proofs.Editor.Flushed
import StreamEditor.Proofs.Editor.Requests
import StreamEditor.Proofs.Output.Closed
import StreamEditor.Proofs.Output.Resumed
import StreamEditor.Regex.Builtin

/-!
Empty regular expressions, and substitutions that fail because of their expression.

* `Selection.filled`, `Action.filled`: an expression in place of the empty ones.
* `Editor.Reuses`: what the expressions of a command mean to a run that comes to it.
* `Editor.Untouched`: what a command works on, and all that was written, is as before.
* `Editor.untouched_of_step_fails`: so it is when a substitution fails because of its expression.
* `Editor.empty_regex_reuses_last`: both of every run, and what is delivered after such a failure.
-/

namespace StreamEditor

/-- The address with an expression in place of an empty one. -/
def Address.filled (re : Regex) : Address → Address
  | .pattern none => .pattern (some re)
  | a => a

/-- The end of a range with an expression in place of an empty one. -/
def RangeEnd.filled (re : Regex) : RangeEnd → RangeEnd
  | .address a => .address (a.filled re)
  | stop => stop

/-- The selection with an expression in place of the empty ones. -/
def Selection.filled (re : Regex) : Selection → Selection
  | .all => .all
  | .single a => .single (a.filled re)
  | .range start stop slot => .range (start.filled re) (stop.filled re) slot

/-- The action with an expression in place of an empty one. -/
def Action.filled (re : Regex) : Action → Action
  | .substitute s => .substitute { s with regex := s.regex.or (some re) }
  | a => a

/-- A template refers to no group above the highest. -/
lemma Template.groupNumber_le_maxGroup {t : Template} {part : Template.Part} (h : part ∈ t.parts) :
    part.groupNumber ≤ t.maxGroup := by
  have hfold (parts : List Template.Part) (n : ℕ) :
      n ≤ parts.foldl (fun n part => max n part.groupNumber) n ∧
        ∀ part ∈ parts,
          part.groupNumber ≤ parts.foldl (fun n part => max n part.groupNumber) n := by
    induction parts generalizing n with
    | nil => exact ⟨le_rfl, fun _ h => absurd h List.not_mem_nil⟩
    | cons first parts ih =>
        obtain ⟨hmax, hrest⟩ := ih (max n first.groupNumber)
        rw [List.foldl_cons, List.forall_mem_cons]
        exact ⟨(le_max_left _ _).trans hmax, (le_max_right _ _).trans hmax, hrest⟩
  exact (hfold t.parts 0).2 part h

open Storage (Drains)

namespace Editor

/-! ### The expression that is meant -/

section Filled

variable {c : Command} {re : Regex} {e : Editor}

/-- An empty expression is resolved to the one used last. -/
lemma run_resolve_filled {regex : Option Regex} (h : regex = none → e.lastRegex = some re) :
    (resolve c (regex.or (some re))).run e = (resolve c regex).run e := by
  cases regex with
  | some _ => rfl
  | none =>
      rw [resolve, resolve, run_get_bind, run_get_bind, h rfl]
      rfl

lemma run_resolve_of_none (h : e.lastRegex = none) :
    (resolve c none).run e = (.error (regexFailure c .noPrevious), e) := by
  rw [resolve, run_get_bind, h]
  rfl

lemma run_meets_filled (selection : Selection) {a : Address}
    (h : a.request? = some none → e.lastRegex = some re) :
    (meets { c with selection } (a.filled re)).run e = (meets c a).run e := by
  cases a with
  | pattern regex =>
      have hlast : regex = none → e.lastRegex = some re := fun hnone => h (by rw [hnone]; rfl)
      have hfilled : Address.filled re (.pattern regex) = .pattern (regex.or (some re)) := by
        cases regex <;> rfl
      rw [hfilled]
      exact run_bind_congr (run_resolve_filled hlast) _
  | _ => rfl

lemma run_meets_of_none {a : Address} (ha : a.request? = some none) (h : e.lastRegex = none) :
    (meets c a).run e = (.error (regexFailure c .noPrevious), e) := by
  cases a with
  | pattern regex =>
      obtain rfl : regex = none := Option.some.inj ha
      rw [meets, run_get_bind]
      exact run_bind_of_error (run_resolve_of_none h)
  | _ => cases ha

lemma endLine_filled (stop : RangeEnd) (line : ℕ) :
    endLine (stop.filled re) line = endLine stop line := by
  rcases stop with a | n | n
  · rcases a with n | _ | (_ | regex) | _ | _ <;> rfl
  · rfl
  · rfl

lemma run_advanceRange_filled (selection : Selection) {first : Address} {stop : RangeEnd}
    {state : RangeState} (h : rangeRequest? first stop state = some none → e.lastRegex = some re) :
    (advanceRange { c with selection } (first.filled re) (stop.filled re) state).run e =
      (advanceRange c first stop state).run e := by
  obtain ⟨active, lastLine, answered⟩ := state
  rw [advanceRange, advanceRange, run_get_bind, run_get_bind]
  cases active with
  | false =>
      simp only [endLine_filled]
      exact run_bind_congr (run_meets_filled selection h) _
  | true =>
      cases lastLine with
      | some last => rfl
      | none =>
          cases stop with
          | address a => exact run_bind_congr (run_meets_filled selection h) _
          | _ => rfl

lemma run_advanceRange_of_none {first : Address} {stop : RangeEnd} {state : RangeState}
    (hasked : rangeRequest? first stop state = some none) (h : e.lastRegex = none) :
    (advanceRange c first stop state).run e = (.error (regexFailure c .noPrevious), e) := by
  obtain ⟨active, lastLine, answered⟩ := state
  rw [advanceRange, run_get_bind]
  cases active with
  | false => exact run_bind_of_error (run_meets_of_none hasked h)
  | true =>
      cases lastLine with
      | some last => cases hasked
      | none =>
          cases stop with
          | address a => exact run_bind_of_error (run_meets_of_none hasked h)
          | _ => cases hasked

/-- A command applies as it does with the expression used last in place of an empty one. -/
lemma run_applies_filled (h : selectionRequest? c e = some none → e.lastRegex = some re) :
    (applies { c with selection := c.selection.filled re }).run e = (applies c).run e := by
  rw [selectionRequest?] at h
  rw [applies, applies]
  cases hc : c.selection with
  | all => rfl
  | single a =>
      rw [hc] at h
      exact run_bind_congr (run_meets_filled _ h) _
  | range first stop slot =>
      rw [hc] at h
      refine run_bind_congr ?_ _
      rw [inRange, inRange, run_get_bind, run_get_bind]
      dsimp only at h ⊢
      cases hstate : e.ranges[slot]? with
      | none => rfl
      | some state =>
          rw [hstate] at h
          dsimp only at h ⊢
          have hmoved (h : rangeRequest? first stop state = some none → e.lastRegex = some re) :
              (inRange.moved { c with selection := (Selection.range first stop slot).filled re }
                (first.filled re) (stop.filled re) slot state).run e =
                (inRange.moved c first stop slot state).run e :=
            run_bind_congr (run_advanceRange_filled _ h) _
          cases hanswered : state.answered with
          | none =>
              rw [hanswered] at h
              exact hmoved h
          | some answered =>
              obtain ⟨record, answer⟩ := answered
              rw [hanswered] at h
              dsimp only at h ⊢
              by_cases hrecord : record = e.recordsRead
              · rw [if_pos hrecord, if_pos hrecord]
              · rw [if_neg hrecord] at h
                rw [if_neg hrecord, if_neg hrecord]
                exact hmoved h

lemma run_applies_of_none (hasked : selectionRequest? c e = some none) (h : e.lastRegex = none) :
    (applies c).run e = (.error (regexFailure c .noPrevious), e) := by
  rw [selectionRequest?] at hasked
  rw [applies]
  cases hc : c.selection with
  | all =>
      rw [hc] at hasked
      cases hasked
  | single a =>
      rw [hc] at hasked
      exact run_bind_of_error (run_meets_of_none hasked h)
  | range first stop slot =>
      rw [hc] at hasked
      refine run_bind_of_error ?_
      rw [inRange, run_get_bind]
      dsimp only at hasked ⊢
      cases hstate : e.ranges[slot]? with
      | none =>
          rw [hstate] at hasked
          cases hasked
      | some state =>
          rw [hstate] at hasked
          have hmoved (h' : rangeRequest? first stop state = some none) :
              (inRange.moved c first stop slot state).run e =
                (.error (regexFailure c .noPrevious), e) :=
            run_bind_of_error (run_advanceRange_of_none h' h)
          dsimp only at hasked ⊢
          cases hanswered : state.answered with
          | none =>
              rw [hanswered] at hasked
              exact hmoved hasked
          | some answered =>
              obtain ⟨record, answer⟩ := answered
              rw [hanswered] at hasked
              dsimp only at hasked ⊢
              -- A range that has answered for this record looks at no address.
              by_cases hrecord : record = e.recordsRead
              · rw [if_pos hrecord] at hasked
                cases hasked
              · rw [if_neg hrecord] at hasked
                rw [if_neg hrecord]
                exact hmoved hasked

/-! ### Substitutions -/

lemma run_perform_substitute {s : Substitution} (hc : c.action = .substitute s) (following : ℕ)
    (e : Editor) : (perform c following).run e =
      (substitute c s >>= fun _ => Pure.pure (.goOn following)).run e := by
  rw [perform, run_get_bind, hc]

/-- A command acts as it does with the expression used last in place of an empty one. -/
lemma run_perform_filled (h : c.action.request? = some none → e.lastRegex = some re)
    (following : ℕ) :
    (perform { c with action := c.action.filled re } following).run e =
      (perform c following).run e := by
  obtain ⟨letter, selection, negated, action, place⟩ := c
  cases action with
  | substitute s =>
      have hlast : s.regex = none → e.lastRegex = some re := fun hnone => h (congrArg some hnone)
      have hresolve := run_resolve_filled
        (c := ⟨letter, selection, negated, .substitute s, place⟩) hlast
      refine run_bind_congr (m := substitute _ _) (n := substitute _ _) ?_ _
      exact run_bind_congr hresolve _
  | _ => rfl

/-- Without an expression used before, a substitution for an empty one fails at once. -/
lemma run_perform_of_none (hasked : c.action.request? = some none) (h : e.lastRegex = none)
    (following : ℕ) :
    (perform c following).run e = (.error (regexFailure c .noPrevious), e) := by
  cases hc : c.action with
  | substitute s =>
      rw [hc] at hasked
      have hresolve : (resolve c s.regex).run e = (.error (regexFailure c .noPrevious), e) := by
        rw [show s.regex = none from Option.some.inj hasked]
        exact run_resolve_of_none h
      rw [run_perform_substitute hc, substitute_eq]
      exact run_bind_of_error (run_bind_of_error hresolve)
  | _ =>
      rw [hc] at hasked
      cases hasked

/-- A substitution goes no further with an expression that lacks a group of the template. -/
lemma run_perform_of_missing {s : Substitution} (hc : c.action = .substitute s)
    (hre : s.regex.or e.lastRegex = some re) (h : re.groupCount ≤ s.template.maxGroup)
    (following : ℕ) :
    (perform c following).run e =
      (.error (regexFailure c (.missingGroup s.template.maxGroup)),
        { e with lastRegex := some re }) := by
  have hresolve : (resolve c s.regex).run e = (.ok re, { e with lastRegex := some re }) := by
    rw [resolve, run_get_bind, hre]
    rfl
  rw [run_perform_substitute hc, substitute_eq]
  refine run_bind_of_error ?_
  rw [run_bind_of_ok hresolve, if_pos h]
  rfl

end Filled

/-! ### What is left alone -/

/-- What a command works on, what waits and all that was written is as before. Only the standard
input may have been read further, and problems with the input reported. -/
structure Untouched (e e' : Editor) : Prop where
  pattern : e'.pattern = e.pattern
  hold : e'.hold = e.hold
  substituted : e'.substituted = e.substituted
  queue : e'.queue = e.queue
  output : e'.output = e.output
  writers : e'.writers = e.writers
  files : Drains e.environment.storage e'.environment.storage
  notes : e.environment.notes <:+ e'.environment.notes

instance : IsTrans Editor Untouched where
  trans _ _ _ h h' :=
    ⟨h'.pattern.trans h.pattern, h'.hold.trans h.hold, h'.substituted.trans h.substituted,
      h'.queue.trans h.queue, h'.output.trans h.output, h'.writers.trans h.writers,
      h.files.trans h'.files, h.notes.trans h'.notes⟩

section Untouched

variable {c : Command} {e e' : Editor} {failure : Failure} {fault : RegexFault}

lemma moves_hasNext_untouched : Moves Untouched hasNext := fun e =>
  have hserved := e.input.served_hasNextFrom e.environment e.input.pending
  ⟨rfl, rfl, rfl, rfl, rfl, rfl, hserved.drains, hserved.notes⟩

/-- Whether a command applies is found out without touching anything. -/
lemma looking_untouched : Looking Untouched where
  aside _ _ _ := ⟨rfl, rfl, rfl, rfl, rfl, rfl, .refl _, List.suffix_rfl⟩
  hasNext := moves_hasNext_untouched

/-- What fails because of an expression is no idle change. -/
lemma Idle.not_failsFor {α : Type} {m : Edit α} (h : Idle m)
    (hrun : m.run e = (.error failure, e')) : ¬FailsFor fault failure :=
  (h e).2 fault failure (by rw [hrun])

/-- A substitution that fails because of its expression has touched nothing. -/
lemma untouched_of_substitute_fails {s : Substitution}
    (hrun : (substitute c s).run e = (.error failure, e')) (hfails : FailsFor fault failure) :
    Untouched e e' := by
  rw [substitute_eq] at hrun
  have hresolved := looking_untouched.resolve c s.regex e
  rcases hresolve : (resolve c s.regex).run e with ⟨failure' | regex, e₁⟩ <;>
    rw [hresolve] at hresolved
  · rw [run_bind_of_error hresolve] at hrun
    cases hrun
    exact hresolved
  rw [run_bind_of_ok hresolve] at hrun
  split at hrun
  · cases hrun
    exact hresolved
  · rw [substituteFor, run_get_bind] at hrun
    have hkept := looking_untouched.searched c
      (regex.replace s.template s.occurrence s.everywhere e₁.pattern) e₁
    rcases hsearch : (searched c (regex.replace s.template s.occurrence s.everywhere
      e₁.pattern)).run e₁ with ⟨failure' | ⟨result, count⟩, e₂⟩ <;> rw [hsearch] at hkept
    · rw [run_bind_of_error hsearch] at hrun
      cases hrun
      exact IsTrans.trans _ _ _ hresolved hkept
    · -- The search has succeeded, and what is left can fail to write only.
      rw [run_bind_of_ok hsearch] at hrun
      exact absurd hfails ((idle_replaced s result count e₁.terminated).not_failsFor hrun)

/-- If a step comes to a substitution and fails because of an expression, it has touched nothing. -/
lemma untouched_of_step_fails {p : Program} {index : ℕ} {s : Substitution}
    (hc : p.commands[index]? = some c) (hs : c.action = .substitute s)
    (hrun : (step p (.running index)).run e = (.error failure, e'))
    (hfails : FailsFor fault failure) : Untouched e e' := by
  rw [step_of_some hc] at hrun
  have hselected := looking_untouched.applies c e
  rcases happlies : (applies c).run e with ⟨failure' | selected, e₁⟩ <;> rw [happlies] at hselected
  · rw [run_bind_of_error happlies] at hrun
    cases hrun
    exact hselected
  rw [run_bind_of_ok happlies] at hrun
  cases selected with
  | false => cases hrun
  | true =>
      rw [if_pos rfl, run_bind, run_perform_substitute hs] at hrun
      rcases hsubstitute : (substitute c s).run e₁ with ⟨failure' | _, e₂⟩
      · rw [run_bind_of_error hsubstitute] at hrun
        cases hrun
        exact IsTrans.trans _ _ _ hselected (untouched_of_substitute_fails hsubstitute hfails)
      · rw [run_bind_of_ok hsubstitute] at hrun
        exact absurd hfails ((idle_follow _).not_failsFor hrun)

end Untouched

/-! ### Runs -/

/-- What the expressions of a command mean to a run that comes to it, if `before` is the expression
used last. -/
structure Reuses (before : Option Regex) (c : Command) (e : Editor) : Prop where
  /-- Whether the command applies is found out as if that expression stood in place of an empty
  one. -/
  selection : ∀ re, (selectionRequest? c e = some none → before = some re) →
    (applies { c with selection := c.selection.filled re }).run e = (applies c).run e
  selection_fails : selectionRequest? c e = some none → before = none →
    (applies c).run e = (.error (regexFailure c .noPrevious), e)
  /-- The command acts as if that expression stood in place of an empty one, or the one that its
  addresses asked for after it. -/
  action : ∀ e₁, (applies c).run e = (.ok true, e₁) → ∀ re following,
    (c.action.request? = some none →
      remembered before (selectionRequest? c e).toList = some re) →
    (perform { c with action := c.action.filled re } following).run e₁ =
      (perform c following).run e₁
  action_fails : ∀ e₁, (applies c).run e = (.ok true, e₁) → ∀ following,
    c.action.request? = some none → remembered before (selectionRequest? c e).toList = none →
    (perform c following).run e₁ = (.error (regexFailure c .noPrevious), e₁)
  /-- A substitution goes on to its template only if the expression has all groups that the template
  refers to. -/
  groups : ∀ e₁, (applies c).run e = (.ok true, e₁) → ∀ s re following,
    c.action = .substitute s →
    s.regex.or (remembered before (selectionRequest? c e).toList) = some re →
    (∀ part ∈ s.template.parts, part.groupNumber < re.groupCount) ∨
      (perform c following).run e₁ =
        (.error (regexFailure c (.missingGroup s.template.maxGroup)),
          { e₁ with lastRegex := some re })

lemma reuses (c : Command) (e : Editor) : Reuses e.lastRegex c e := by
  have hafter {selected : Bool} {e₁ : Editor} (h : (applies c).run e = (.ok selected, e₁)) :
      e₁.lastRegex = remembered e.lastRegex (selectionRequest? c e).toList := by
    have hremembers := (asks_applies c e).remembers
    rwa [h] at hremembers
  refine ⟨fun re h => run_applies_filled h, run_applies_of_none, fun e₁ h re following hre => ?_,
    fun e₁ h following hasked hnone => ?_, fun e₁ h s re following hs hre => ?_⟩
  · rw [← hafter h] at hre
    exact run_perform_filled hre following
  · rw [← hafter h] at hnone
    exact run_perform_of_none hasked hnone following
  · rw [← hafter h] at hre
    by_cases hmissing : re.groupCount ≤ s.template.maxGroup
    · exact .inr (run_perform_of_missing hs hre hmissing following)
    · exact .inl fun part hpart =>
        (Template.groupNumber_le_maxGroup hpart).trans_lt (not_le.1 hmissing)

section Runs

variable {p : Program} {o : Options} {input : Input} {sink : Sink} {env : Environment}
  {e₀ : Editor}

/-- When a run is over and its output is closed, an output that takes all bytes has received all
that was written to it. -/
lemma delivered_at_end (hstart : (start? p o input sink env).1 = .ok e₀) (hroom : sink.room = none)
    (k : ℕ) (r : Except Failure ℕ) :
    (conclude r (advance p k .reading e₀).2).2.output.flush.1.sink.delivered =
      (advance p k .reading e₀).2.output.written := by
  obtain ⟨writers, storage, -, he₀⟩ := start?_eq_ok hstart
  have hroom₀ : e₀.output.sink.room = none := by
    rw [he₀]
    exact hroom
  generalize hrun : (advance p k .reading e₀).2 = e
  have hroom₁ : e.output.sink.room = none := by
    rw [← hrun]
    exact (grows_advance k .reading e₀).room hroom₀
  obtain ⟨sink₁, hflush, hroom₂, hdelivered⟩ := Output.flush_of_room hroom₁
  rw [conclude_snd]
  obtain hkept | hflushed := run_flush_output e
  · rw [hkept, hflush]
    exact hdelivered
  · obtain ⟨sink₂, hflush', -, hdelivered'⟩ :=
      Output.flush_of_room (o := { e.output with sink := sink₁, waiting := [] }) hroom₂
    rw [hflushed, hflush, hflush', hdelivered', Output.written, List.append_nil]
    exact hdelivered

/-- And so has a file that no other writer has. -/
lemma contents_at_end (hstart : (start? p o input sink env).1 = .ok e₀)
    (hapart : Writer.Apart e₀.writers) (k : ℕ) (r : Except Failure ℕ) {i : ℕ} {w : Writer}
    {path : Path} (hi : (advance p k .reading e₀).2.writers[i]? = some w)
    (hpath : w.path = some path) :
    (conclude r (advance p k .reading e₀).2).2.close.storage.contents path =
      w.written (advance p k .reading e₀).2.environment.storage := by
  obtain ⟨writers, storage, hopen, he₀⟩ := start?_eq_ok hstart
  have hlevel : Writer.Level e₀.writers e₀.environment.storage := by
    rw [he₀]
    exact Writer.level_of_openAll hopen
  have hopen₀ : Writer.Open e₀.writers := by
    rw [he₀]
    exact Writer.open_of_openAll hopen
  have hhandled := (confined_passes.advance p k .reading e₀).handled
  rw [close, writers_conclude, storage_conclude]
  exact Writer.contents_closeAll_flushAll (hhandled.level hlevel hapart) (hhandled.apart.2 hapart)
    (hhandled.open hopen₀) hi hpath

/-- In every run an empty expression stands for the one used last, in whatever address or
substitution and however long ago that was, and the run fails for want of one just if the first that
it asks for is empty. No template is used with an expression that lacks one of its groups. A
substitution that fails because of its expression has touched nothing since it was come to, and all
that was written before is delivered. -/
theorem empty_regex_reuses_last (hstart : (start? p o input sink env).1 = .ok e₀) :
    (∀ k index e c, advance p k .reading e₀ = (.running index, e) →
      p.commands[index]? = some c →
      Reuses (remembered none (requests p k .reading e₀)) c e) ∧
    ((∃ k failure e, advance p k .reading e₀ = (.finished (.error failure), e) ∧
        FailsFor .noPrevious failure) ↔
      ∃ k, (requests p k .reading e₀).head? = some none) ∧
    ∀ k index e c s failure e', advance p k .reading e₀ = (.running index, e) →
      p.commands[index]? = some c → c.action = .substitute s →
      (step p (.running index)).run e = (.error failure, e') →
      (∃ fault, FailsFor fault failure) →
      Untouched e e' ∧ advance p (k + 1) .reading e₀ = (.finished (.error failure), e') ∧
        (conclude (.error failure) e').1 = .error failure ∧
        (sink.room = none →
          (conclude (.error failure) e').2.output.flush.1.sink.delivered = e.output.written) ∧
        (Writer.Apart e₀.writers → ∀ (i : ℕ) w path, e.writers[i]? = some w →
          w.path = some path →
          (conclude (.error failure) e').2.close.storage.contents path =
            w.written e.environment.storage) := by
  obtain ⟨writers, storage, -, he₀⟩ := start?_eq_ok hstart
  have hnone : e₀.lastRegex = none := by rw [he₀]
  have hfine : ¬Stage.Failed .reading := fun ⟨_, hfailed⟩ => nomatch hfailed
  refine ⟨fun k index e c hrun hc => ?_, ⟨?_, ?_⟩, ?_⟩
  · have hremembers := (asks_advance p k hfine e₀).1
    rw [hrun, hnone] at hremembers
    rw [← hremembers]
    exact reuses c e
  · rintro ⟨k, failure, e, hrun, hfails⟩
    exact ⟨k, ((asks_advance p k hfine e₀).2.1 ⟨failure, by rw [hrun], hfails⟩).2⟩
  · rintro ⟨k, hhead⟩
    obtain ⟨failure, hfailed, hfails⟩ := (asks_advance p k hfine e₀).2.2 ⟨hnone, hhead⟩
    exact ⟨k, failure, _, Prod.ext hfailed rfl, hfails⟩
  · rintro k index e c s failure e' hrun hc hs hstep ⟨fault, hfails⟩
    have htouched := untouched_of_step_fails hc hs hstep hfails
    have hnext : advance p (k + 1) .reading e₀ = (.finished (.error failure), e') := by
      rw [advance_succ_last, hrun, hstep]
      rfl
    have hlast : (advance p (k + 1) .reading e₀).2 = e' := by rw [hnext]
    refine ⟨htouched, hnext, ?_, fun hroom => ?_, fun hapart i w path hi hpath => ?_⟩
    · exact conclude_error failure e'
    · have hdelivered := delivered_at_end hstart hroom (k + 1) (.error failure)
      rwa [hlast, htouched.output] at hdelivered
    · rw [← htouched.writers, ← hlast] at hi
      have hcontents := contents_at_end hstart hapart (k + 1) (.error failure) hi hpath
      rw [hlast] at hcontents
      obtain ⟨standardInput, hstorage⟩ := htouched.files
      rw [hcontents, hstorage]
      rfl

/-! ### Runs that are computed -/

/-- The command that is due, if it is a substitution that fails, with its failure and with what is
observed of the editor before it. -/
def failing? {α : Type} (observe : Editor → α) (p : Program) :
    Stage × Editor → Option (Command × Failure × α)
  | (.running index, e) =>
      match p.commands[index]? with
      | none => none
      | some c =>
          match c.action, (step p (.running index)).run e with
          | .substitute _, (.error failure, _) => some (c, failure, observe e)
          | _, _ => none
  | _ => none

lemma step_of_failing? {α : Type} {observe : Editor → α} {p : Program} {t : Stage × Editor}
    {c : Command} {failure : Failure} {seen : α}
    (h : failing? observe p t = some (c, failure, seen)) :
    ∃ index e s e', t = (.running index, e) ∧ p.commands[index]? = some c ∧
      c.action = .substitute s ∧ (step p (.running index)).run e = (.error failure, e') ∧
      observe e = seen := by
  unfold failing? at h
  split at h
  · rename_i index e
    split at h
    · cases h
    · rename_i c' hc
      split at h
      · rename_i s failure' e' hs hstep
        cases h
        exact ⟨index, e, s, e', rfl, hc, hs, hstep, rfl⟩
      · cases h
  · cases h

/-- A line that is printed, and then a substitution for what its address has matched. The template
refers to a group which that expression lacks. -/
theorem empty_regex_reuses_last_lacking :
    ∃ p e₀ failure e',
      Program.parse (.ofText (Text.ofString "p\n/a/s//\\1/")) .standard = .ok p ∧
      (start? p .standard (.ofFiles [['f']] 10 false) .unlimited
        (.start ⟨[([['f']], [97, 10])], [], []⟩)).1 = .ok e₀ ∧
      advance p 3 .reading e₀ = (.finished (.error failure), e') ∧
      FailsFor (.missingGroup 1) failure ∧ e'.pattern = ['a'] ∧
      (conclude (.error failure) e').2.output.flush.1.sink.delivered = [97, 10] := by
  have hall : started? (fun p e₀ =>
        (failing? (fun e => (e.output.written, e.pattern)) p (advance p 2 .reading e₀)).map fun r =>
          (r.2.2, decide (r.2.1 = regexFailure r.1 (.missingGroup 1))))
      (Program.parse (.ofText (Text.ofString "p\n/a/s//\\1/")) .standard) .standard [['f']]
      ⟨[([['f']], [97, 10])], [], []⟩ = some (some (([97, 10], ['a']), true)) := by
    decide +kernel
  obtain ⟨p, e₀, hparse, hstart, hseen⟩ := start_of_started? hall
  obtain ⟨⟨c, failure, seen⟩, hfailing, hseen⟩ := Option.map_eq_some_iff.1 hseen
  obtain ⟨hobserved, hfailure⟩ := Prod.mk.inj hseen
  obtain ⟨index, e, s, e', hrun, hc, hs, hstep, rfl⟩ := step_of_failing? hfailing
  obtain ⟨hwritten, hpattern⟩ := Prod.mk.inj hobserved
  have hfails : FailsFor (.missingGroup 1) failure := ⟨c, of_decide_eq_true hfailure⟩
  obtain ⟨-, -, hsubstitution⟩ := empty_regex_reuses_last hstart
  obtain ⟨htouched, hlast, -, hdelivered, -⟩ :=
    hsubstitution 2 index e c s failure e' hrun hc hs hstep ⟨_, hfails⟩
  refine ⟨p, e₀, failure, e', hparse, hstart, hlast, hfails, ?_, ?_⟩
  · rw [htouched.pattern, hpattern]
  · rw [hdelivered rfl, hwritten]

end Runs

end Editor

end StreamEditor
