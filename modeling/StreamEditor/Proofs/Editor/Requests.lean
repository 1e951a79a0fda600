import StreamEditor.Proofs.Editor.Capped

/-!
The regular expressions that a run asks for.

* `Address.request?`, `Editor.selectionRequest?`, `Action.request?`: what an address, a selection
  and an action ask for; `Editor.requests`: what a run does.
* `Editor.remembered`: the expression that is used last after some requests.
* `Editor.RegexFault`: what can be wrong with an expression when it is used.
* `Editor.Idle`: a change asks for nothing, and if it fails it is not for want of an expression.
* `Editor.AsksAt`: from an editor, a change makes these requests. It fails for want of an expression
  only if the first of them is empty and none was used before.
* `Editor.asks_advance`: so does a run.
-/

namespace StreamEditor

/-- What is asked for: an expression, or the one used last. -/
abbrev Request := Option Regex

/-- What an address asks for. -/
def Address.request? : Address → Option Request
  | .pattern regex => some regex
  | _ => none

/-- What an action asks for. -/
def Action.request? : Action → Option Request
  | .substitute s => some s.regex
  | _ => none

namespace Editor

/-! ### Requests -/

/-- What a range asks for when it is moved on: its start, or its end if no line is known to end
it. -/
def rangeRequest? (first : Address) (stop : RangeEnd) (state : RangeState) : Option Request :=
  if state.active then
    match state.lastLine, stop with
    | none, .address a => a.request?
    | _, _ => none
  else first.request?

/-- What a command asks for in order to know whether it applies. A range that was asked about the
record before asks for nothing. -/
def selectionRequest? (c : Command) (e : Editor) : Option Request :=
  match c.selection with
  | .all => none
  | .single a => a.request?
  | .range first stop slot =>
      match e.ranges[slot]? with
      | none => none
      | some state =>
          match state.answered with
          | some (record, _) =>
              if record = e.recordsRead then none else rangeRequest? first stop state
          | none => rangeRequest? first stop state

/-- What a step asks for, in order. -/
def stepRequests (p : Program) (stage : Stage) (e : Editor) : List Request :=
  match stage with
  | .running index =>
      match p.commands[index]? with
      | none => []
      | some c =>
          (selectionRequest? c e).toList ++
            sequel (applies c) (fun selected _ => if selected then c.action.request?.toList else [])
              e
  | .reading | .finished _ => []

/-- What a number of steps ask for, in order. -/
def requests (p : Program) : ℕ → Stage → Editor → List Request
  | 0, _, _ => []
  | count + 1, stage, e =>
      stepRequests p stage e ++ sequel (step p stage) (requests p count) e

/-- The expression used last after some requests, each of which is resolved to the one before it if
it is empty. -/
def remembered (last : Option Regex) (asked : List Request) : Option Regex :=
  asked.foldl (fun last request => request.or last) last

lemma remembered_append (last : Option Regex) (asked asked' : List Request) :
    remembered last (asked ++ asked') = remembered (remembered last asked) asked' :=
  List.foldl_append

/-- What was used once is not forgotten. -/
lemma remembered_ne_none {last : Option Regex} {asked : List Request}
    (h : last ≠ none ∨ ∃ re, asked.head? = some (some re)) : remembered last asked ≠ none := by
  induction asked generalizing last with
  | nil =>
      obtain h | ⟨re, hre⟩ := h
      · exact h
      · cases hre
  | cons request asked ih =>
      refine ih (.inl ?_)
      obtain h | ⟨re, hre⟩ := h
      · cases request with
        | none => exact h
        | some re => simp
      · cases hre
        simp

/-- Where the first requests find an expression, the rest ask for want of one only if there was none
before, and it is the first request of all. -/
lemma lacks_append {last : Option Regex} {asked asked' : List Request}
    (h : ¬(last = none ∧ asked.head? = some none)) :
    (remembered last asked = none ∧ asked'.head? = some none) ↔
      last = none ∧ (asked ++ asked').head? = some none := by
  cases asked with
  | nil => rfl
  | cons request asked =>
      refine ⟨fun hlacks => absurd hlacks.1 (remembered_ne_none ?_), fun hlacks => absurd hlacks h⟩
      by_contra hneither
      rw [not_or, not_not] at hneither
      refine h ⟨hneither.1, ?_⟩
      cases request with
      | none => rfl
      | some re => exact absurd ⟨re, rfl⟩ hneither.2

/-! ### Failures -/

/-- What is wrong with the expression of a command. -/
inductive RegexFault where
  | noPrevious
  | missingGroup (number : ℕ)
  | exhausted

/-- What is wrong, in words. -/
def RegexFault.reason : RegexFault → Text
  | noPrevious => Text.ofString "no previous regular expression"
  | missingGroup number => invalidReference number
  | exhausted => Text.ofString "error matching RE"

/-- The failure of a command for what is wrong with its expression. -/
def regexFailure (c : Command) (fault : RegexFault) : Failure :=
  .command .running c.place c.letter fault.reason

/-- The failure is that of some command for this reason. -/
def FailsFor (fault : RegexFault) (failure : Failure) : Prop :=
  ∃ c, failure = regexFailure c fault

lemma RegexFault.reason_ne {fault : RegexFault} (h : fault ≠ .noPrevious) :
    fault.reason ≠ RegexFault.reason .noPrevious := by
  intro heq
  have hhead := congrArg List.head? heq
  cases fault with
  | noPrevious => exact h rfl
  | missingGroup | exhausted => exact absurd (Option.some.inj hhead) (by decide)

lemma failsFor_regexFailure {c : Command} {fault : RegexFault} :
    FailsFor .noPrevious (regexFailure c fault) ↔ fault = .noPrevious := by
  constructor
  · rintro ⟨c', heq⟩
    by_contra hne
    exact RegexFault.reason_ne hne (Failure.command.inj heq).2.2.2
  · rintro rfl
    exact ⟨c, rfl⟩

/-- A file that cannot be written is no fault of an expression. -/
lemma not_failsFor_writer {fault : RegexFault} (w : Writer) (s : Storage) (text : Text)
    (terminated : Bool) {failure : Failure}
    (h : (w.writeRecord s text terminated).2.2 = some failure) : ¬FailsFor fault failure := by
  rintro ⟨c, rfl⟩
  obtain ⟨fault', -, heq⟩ := Option.map_eq_some_iff.1 h
  have hhead := congrArg List.head? (Failure.command.inj heq).2.2.2
  cases fault <;> exact absurd (Option.some.inj hhead) (by decide)

/-! ### Changes that ask for nothing -/

/-- `m` leaves the expression used last as it is, and if it fails it is not because of an
expression. -/
def Idle {α : Type} (m : Edit α) : Prop :=
  ∀ e, (m.run e).2.lastRegex = e.lastRegex ∧
    ∀ fault failure, (m.run e).1 = .error failure → ¬FailsFor fault failure

section Idle

variable {α β : Type} {m m' : Edit α} {f : α → Edit β}

lemma Idle.modifyGet {g : Editor → α × Editor} (h : ∀ e, (g e).2.lastRegex = e.lastRegex) :
    Idle (modifyGet g) := fun e => ⟨h e, fun _ _ hfails => nomatch hfails⟩

lemma Idle.modify {g : Editor → Editor} (h : ∀ e, (g e).lastRegex = e.lastRegex) :
    Idle (modify g) := fun e => ⟨h e, fun _ _ hfails => nomatch hfails⟩

lemma Idle.pure (a : α) : Idle (Pure.pure a : Edit α) :=
  fun _ => ⟨rfl, fun _ _ hfails => nomatch hfails⟩

lemma Idle.congr (m' : Edit α) (h : ∀ e, m.run e = m'.run e) (hm : Idle m') : Idle m := fun e => by
  rw [h]
  exact hm e

lemma Idle.get {f : Editor → Edit α} (hf : ∀ e, ((f e).run e).2.lastRegex = e.lastRegex ∧
    ∀ fault failure, ((f e).run e).1 = .error failure → ¬FailsFor fault failure) :
    Idle (MonadState.get >>= f) := hf

lemma Idle.look {f : Editor → Edit α} (hf : ∀ e, Idle (f e)) : Idle (MonadState.get >>= f) :=
  fun e => hf e e

lemma Idle.bind (hm : Idle m) (hf : ∀ a, Idle (f a)) : Idle (m >>= f) := by
  intro e
  obtain ⟨hkept, hfaults⟩ := hm e
  rw [run_bind]
  rcases hrun : m.run e with ⟨failure | a, e₁⟩ <;> rw [hrun] at hkept hfaults
  · exact ⟨hkept, fun fault _ h => hfaults fault _ (congrArg Except.error (Except.error.inj h))⟩
  · rw [← hkept]
    exact hf a e₁

lemma Idle.ite {c : Prop} [Decidable c] (hm : Idle m) (hm' : Idle m') :
    Idle (if c then m else m') := by
  split
  · exact hm
  · exact hm'

lemma Idle.forM {γ : Type} {f : γ → Edit PUnit} (h : ∀ c, Idle (f c)) (l : List γ) :
    Idle (l.forM f) := by
  induction l with
  | nil => exact Idle.pure _
  | cons c l ih => exact (h c).bind fun _ => ih

/-- A change after which a run goes on. -/
lemma Idle.andGo (hm : Idle m) (b : β) : Idle (m >>= fun _ => Pure.pure b) :=
  hm.bind fun _ => Idle.pure b

/-! ### Output -/

lemma idle_tell (event : Event) : Idle (tell event) := Idle.modify fun e => by split <;> rfl

lemma idle_emit (f : Output → Output.Attempt) : Idle (emit f) := fun e => by
  rw [run_emit]
  refine ⟨rfl, fun fault failure hfails => ?_⟩
  cases hf : (f e.output).2 <;> rw [hf] at hfails
  · cases hfails
  · cases hfails
    rintro ⟨c, heq⟩
    cases heq

lemma idle_printRecord (text : Text) (terminated : Bool) : Idle (printRecord text terminated) :=
  idle_emit _

lemma idle_printText (text : Text) : Idle (printText text) := idle_emit _

lemma idle_printPattern : Idle printPattern := Idle.look fun _ => idle_printRecord _ _

lemma idle_writeToFile (index : ℕ) (text : Text) (terminated : Bool) :
    Idle (writeToFile index text terminated) := fun e => by
  cases hw : e.writers[index]? with
  | none =>
      rw [run_writeToFile_of_none hw]
      exact ⟨rfl, fun _ _ hfails => nomatch hfails⟩
  | some w =>
      rw [run_writeToFile hw]
      refine ⟨rfl, fun fault failure hfails => ?_⟩
      cases hf : (w.writeRecord e.environment.storage text terminated).2.2 <;> rw [hf] at hfails
      · cases hfails
      · cases hfails
        exact not_failsFor_writer w _ text terminated hf

lemma idle_writeTo (target : Target) (text : Text) (terminated : Bool) :
    Idle (writeTo target text terminated) := by
  cases target with
  | output => exact idle_printRecord _ _
  | errors => exact Idle.modify fun _ => rfl
  | file index => exact idle_writeToFile _ _ _

lemma idle_writeResult (s : Substitution) (text : Text) (terminated : Bool) :
    Idle (writeResult s text terminated) := by
  rw [writeResult]
  cases s.write with
  | none => exact Idle.pure _
  | some target => exact idle_writeTo _ _ _

lemma idle_enqueue (q : Queued) : Idle (enqueue q) := Idle.modify fun _ => rfl

lemma idle_deliver (q : Queued) : Idle (deliver q) := by
  cases q with
  | text t => exact idle_printText t
  | file name =>
      have hread : Idle (readWhole name) := Idle.modifyGet fun _ => rfl
      refine Idle.congr _ (run_deliver_file name) (hread.bind fun contents => ?_)
      cases contents with
      | ok contents => exact idle_emit (·.writeRaw contents)
      | error _ => exact Idle.pure ()

lemma idle_release : Idle release := by
  refine Idle.congr
    (modifyGet (fun e => (e.queue, { e with queue := [] })) >>= fun queue => queue.forM deliver)
    (fun e => rfl) ?_
  exact Idle.bind (Idle.modifyGet fun _ => rfl) fun queue => Idle.forM idle_deliver queue

lemma idle_endCycle (autoprint : Bool) : Idle (endCycle autoprint) :=
  Idle.look fun _ => Idle.ite (idle_printPattern.bind fun _ => idle_release) idle_release

/-! ### Input -/

lemma idle_readRecord : Idle readRecord := Idle.modifyGet fun _ => rfl

lemma idle_hasNext : Idle hasNext := Idle.modifyGet fun _ => rfl

lemma idle_load (record : Record) (pattern : Text) : Idle (load record pattern) :=
  Idle.modify fun _ => rfl

lemma idle_readLineOf (name : Text) : Idle (readLineOf name) := Idle.modifyGet fun e => by
  dsimp only
  split <;> rfl

lemma idle_atLast : Idle atLast := idle_hasNext.bind fun _ => Idle.pure _

lemma idle_atEnd : Idle atEnd :=
  idle_hasNext.bind fun _ => Idle.look fun _ => Idle.pure _

lemma idle_endLine (stop : RangeEnd) (line : ℕ) : Idle (endLine stop line) := by
  unfold endLine
  split
  · exact Idle.pure _
  · exact idle_atLast.bind fun _ => Idle.pure _
  all_goals exact Idle.pure _

/-! ### Commands -/

lemma idle_next (following : ℕ) : Idle (Editor.next following) := by
  refine idle_atEnd.bind fun _ => Idle.ite (Idle.pure _) ?_
  refine (idle_endCycle true).bind fun _ => idle_readRecord.bind fun record => ?_
  cases record with
  | none => exact Idle.pure _
  | some record => exact (idle_load _ _).andGo _

lemma idle_appendNext (following : ℕ) : Idle (appendNext following) := by
  refine idle_atEnd.bind fun _ => Idle.ite (Idle.pure _) ?_
  refine idle_release.bind fun _ => idle_readRecord.bind fun record => ?_
  cases record with
  | none => exact Idle.pure _
  | some record => exact Idle.look fun e => (idle_load _ _).andGo _

lemma idle_test (condition : Condition) : Idle (test condition) := by
  refine Idle.modifyGet fun e => ?_
  cases condition <;> rfl

lemma idle_edit (f : Text → Text) : Idle (edit f) := Idle.modify fun _ => rfl

/-- What is left of a substitution once its matches are found. -/
lemma idle_replaced (s : Substitution) (result : Text) (count : ℕ) (terminated : Bool) :
    Idle (if count = 0 then Pure.pure () else do
      tell (.substituted count)
      modify fun e => { e with pattern := result, substituted := true }
      if s.print then printPattern
      writeResult s result terminated) := by
  refine Idle.ite (Idle.pure _) ((idle_tell _).bind fun _ => ?_)
  refine Idle.bind (Idle.modify fun _ => rfl) fun _ => ?_
  exact Idle.ite (idle_printPattern.bind fun _ => idle_writeResult s _ _) (idle_writeResult s _ _)

/-- Only a substitution asks for an expression. -/
lemma idle_perform {c : Command} (h : c.action.request? = none) (following : ℕ) :
    Idle (perform c following) := by
  rw [perform]
  cases hc : c.action with
  | substitute s =>
      rw [hc] at h
      cases h
  | branch condition label target =>
      refine Idle.look fun _ => (idle_test _).bind fun _ => ?_
      exact Idle.ite ((idle_tell _).andGo _) (Idle.pure _)
  | deleteFirstLine =>
      refine Idle.look fun e => ?_
      dsimp only
      split
      · exact (idle_edit _).andGo _
      · exact Idle.pure _
  | change text =>
      exact Idle.look fun _ => Idle.ite ((idle_printText _).andGo _) (Idle.pure _)
  | next => exact Idle.look fun _ => idle_next _
  | appendNext => exact Idle.look fun _ => idle_appendNext _
  | transliterate | zap => exact Idle.look fun _ => (idle_edit _).andGo _
  | insert | lineNumber | list | fileName =>
      exact Idle.look fun _ => (idle_printText _).andGo _
  | append | appendFile => exact Idle.look fun _ => (idle_enqueue _).andGo _
  | appendFileLine name =>
      refine Idle.look fun _ => (idle_readLineOf _).bind fun line => ?_
      cases line with
      | none => exact Idle.pure _
      | some line => exact (idle_enqueue _).andGo _
  | print => exact Idle.look fun _ => idle_printPattern.andGo _
  | printFirstLine =>
      refine Idle.look fun e => ?_
      dsimp only
      split
      · exact (idle_printRecord _ _).andGo _
      · exact idle_printPattern.andGo _
  | write | writeFirstLine => exact Idle.look fun _ => (idle_writeTo _ _ _).andGo _
  | hold | holdAppend | get | getAppend | exchange =>
      exact Idle.get fun _ => ⟨rfl, fun _ _ hfails => by cases hfails⟩
  | _ => exact Idle.look fun _ => Idle.pure _

lemma idle_beginCycle : Idle beginCycle := Idle.look fun _ => (idle_tell _).andGo _

lemma idle_follow (flow : Flow) : Idle (follow flow) := by
  cases flow with
  | goOn next => exact Idle.pure _
  | endCycle autoprint => exact (idle_endCycle _).andGo _
  | restart => exact (idle_endCycle false).bind fun _ => idle_beginCycle
  | quit autoprint exitCode =>
      refine Idle.look fun _ => (idle_tell _).bind fun _ => ?_
      exact Idle.ite ((idle_endCycle true).andGo _) (Idle.pure _)

end Idle

/-! ### Changes that ask for expressions -/

/-- From `e`, `m` makes these requests and remembers what the last comes to. It fails for want of an
expression if the first is empty and none was used before, and only then. -/
structure AsksAt {α : Type} (m : Edit α) (asked : List Request) (e : Editor) : Prop where
  remembers : (m.run e).2.lastRegex = remembered e.lastRegex asked
  lacks : (∃ failure, (m.run e).1 = .error failure ∧ FailsFor .noPrevious failure) ↔
    e.lastRegex = none ∧ asked.head? = some none

section AsksAt

variable {α β : Type} {m : Edit α} {f : α → Edit β} {asked : List Request} {e : Editor}

lemma Idle.asks (h : Idle m) (e : Editor) : AsksAt m [] e := by
  refine ⟨(h e).1, ⟨?_, fun hlacks => nomatch hlacks.2⟩⟩
  rintro ⟨failure, hfails, hfor⟩
  exact absurd hfor ((h e).2 _ failure hfails)

lemma AsksAt.pure (a : α) (e : Editor) : AsksAt (Pure.pure a : Edit α) [] e := (Idle.pure a).asks e

lemma AsksAt.look {f : Editor → Edit α} (h : AsksAt (f e) asked e) :
    AsksAt (MonadState.get >>= f) asked e := ⟨h.remembers, h.lacks⟩

lemma AsksAt.ite {c : Prop} [Decidable c] {m m' : Edit α} (hm : AsksAt m asked e)
    (hm' : AsksAt m' asked e) : AsksAt (if c then m else m') asked e := by
  split
  · exact hm
  · exact hm'

/-- What is asked for later comes after what is asked for first. -/
lemma AsksAt.bind {next : α → Editor → List Request} (hm : AsksAt m asked e)
    (hf : ∀ a e₁, m.run e = (.ok a, e₁) → AsksAt (f a) (next a e₁) e₁) :
    AsksAt (m >>= f) (asked ++ sequel m next e) e := by
  obtain ⟨hremembers, hlacks⟩ := hm
  rw [sequel]
  rcases hrun : m.run e with ⟨failure | a, e₁⟩ <;> rw [hrun] at hremembers hlacks <;> dsimp only
  · rw [List.append_nil]
    refine ⟨?_, ?_⟩ <;> rw [run_bind_of_error hrun]
    · exact hremembers
    · simpa using hlacks
  · obtain ⟨hafter, hlacksAfter⟩ := hf a e₁ hrun
    refine ⟨?_, ?_⟩ <;> rw [run_bind_of_ok hrun]
    · rw [hafter, hremembers, remembered_append]
    · rw [hlacksAfter, hremembers]
      refine lacks_append fun h => ?_
      obtain ⟨failure, hfails, -⟩ := hlacks.2 h
      cases hfails

/-- Nothing more is asked for. -/
lemma AsksAt.idly (hm : AsksAt m asked e) (hf : ∀ a e₁, AsksAt (f a) [] e₁) :
    AsksAt (m >>= f) asked e := by
  have hbind := @AsksAt.bind _ _ _ _ _ _ (fun _ _ => []) hm fun a e₁ _ => hf a e₁
  rwa [sequel_nil, List.append_nil] at hbind

lemma asks_resolve (c : Command) (regex : Option Regex) (e : Editor) :
    AsksAt (resolve c regex) [regex] e := by
  refine ⟨?_, ?_⟩ <;> rw [resolve, run_get_bind]
  · cases h : regex.or e.lastRegex with
    | none =>
        rw [Option.or_eq_none_iff] at h
        rw [h.1, h.2]
        exact h.2
    | some re => exact h.symm
  · cases h : regex.or e.lastRegex with
    | none =>
        rw [Option.or_eq_none_iff] at h
        exact ⟨fun _ => ⟨h.2, congrArg some h.1⟩, fun _ => ⟨_, rfl, c, rfl⟩⟩
    | some re =>
        constructor
        · rintro ⟨failure, hfails, -⟩
          cases hfails
        · rintro ⟨hlast, hasked⟩
          rw [Option.some.inj hasked, hlast] at h
          cases h

/-- Another fault of an expression. -/
lemma asks_fail (c : Command) {fault : RegexFault} (h : fault ≠ .noPrevious) (e : Editor) :
    AsksAt (fail c fault.reason : Edit α) [] e := by
  refine ⟨rfl, ⟨?_, fun hlacks => nomatch hlacks.2⟩⟩
  rintro ⟨failure, hfails, hfor⟩
  cases hfails
  exact absurd (failsFor_regexFailure.1 hfor) h

lemma asks_searched (c : Command) (result : Except Regex.Exhausted α) (e : Editor) :
    AsksAt (searched c result) [] e := by
  cases result with
  | ok found => exact AsksAt.pure found e
  | error _ => exact @asks_fail α c .exhausted (by simp) e

/-! ### Selection -/

lemma asks_meets (c : Command) (a : Address) (e : Editor) :
    AsksAt (meets c a) a.request?.toList e := by
  refine AsksAt.look ?_
  cases a with
  | line number => exact AsksAt.pure _ e
  | last => exact idle_atLast.asks e
  | pattern regex => exact (asks_resolve c regex e).idly fun _ _ => .look (asks_searched c _ _)
  | step first step => cases step <;> exact AsksAt.pure _ e
  | zero => exact AsksAt.pure _ e

lemma asks_advanceRange (c : Command) (first : Address) (stop : RangeEnd) (state : RangeState)
    (e : Editor) :
    AsksAt (advanceRange c first stop state) (rangeRequest? first stop state).toList e := by
  refine AsksAt.look ?_
  unfold rangeRequest?
  by_cases hactive : state.active = true
  · rw [if_pos hactive, if_pos hactive]
    rcases state.lastLine with _ | last
    · cases stop with
      | address a => exact (asks_meets c a e).idly fun _ _ => AsksAt.pure _ _
      | following | multiple => exact AsksAt.pure _ e
    · exact AsksAt.pure _ e
  · rw [if_neg hactive, if_neg hactive]
    refine (asks_meets c first e).idly fun _ e₁ => AsksAt.ite ?_ (AsksAt.pure _ _)
    exact ((idle_endLine _ _).bind fun _ => Idle.pure _).asks e₁

lemma asks_inRange (c : Command) (first : Address) (stop : RangeEnd) (slot : ℕ) (e : Editor) :
    AsksAt (inRange c first stop slot)
      (match e.ranges[slot]? with
      | none => none
      | some state =>
          match state.answered with
          | some (record, _) =>
              if record = e.recordsRead then none else rangeRequest? first stop state
          | none => rangeRequest? first stop state).toList e := by
  have moved (state : RangeState) : AsksAt (inRange.moved c first stop slot state)
      (rangeRequest? first stop state).toList e :=
    (asks_advanceRange c first stop state e).idly fun ⟨_, _⟩ e₁ => by
      refine Idle.asks (Idle.andGo ?_ _) e₁
      exact Idle.modify fun _ => rfl
  refine AsksAt.look ?_
  cases e.ranges[slot]? with
  | none => exact AsksAt.pure _ e
  | some state =>
      dsimp only
      rcases state.answered with _ | ⟨record, answer⟩
      · exact moved state
      · dsimp only
        split
        · exact AsksAt.pure _ e
        · exact moved state

lemma asks_applies (c : Command) (e : Editor) :
    AsksAt (applies c) (selectionRequest? c e).toList e := by
  rw [applies, selectionRequest?]
  cases c.selection with
  | all => exact AsksAt.pure _ e
  | single a => exact (asks_meets c a e).idly fun _ _ => AsksAt.pure _ _
  | range first stop slot =>
      exact (asks_inRange c first stop slot e).idly fun _ _ => AsksAt.pure _ _

/-! ### Steps -/

/-- What is left of a substitution once its expression is known. -/
lemma asks_substituteFor (c : Command) (s : Substitution) (regex : Regex) (e : Editor) :
    AsksAt (substituteFor c s regex) [] e :=
  AsksAt.look ((asks_searched c _ e).idly fun ⟨result, count⟩ e₁ =>
    (idle_replaced s result count e.terminated).asks e₁)

lemma asks_perform (c : Command) (following : ℕ) (e : Editor) :
    AsksAt (perform c following) c.action.request?.toList e := by
  cases hc : c.action with
  | substitute s =>
      have hsubstitute : AsksAt (substitute c s) [s.regex] e := by
        rw [substitute_eq]
        refine (asks_resolve c s.regex e).idly fun regex e₁ => AsksAt.ite ?_ ?_
        · have hfail := @asks_fail Unit c (.missingGroup s.template.maxGroup) (by simp) e₁
          exact hfail.idly fun _ e₂ => asks_substituteFor c s regex e₂
        · exact asks_substituteFor c s regex e₁
      rw [perform]
      refine AsksAt.look ?_
      rw [hc]
      exact hsubstitute.idly fun _ _ => AsksAt.pure _ _
  | _ => exact (idle_perform (by rw [hc]; rfl) following).asks e

lemma asks_step (p : Program) (stage : Stage) (e : Editor) :
    AsksAt (step p stage) (stepRequests p stage e) e := by
  cases stage with
  | reading =>
      refine Idle.asks (idle_readRecord.bind fun record => ?_) e
      cases record with
      | none => exact Idle.pure _
      | some record => exact (idle_load _ _).bind fun _ => idle_beginCycle
  | running index =>
      rw [stepRequests]
      cases h : p.commands[index]? with
      | none =>
          rw [step_of_none h]
          exact (idle_follow _).asks e
      | some c =>
          rw [step_of_some h]
          dsimp only
          refine (asks_applies c e).bind fun selected e₁ _ => ?_
          split
          · exact (asks_perform c _ e₁).idly fun flow e₂ => (idle_follow flow).asks e₂
          · exact AsksAt.pure _ e₁
  | finished result => exact AsksAt.pure _ e

end AsksAt

/-! ### Runs -/

/-- A run has failed. -/
def Stage.Failed (stage : Stage) : Prop := ∃ failure, stage = .finished (.error failure)

section Runs

variable {p : Program}

lemma returns_follow_fine (flow : Flow) :
    Returns (follow flow) fun stage => ¬Stage.Failed stage := by
  have hfine {stage : Stage} (h : ∀ failure, stage ≠ .finished (.error failure)) :
      ¬Stage.Failed stage := fun ⟨failure, hfailed⟩ => h failure hfailed
  cases flow with
  | goOn next => exact Returns.pure (hfine (by simp))
  | endCycle autoprint => exact Returns.after fun _ => Returns.pure (hfine (by simp))
  | restart =>
      exact Returns.after fun _ => Returns.after fun _ => Returns.after fun _ =>
        Returns.pure (hfine (by simp))
  | quit autoprint exitCode =>
      refine Returns.after fun _ => Returns.after fun _ => Returns.ite ?_ ?_
      · exact Returns.after fun _ => Returns.pure (hfine (by simp))
      · exact Returns.pure (hfine (by simp))

/-- A failed run is one in which a step fails. -/
lemma returns_step_fine {stage : Stage} (h : ¬Stage.Failed stage) :
    Returns (step p stage) fun stage => ¬Stage.Failed stage := by
  cases stage with
  | finished result => exact Returns.pure h
  | reading =>
      refine Returns.after fun record => ?_
      cases record with
      | none => exact Returns.pure fun ⟨_, hfailed⟩ => nomatch hfailed
      | some record =>
          exact Returns.after fun _ => Returns.after fun _ => Returns.after fun _ =>
            Returns.pure fun ⟨_, hfailed⟩ => nomatch hfailed
  | running index =>
      cases hc : p.commands[index]? with
      | none =>
          rw [step_of_none hc]
          exact returns_follow_fine _
      | some c =>
          rw [step_of_some hc]
          refine Returns.after fun _ => Returns.ite (Returns.after returns_follow_fine) ?_
          exact Returns.pure fun ⟨_, hfailed⟩ => nomatch hfailed

/-- A run remembers the expression used last. It fails for want of one if the first that it asks for
is empty and none was used before, and only then. -/
lemma asks_advance (p : Program) (count : ℕ) {stage : Stage} (h : ¬Stage.Failed stage)
    (e : Editor) :
    (advance p count stage e).2.lastRegex = remembered e.lastRegex (requests p count stage e) ∧
      ((∃ failure, (advance p count stage e).1 = .finished (.error failure) ∧
          FailsFor .noPrevious failure) ↔
        e.lastRegex = none ∧ (requests p count stage e).head? = some none) := by
  induction count generalizing stage e with
  | zero =>
      refine ⟨rfl, fun ⟨failure, hfailed, _⟩ => absurd ⟨failure, hfailed⟩ h, fun hlacks => ?_⟩
      cases hlacks.2
  | succ count ih =>
      obtain ⟨hremembers, hlacks⟩ := asks_step p stage e
      rw [advance_succ, requests, sequel]
      rcases hrun : (step p stage).run e with ⟨failure | stage', e₁⟩ <;>
        rw [hrun] at hremembers hlacks <;> rw [goOnWith] <;> dsimp only
      · rw [List.append_nil, ← hlacks]
        refine ⟨hremembers, ?_⟩
        simp
      · obtain ⟨hafter, hlacksAfter⟩ := ih (returns_step_fine h _ _ _ hrun) e₁
        rw [hafter, hlacksAfter, hremembers, remembered_append]
        refine ⟨rfl, lacks_append fun hnone => ?_⟩
        obtain ⟨failure, hfails, -⟩ := hlacks.2 hnone
        cases hfails

end Runs

end Editor

end StreamEditor
