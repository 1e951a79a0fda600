import StreamEditor.Proofs.Range.Asked
import StreamEditor.Proofs.Program.WellFormed

/-!
Two editors that run the same program side by side.

* `RangeState.Alike`: two ranges will give the same answers from now on.
* `Command.regexes`: the expressions that a command looks for.
* `Action.isPlain`: commands that act on the current record alone.
* `Editor.Lockstep`: a relation of editors that look alike to a plain command, and that the basic
  changes keep; `Editor.HoldLockstep` is the same for commands that use the hold space and
  `Editor.FullLockstep` for all commands that do not read on.
* `Editor.Lockstep.agrees_step`, `Editor.FullLockstep.agrees_step`: in such a relation a step has
  the same effect.
-/

namespace StreamEditor

/-- Two ranges stand alike, one for the record `n` and the other for the record `n'`. -/
structure RangeState.Alike (n n' : ℕ) (st st' : RangeState) : Prop where
  active : st'.active = st.active
  lastLine : st.active = true → st'.lastLine = st.lastLine
  answered : ∀ b, st'.answered = some (n', b) ↔ st.answered = some (n, b)
  /-- Neither was asked about a later record. -/
  past : ∀ r b, st.answered = some (r, b) → r ≤ n
  past' : ∀ r b, st'.answered = some (r, b) → r ≤ n'

/-- The ranges of two editors stand alike one by one. -/
def RangesAlike (n n' : ℕ) (ranges ranges' : List RangeState) : Prop :=
  ∀ slot : ℕ, Option.Rel (RangeState.Alike n n') ranges[slot]? ranges'[slot]?

section RangesAlike

variable {n n' slot : ℕ} {ranges ranges' : List RangeState} {st st' : RangeState}

lemma RangesAlike.of_none (h : RangesAlike n n' ranges ranges') (hst : ranges[slot]? = none) :
    ranges'[slot]? = none := by
  have hslot := h slot
  rw [hst] at hslot
  generalize ranges'[slot]? = other at hslot ⊢
  cases hslot
  rfl

lemma RangesAlike.of_some (h : RangesAlike n n' ranges ranges') (hst : ranges[slot]? = some st) :
    ∃ st', ranges'[slot]? = some st' ∧ st.Alike n n' st' := by
  have hslot := h slot
  rw [hst] at hslot
  generalize ranges'[slot]? = other at hslot ⊢
  cases hslot with
  | some halike => exact ⟨_, rfl, halike⟩

lemma RangesAlike.set (h : RangesAlike n n' ranges ranges') (hst : st.Alike n n' st') :
    RangesAlike n n' (ranges.set slot st) (ranges'.set slot st') := by
  intro other
  rw [List.getElem?_set, List.getElem?_set]
  by_cases heq : slot = other
  · rw [if_pos heq, if_pos heq]
    cases hslot : ranges[slot]? with
    | none =>
        have hlt := List.getElem?_eq_none_iff.1 hslot
        have hlt' := List.getElem?_eq_none_iff.1 (h.of_none hslot)
        rw [if_neg (not_lt.2 hlt), if_neg (not_lt.2 hlt')]
        exact .none
    | some old =>
        obtain ⟨old', hslot', -⟩ := h.of_some hslot
        have hlt := (List.getElem?_eq_some_iff.1 hslot).1
        have hlt' := (List.getElem?_eq_some_iff.1 hslot').1
        rw [if_pos hlt, if_pos hlt']
        exact .some hst
  · rw [if_neg heq, if_neg heq]
    exact h other

/-- With the next record, about which neither was asked, the ranges still stand alike. -/
lemma RangesAlike.next (h : RangesAlike n n' ranges ranges') :
    RangesAlike (n + 1) (n' + 1) ranges ranges' := by
  have hnever {m : ℕ} {st : RangeState} (hpast : ∀ r b, st.answered = some (r, b) → r ≤ m)
      (b : Bool) : st.answered ≠ some (m + 1, b) :=
    fun hb => absurd (hpast _ _ hb) (Nat.not_succ_le_self m)
  intro slot
  cases hst : ranges[slot]? with
  | none =>
      rw [h.of_none hst]
      exact .none
  | some st =>
      obtain ⟨st', hst', halike⟩ := h.of_some hst
      rw [hst']
      exact .some
        { active := halike.active
          lastLine := halike.lastLine
          answered := fun b => iff_of_false (hnever halike.past' b) (hnever halike.past b)
          past := fun r b hr => (halike.past r b hr).trans (Nat.le_succ n)
          past' := fun r b hr => (halike.past' r b hr).trans (Nat.le_succ n') }

/-- Ranges stand like themselves, if they were not asked about later records. -/
lemma RangesAlike.refl (h : ∀ st ∈ ranges, ∀ r b, st.answered = some (r, b) → r ≤ n) :
    RangesAlike n n ranges ranges := by
  intro slot
  cases hst : ranges[slot]? with
  | none => exact .none
  | some st =>
      have hpast := h st (List.mem_of_getElem? hst)
      exact .some ⟨rfl, fun _ => rfl, fun _ => Iff.rfl, hpast, hpast⟩

end RangesAlike

/-- The expressions for which an address looks; without one, the one used last is meant. -/
def Address.regexes : Address → List (Option Regex)
  | .pattern regex => [regex]
  | _ => []

/-- The expressions for which the end of a range looks. -/
def RangeEnd.regexes : RangeEnd → List (Option Regex)
  | .address a => a.regexes
  | _ => []

/-- The expressions for which a selection looks. -/
def Selection.regexes : Selection → List (Option Regex)
  | .all => []
  | .single a => a.regexes
  | .range first stop _ => first.regexes ++ stop.regexes

/-- The expressions for which a command looks. -/
def Command.regexes (c : Command) : List (Option Regex) :=
  c.selection.regexes ++
    match c.action with
    | .substitute s => [s.regex]
    | _ => []

/-- The command acts on the current record and on the output alone: it neither reads on nor quits,
and it uses neither the hold space nor other files. -/
def Action.isPlain : Action → Bool
  | .block _ | .blockEnd | .label _ | .branch .. | .transliterate _ | .insert _ | .append _
  | .change _ | .delete | .deleteFirstLine | .print | .printFirstLine | .lineNumber | .list _
  | .zap | .fileName => true
  | .substitute s => s.write.isNone
  | _ => false

namespace Editor

/-- Editors in the relation `R` look alike to a plain command, and remain in it if both are changed
in one of the ways in which such commands change them. -/
structure Lockstep (R : Editor → Editor → Prop) : Prop where
  pattern : ∀ {e e'}, R e e' → e'.pattern = e.pattern
  substituted : ∀ {e e'}, R e e' → e'.substituted = e.substituted
  lineNumber : ∀ {e e'}, R e e' → e'.lineNumber = e.lineNumber
  quiet : ∀ {e e'}, R e e' → e'.options.quiet = e.options.quiet
  lineWrap : ∀ {e e'}, R e e' → e'.options.lineWrap = e.options.lineWrap
  recordName : ∀ {e e'}, R e e' → e'.input.recordName = e.input.recordName
  ranges : ∀ {e e'}, R e e' → RangesAlike e.recordsRead e'.recordsRead e.ranges e'.ranges
  setPattern : ∀ {e e' t t'}, t' = t → R e e' → R { e with pattern := t } { e' with pattern := t' }
  setSubstituted : ∀ {e e'} substituted, R e e' →
    R { e with substituted } { e' with substituted }
  setRanges : ∀ {e e' ranges ranges'}, RangesAlike e.recordsRead e'.recordsRead ranges ranges' →
    R e e' → R { e with ranges } { e' with ranges := ranges' }
  tell : ∀ event, Agrees R (tell event) (tell event)
  printPattern : Agrees R printPattern printPattern
  printFirst : ∀ text, Agrees R (printRecord text true) (printRecord text true)
  printText : ∀ text, Agrees R (printText text) (printText text)
  enqueueText : ∀ text, Agrees R (enqueue (.text text)) (enqueue (.text text))
  release : Agrees R release release
  hasNext : Agrees R hasNext hasNext

/-- Editors in the relation `R` look alike to all commands that neither read on nor use other
files. -/
structure HoldLockstep (R : Editor → Editor → Prop) : Prop extends Lockstep R where
  terminated : ∀ {e e'}, R e e' → e'.terminated = e.terminated
  hold : ∀ {e e'}, R e e' → e'.hold = e.hold
  setHold : ∀ {e e' t t'}, t' = t → R e e' → R { e with hold := t } { e' with hold := t' }

/-- Editors in the relation `R` look alike to all commands that do not read on. -/
structure FullLockstep (R : Editor → Editor → Prop) : Prop extends HoldLockstep R where
  writeTo : ∀ target text terminated,
    Agrees R (writeTo target text terminated) (writeTo target text terminated)
  enqueueFile : ∀ name, Agrees R (enqueue (.file name)) (enqueue (.file name))
  readLineOf : ∀ name, Agrees R (readLineOf name) (readLineOf name)

namespace Lockstep

variable {R : Editor → Editor → Prop} {c : Command} {α : Type}

lemma agrees_edit (h : Lockstep R) (f : Text → Text) : Agrees R (edit f) (edit f) :=
  Agrees.modify fun _ _ hR => h.setPattern (by rw [h.pattern hR]) hR

lemma agrees_endCycle (h : Lockstep R) (autoprint : Bool) :
    Agrees R (endCycle autoprint) (endCycle autoprint) :=
  Agrees.get fun e e' hR => by
    rw [h.quiet hR]
    exact Agrees.ite (h.printPattern.bind fun _ => h.release) h.release _ _ hR

/-! ### Selection -/

lemma agrees_searched (result : Except Regex.Exhausted α) :
    Agrees R (searched c result) (searched c result) := by
  cases result with
  | ok found => exact Agrees.pure found
  | error _ => exact Agrees.throw _

lemma agrees_atLast (h : Lockstep R) : Agrees R atLast atLast :=
  h.hasNext.bind fun _ => Agrees.pure _

lemma agrees_meets (h : Lockstep R) {a : Address}
    (hregexes : ∀ regex ∈ a.regexes, Agrees R (resolve c regex) (resolve c regex)) :
    Agrees R (meets c a) (meets c a) := by
  refine Agrees.get fun e e' hR => ?_
  cases a with
  | line n =>
      rw [h.lineNumber hR]
      exact AgreesAt.pure hR
  | last => exact h.agrees_atLast e e' hR
  | pattern regex =>
      refine AgreesAt.bind (hregexes regex (by simp [Address.regexes]) e e' hR) fun regex => ?_
      refine Agrees.get fun e₁ e₁' hR₁ => ?_
      rw [h.pattern hR₁]
      exact agrees_searched _ _ _ hR₁
  | step first step =>
      rw [h.lineNumber hR]
      cases step <;> exact AgreesAt.pure hR
  | zero => exact AgreesAt.pure hR

lemma agrees_endLine (h : Lockstep R) (stop : RangeEnd) (line : ℕ) :
    Agrees R (endLine stop line) (endLine stop line) := by
  unfold endLine
  split
  · exact Agrees.pure _
  · exact h.agrees_atLast.bind fun _ => Agrees.pure _
  all_goals exact Agrees.pure _

/-- What a range answers is remembered, and where it stands depends on nothing else. -/
lemma agrees_remember (h : Lockstep R) (slot : ℕ) (answer : Bool) {st st' : RangeState}
    (hactive : st'.active = st.active) (hlast : st.active = true → st'.lastLine = st.lastLine) :
    Agrees R
      (do
        modify fun e => { e with
          ranges := e.ranges.set slot { st with answered := some (e.recordsRead, answer) } }
        return answer)
      (do
        modify fun e => { e with
          ranges := e.ranges.set slot { st' with answered := some (e.recordsRead, answer) } }
        return answer) := by
  refine Agrees.bind (Agrees.modify fun e e' hR => ?_) fun _ => Agrees.pure _
  refine h.setRanges ((h.ranges hR).set ⟨hactive, hlast, fun b => by simp, ?_, ?_⟩) hR
  · intro r b hr
    exact (congrArg Prod.fst (Option.some.inj hr)).ge
  · intro r b hr
    exact (congrArg Prod.fst (Option.some.inj hr)).ge

/-- Ranges that stand alike are moved on alike. -/
lemma agrees_moved (h : Lockstep R) {first : Address} {stop : RangeEnd} (slot : ℕ)
    {st st' : RangeState} (hactive : st'.active = st.active)
    (hlast : st.active = true → st'.lastLine = st.lastLine)
    (hregexes : ∀ regex ∈ first.regexes ++ stop.regexes,
      Agrees R (resolve c regex) (resolve c regex)) :
    Agrees R (inRange.moved c first stop slot st) (inRange.moved c first stop slot st') := by
  intro e e' hR
  rw [inRange.moved, advanceRange, inRange.moved, advanceRange, bind_assoc, bind_assoc]
  refine Agrees.get (fun e e' hR => ?_) e e' hR
  rw [h.lineNumber hR]
  cases hcase : st.active with
  | true =>
      have hl := hlast hcase
      rw [if_pos (hactive.trans hcase), if_pos rfl, hl]
      cases st.lastLine with
      | some last =>
          rw [pure_bind, pure_bind]
          exact h.agrees_remember slot _ rfl (fun _ => rfl) e e' hR
      | none =>
          cases stop with
          | address a =>
              dsimp only
              rw [bind_assoc, bind_assoc]
              refine AgreesAt.bind (h.agrees_meets (fun regex hr => ?_) e e' hR) fun met => ?_
              · exact hregexes regex (List.mem_append_right _ hr)
              · rw [pure_bind, pure_bind]
                exact h.agrees_remember slot _ rfl fun _ => rfl
          | following | multiple =>
              dsimp only
              rw [pure_bind, pure_bind]
              exact h.agrees_remember slot _ rfl (fun _ => rfl) e e' hR
  | false =>
      have hcase' : st'.active = false := hactive.trans hcase
      rw [hcase', if_neg Bool.false_ne_true, if_neg Bool.false_ne_true, bind_assoc, bind_assoc]
      refine AgreesAt.bind (h.agrees_meets (fun regex hr => ?_) e e' hR) fun met => ?_
      · exact hregexes regex (List.mem_append_left _ hr)
      · cases met with
        | true =>
            rw [if_pos rfl, if_pos rfl, bind_assoc, bind_assoc]
            refine (h.agrees_endLine stop e.lineNumber).bind fun last => ?_
            rw [pure_bind, pure_bind]
            exact h.agrees_remember slot _ rfl fun _ => rfl
        | false =>
            rw [if_neg (by simp), if_neg (by simp), pure_bind, pure_bind]
            exact h.agrees_remember slot _ hactive hlast

lemma agrees_inRange (h : Lockstep R) {first : Address} {stop : RangeEnd} (slot : ℕ)
    (hregexes : ∀ regex ∈ first.regexes ++ stop.regexes,
      Agrees R (resolve c regex) (resolve c regex)) :
    Agrees R (inRange c first stop slot) (inRange c first stop slot) := by
  intro e e' hR
  rw [AgreesAt]
  cases hst : e.ranges[slot]? with
  | none =>
      rw [inRange_of_none hst, inRange_of_none ((h.ranges hR).of_none hst)]
      exact ⟨rfl, hR⟩
  | some st =>
      obtain ⟨st', hst', hactive, hlast, hanswered, -, -⟩ := (h.ranges hR).of_some hst
      by_cases hknown : ∃ b, st.answered = some (e.recordsRead, b)
      · obtain ⟨b, hb⟩ := hknown
        rw [inRange_of_answered hst hb, inRange_of_answered hst' ((hanswered b).2 hb)]
        exact ⟨rfl, hR⟩
      · have hnew : ∀ b, st.answered ≠ some (e.recordsRead, b) := fun b hb => hknown ⟨b, hb⟩
        have hnew' : ∀ b, st'.answered ≠ some (e'.recordsRead, b) :=
          fun b hb => hnew b ((hanswered b).1 hb)
        rw [inRange_of_new hst hnew, inRange_of_new hst' hnew']
        exact h.agrees_moved slot hactive hlast hregexes e e' hR

lemma agrees_applies (h : Lockstep R)
    (hregexes : ∀ regex ∈ c.regexes, Agrees R (resolve c regex) (resolve c regex)) :
    Agrees R (applies c) (applies c) := by
  have hselection : ∀ regex ∈ c.selection.regexes, Agrees R (resolve c regex) (resolve c regex) :=
    fun regex hr => hregexes regex (List.mem_append_left _ hr)
  rw [applies]
  cases hs : c.selection with
  | all => exact Agrees.pure _
  | single a =>
      rw [hs] at hselection
      exact (h.agrees_meets hselection).bind fun _ => Agrees.pure _
  | range first stop slot =>
      rw [hs] at hselection
      exact (h.agrees_inRange slot hselection).bind fun _ => Agrees.pure _

lemma rangeEnded_eq (h : Lockstep R) {e e' : Editor} (hR : R e e') :
    rangeEnded c e' = rangeEnded c e := by
  rw [rangeEnded, rangeEnded]
  split
  · rename_i slot _
    cases hst : e.ranges[slot]? with
    | none => rw [(h.ranges hR).of_none hst]
    | some st =>
        obtain ⟨st', hst', halike⟩ := (h.ranges hR).of_some hst
        simp [hst', halike.active]
  · rfl

/-! ### Commands -/

/-- Two substitutions that differ in their targets at most. -/
lemma agrees_substituteFor (h : Lockstep R) {s : Substitution} (write : Option Target)
    (regex : Regex) (hwrite : ∀ e e', R e e' → ∀ text, Agrees R (writeResult s text e.terminated)
      (writeResult { s with write } text e'.terminated)) :
    Agrees R (substituteFor c s regex) (substituteFor c { s with write } regex) := by
  refine Agrees.get fun e e' hR => ?_
  rw [h.pattern hR]
  refine (agrees_searched _).bind (fun ⟨result, count⟩ => ?_) e e' hR
  refine Agrees.ite (Agrees.pure _) ((h.tell _).bind fun _ => ?_)
  refine Agrees.bind (Agrees.modify fun e e' hR => ?_) fun _ => ?_
  · exact h.setSubstituted true (h.setPattern (Eq.refl result) hR)
  · refine Agrees.ite ?_ (hwrite e e' hR result)
    exact h.printPattern.bind fun _ => hwrite e e' hR result

lemma agrees_substitute (h : Lockstep R) {s : Substitution} (write : Option Target)
    (hregex : Agrees R (resolve c s.regex) (resolve c s.regex))
    (hwrite : ∀ e e', R e e' → ∀ text, Agrees R (writeResult s text e.terminated)
      (writeResult { s with write } text e'.terminated)) :
    Agrees R (substitute c s) (substitute c { s with write }) := by
  rw [substitute_eq, substitute_eq]
  refine hregex.bind fun regex => Agrees.ite ?_ (h.agrees_substituteFor write regex hwrite)
  exact Agrees.bind (Agrees.throw _) fun _ => h.agrees_substituteFor write regex hwrite

lemma agrees_test (h : Lockstep R) (condition : Condition) :
    Agrees R (test condition) (test condition) := by
  intro e e' hR
  rw [AgreesAt, test, run_modifyGet, run_modifyGet]
  cases condition with
  | always => exact ⟨rfl, hR⟩
  | ifSubstituted | ifNotSubstituted =>
      refine ⟨?_, h.setSubstituted false hR⟩
      rw [h.substituted hR]

/-- A command that does one thing and goes on. -/
lemma agrees_goOn {m : Edit α} (hm : Agrees R m m) (flow : Flow) :
    Agrees R (m >>= fun _ => pure flow) (m >>= fun _ => pure flow) :=
  hm.bind fun _ => Agrees.pure _

/-- A plain command has the same effect on both sides. -/
lemma agrees_perform (h : Lockstep R) (following : ℕ)
    (hregexes : ∀ regex ∈ c.regexes, Agrees R (resolve c regex) (resolve c regex))
    (hplain : c.action.isPlain = true) : Agrees R (perform c following) (perform c following) := by
  refine Agrees.get fun e e' hR => ?_
  cases hc : c.action with
  | block | blockEnd | label | delete => exact AgreesAt.pure hR
  | branch condition label target =>
      refine (h.agrees_test condition).bind (fun taken => ?_) e e' hR
      exact Agrees.ite (agrees_goOn (h.tell _) _) (Agrees.pure _)
  | substitute s =>
      have hregex := hregexes s.regex (by simp [Command.regexes, hc])
      have hwrite : s.write = none := by
        rw [hc] at hplain
        exact Option.isNone_iff_eq_none.1 hplain
      refine agrees_goOn (h.agrees_substitute s.write hregex fun _ _ _ text => ?_) _ e e' hR
      rw [writeResult, writeResult, hwrite]
      exact Agrees.pure _
  | transliterate | zap => exact agrees_goOn (h.agrees_edit _) _ e e' hR
  | insert text => exact agrees_goOn (h.printText _) _ e e' hR
  | append text => exact agrees_goOn (h.enqueueText _) _ e e' hR
  | change text =>
      rw [h.rangeEnded_eq hR]
      exact Agrees.ite (agrees_goOn (h.printText _) _) (Agrees.pure _) e e' hR
  | deleteFirstLine =>
      dsimp only
      rw [h.pattern hR]
      rcases Text.splitLine e.pattern with ⟨first, _ | rest⟩
      · exact AgreesAt.pure hR
      · exact agrees_goOn (h.agrees_edit _) _ e e' hR
  | print => exact agrees_goOn h.printPattern _ e e' hR
  | printFirstLine =>
      dsimp only
      rw [h.pattern hR]
      rcases Text.splitLine e.pattern with ⟨first, _ | rest⟩
      · exact agrees_goOn h.printPattern _ e e' hR
      · exact agrees_goOn (h.printFirst _) _ e e' hR
  | lineNumber =>
      dsimp only
      rw [h.lineNumber hR]
      exact agrees_goOn (h.printText _) _ e e' hR
  | list width =>
      dsimp only
      rw [h.pattern hR, h.lineWrap hR]
      exact agrees_goOn (h.printText _) _ e e' hR
  | fileName =>
      dsimp only
      rw [h.recordName hR]
      exact agrees_goOn (h.printText _) _ e e' hR
  | _ =>
      rw [hc] at hplain
      cases hplain

/-! ### Steps -/

lemma agrees_beginCycle (h : Lockstep R) : Agrees R beginCycle beginCycle :=
  Agrees.get fun e e' hR => by
    rw [h.lineNumber hR, h.pattern hR]
    exact (h.tell _).bind (fun _ => Agrees.pure _) e e' hR

lemma agrees_follow (h : Lockstep R) (flow : Flow) : Agrees R (follow flow) (follow flow) := by
  cases flow with
  | goOn next => exact Agrees.pure _
  | endCycle autoprint => exact (h.agrees_endCycle _).bind fun _ => Agrees.pure _
  | restart => exact (h.agrees_endCycle _).bind fun _ => h.agrees_beginCycle
  | quit autoprint exitCode =>
      refine Agrees.get fun e e' hR => ?_
      rw [h.lineNumber hR]
      refine (h.tell _).bind (fun _ => Agrees.ite ?_ (Agrees.pure _)) e e' hR
      exact (h.agrees_endCycle _).bind fun _ => Agrees.pure _

/-- A step that comes to a command has the same effect on both sides if the command does. -/
lemma agrees_running (h : Lockstep R) {p : Program} {index : ℕ}
    (hregexes : ∀ c, p.commands[index]? = some c → ∀ regex ∈ c.regexes,
      Agrees R (resolve c regex) (resolve c regex))
    (hperform : ∀ c, p.commands[index]? = some c →
      Agrees R (perform c (index + 1)) (perform c (index + 1))) :
    Agrees R (step p (.running index)) (step p (.running index)) := by
  cases hc : p.commands[index]? with
  | none =>
      rw [step_of_none hc]
      exact h.agrees_follow _
  | some c =>
      rw [step_of_some hc]
      refine (h.agrees_applies (hregexes c hc)).bind fun selected => ?_
      exact Agrees.ite ((hperform c hc).bind h.agrees_follow) (Agrees.pure _)

/-- A step that comes to a plain command has the same effect on both sides. -/
lemma agrees_step (h : Lockstep R) {p : Program} {index : ℕ}
    (hregexes : ∀ c, p.commands[index]? = some c → ∀ regex ∈ c.regexes,
      Agrees R (resolve c regex) (resolve c regex))
    (hplain : ∀ c, p.commands[index]? = some c → c.action.isPlain = true) :
    Agrees R (step p (.running index)) (step p (.running index)) :=
  h.agrees_running hregexes fun c hc => h.agrees_perform _ (hregexes c hc) (hplain c hc)

end Lockstep

namespace HoldLockstep

variable {R : Editor → Editor → Prop} {c : Command}

/-- A command has the same effect on both sides if what it does with other files has, unless it
reads on. -/
lemma agrees_perform (h : HoldLockstep R) (following : ℕ)
    (hregexes : ∀ regex ∈ c.regexes, Agrees R (resolve c regex) (resolve c regex))
    (hwrite : ∀ target, c.action.target? = some target → ∀ text terminated,
      Agrees R (writeTo target text terminated) (writeTo target text terminated))
    (hfile : ∀ name, c.action = .appendFile name →
      Agrees R (enqueue (.file name)) (enqueue (.file name)))
    (hline : ∀ name, c.action = .appendFileLine name →
      Agrees R (readLineOf name) (readLineOf name))
    (hnext : c.action ≠ .next) (happend : c.action ≠ .appendNext) :
    Agrees R (perform c following) (perform c following) := by
  by_cases hplain : c.action.isPlain = true
  · exact h.toLockstep.agrees_perform following hregexes hplain
  refine Agrees.get fun e e' hR => ?_
  cases hc : c.action with
  | substitute s =>
      have hregex := hregexes s.regex (by simp [Command.regexes, hc])
      refine Lockstep.agrees_goOn (h.agrees_substitute s.write hregex fun e e' hR text => ?_) _
        e e' hR
      rw [hc] at hwrite
      rw [h.terminated hR, writeResult]
      cases hs : s.write with
      | none => exact Agrees.pure _
      | some target => exact hwrite target hs _ _
  | next => exact absurd hc hnext
  | appendNext => exact absurd hc happend
  | hold => exact ⟨rfl, h.setHold (h.pattern hR) hR⟩
  | holdAppend => exact ⟨rfl, h.setHold (by rw [h.hold hR, h.pattern hR]) hR⟩
  | get => exact ⟨rfl, h.setPattern (h.hold hR) hR⟩
  | getAppend => exact ⟨rfl, h.setPattern (by rw [h.hold hR, h.pattern hR]) hR⟩
  | exchange => exact ⟨rfl, h.setHold (h.pattern hR) (h.setPattern (h.hold hR) hR)⟩
  | quit exitCode autoprint => exact AgreesAt.pure hR
  | appendFile name => exact Lockstep.agrees_goOn (hfile name hc) _ e e' hR
  | appendFileLine name =>
      refine (hline name hc).bind (fun line => ?_) e e' hR
      cases line with
      | none => exact Agrees.pure _
      | some line => exact Lockstep.agrees_goOn (h.enqueueText _) _
  | write target =>
      dsimp only
      rw [hc] at hwrite
      rw [h.pattern hR, h.terminated hR]
      exact Lockstep.agrees_goOn (hwrite target rfl _ _) _ e e' hR
  | writeFirstLine target =>
      dsimp only
      rw [hc] at hwrite
      rw [h.pattern hR]
      exact Lockstep.agrees_goOn (hwrite target rfl _ _) _ e e' hR
  | _ =>
      rw [hc] at hplain
      exact absurd rfl hplain

end HoldLockstep

namespace FullLockstep

variable {R : Editor → Editor → Prop} {c : Command}

/-- A command has the same effect on both sides, unless it reads on. -/
lemma agrees_perform (h : FullLockstep R) (following : ℕ)
    (hregexes : ∀ regex ∈ c.regexes, Agrees R (resolve c regex) (resolve c regex))
    (hnext : c.action ≠ .next) (happend : c.action ≠ .appendNext) :
    Agrees R (perform c following) (perform c following) :=
  h.toHoldLockstep.agrees_perform following hregexes (fun target _ => h.writeTo target)
    (fun name _ => h.enqueueFile name) (fun name _ => h.readLineOf name) hnext happend

/-- A step that comes to a command has the same effect on both sides, unless the command reads
on. -/
lemma agrees_step (h : FullLockstep R) {p : Program} {index : ℕ}
    (hregexes : ∀ c, p.commands[index]? = some c → ∀ regex ∈ c.regexes,
      Agrees R (resolve c regex) (resolve c regex))
    (hreads : ∀ c, p.commands[index]? = some c → c.action ≠ .next ∧ c.action ≠ .appendNext) :
    Agrees R (step p (.running index)) (step p (.running index)) :=
  h.agrees_running hregexes fun c hc =>
    h.agrees_perform _ (hregexes c hc) (hreads c hc).1 (hreads c hc).2

end FullLockstep

end Editor

end StreamEditor
