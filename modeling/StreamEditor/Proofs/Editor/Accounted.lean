import StreamEditor.Proofs.Editor.Cycles
import StreamEditor.Proofs.Editor.Directed
import StreamEditor.Proofs.Editor.Ledger
import StreamEditor.Regex.Builtin

/-!
Runs keep exact account of the records that were read and of substitutions.

* `Editor.stepMarks`, `Editor.runMarks`: the marks of a step and of a run.
* `Editor.Untaken`: one editor comes from another one without taking a record.
* `Editor.Accounts`: one editor comes from another one with these marks.
* `Editor.Accounted`: a change, failed or not, leads to such an editor. Changes put together from
  such are of this kind too.
* `Editor.accounted_perform`, `Editor.accounts_advance`: so are a command and a run.
* `Editor.Takes`: a record is taken from what is left of the input, and loaded.
  `Editor.takes_of_consumed`: a step that reads does so, after what comes first.
* `Editor.bookkeeping_exact`: what is remembered at any point of a run is what its marks tell.
-/

namespace StreamEditor

/-- What is remembered does not depend on the command. -/
def Action.leavesLedger : Action → Bool
  | .substitute _ | .branch .ifSubstituted _ _ | .branch .ifNotSubstituted _ _
  | .next | .appendNext =>
      false
  | _ => true

/-- What stands before a record that the command loads: if it appends the record, the pattern space
and a newline. -/
def Action.beforeLoaded (pattern : Text) : Action → Text
  | .appendNext => pattern ++ ['\n']
  | _ => []

/-- The condition holds, if it is known whether something was substituted. -/
def Condition.Holds (substituted : Prop) : Condition → Prop
  | .always => True
  | .ifSubstituted => substituted
  | .ifNotSubstituted => ¬substituted

namespace Editor

/-! ### Marks -/

/-- The record that is read next. -/
def upcoming (e : Editor) : Option Delivery := (e.input.left e.environment).head?

/-- The next record is read, if there is one. -/
def readMarks (e : Editor) : List Mark := (upcoming e).toList.map .consumed

/-- What a substitution for the matches of an expression leaves to be remembered. -/
def substituteMarks (s : Substitution) (regex : Regex) (e : Editor) : List Mark :=
  match regex.replace s.template s.occurrence s.everywhere e.pattern with
  | .error _ => []
  | .ok (_, count) => if count = 0 then [] else [.replaced]

/-- The marks of a command. -/
def actionMarks (c : Command) (e : Editor) : Action → List Mark
  | .substitute s =>
      sequel (resolve c s.regex)
        (fun regex e =>
          if regex.groupCount ≤ s.template.maxGroup then [] else substituteMarks s regex e) e
  | .branch .always _ _ => []
  | .branch .ifSubstituted _ _ | .branch .ifNotSubstituted _ _ => [.tested]
  | .next =>
      sequel atEnd
        (fun ended e => if ended then [] else sequel (endCycle true) (fun _ => readMarks) e) e
  | .appendNext =>
      sequel atEnd (fun ended e => if ended then [] else sequel release (fun _ => readMarks) e) e
  | _ => []

/-- The marks of a step. -/
def stepMarks (p : Program) (stage : Stage) (e : Editor) : List Mark :=
  match stage with
  | .reading => readMarks e
  | .running index =>
      match p.commands[index]? with
      | none => []
      | some c =>
          sequel (applies c) (fun selected e => if selected then actionMarks c e c.action else []) e
  | .finished _ => []

/-- The marks of a number of steps. -/
def runMarks (p : Program) : ℕ → Stage → Editor → List Mark
  | 0, _, _ => []
  | count + 1, stage, e => stepMarks p stage e ++ sequel (step p stage) (runMarks p count) e

/-! ### What marks come to -/

/-- What the editor remembers. -/
def ledger (e : Editor) : Ledger :=
  ⟨e.substituted, e.recordsRead, e.lineNumber, e.fileIndex, e.terminated⟩

/-- From `e` to `e'` no record is taken: the input stays as it is, or is looked at, or is read where
nothing is left of it. -/
inductive Untaken : Editor → Editor → Prop
  | same {e e' : Editor} (h : e'.input = e.input) : Untaken e e'
  | look (e : Editor) : Untaken e (hasNext.run e).2
  | spent {e : Editor} (h : upcoming e = none) : Untaken e (readRecord.run e).2
  | trans {e e' e'' : Editor} (h : Untaken e e') (h' : Untaken e' e'') : Untaken e e''

/-- What is remembered afterwards is what the marks make of it. No file is gone back to, and without
a mark of it no record is taken. -/
structure Accounts (marks : List Mark) (e e' : Editor) : Prop where
  options : e'.options = e.options
  ledger : e'.ledger = e.ledger.after e.options.separate marks
  ahead : e.input.readerIndex ≤ e'.input.readerIndex
  between : ∀ d ∈ consumed marks, e.input.readerIndex ≤ d.index ∧ d.index ≤ e'.input.readerIndex
  ascending : Ascending (consumed marks)
  untaken : consumed marks = [] → Untaken e e'

section Accounts

variable {e e' e'' : Editor} {marks marks' : List Mark}

lemma Accounts.of_untaken (h : Untaken e e') (hoptions : e'.options = e.options)
    (hledger : e'.ledger = e.ledger) (hahead : e.input.readerIndex ≤ e'.input.readerIndex) :
    Accounts [] e e' :=
  ⟨hoptions, hledger, hahead, nofun, .nil, fun _ => h⟩

lemma Accounts.of_same (hoptions : e'.options = e.options) (hledger : e'.ledger = e.ledger)
    (hinput : e'.input = e.input) : Accounts [] e e' :=
  .of_untaken (.same hinput) hoptions hledger (hinput ▸ le_rfl)

lemma Accounts.append (h : Accounts marks e e') (h' : Accounts marks' e' e'') :
    Accounts (marks ++ marks') e e'' where
  options := h'.options.trans h.options
  ledger := by
    rw [h'.ledger, h.ledger, h.options, Ledger.after, Ledger.after, Ledger.after, List.foldl_append]
  ahead := h.ahead.trans h'.ahead
  between d hd := by
    rw [consumed_append] at hd
    obtain hd | hd := List.mem_append.1 hd
    · exact ⟨(h.between d hd).1, (h.between d hd).2.trans h'.ahead⟩
    · exact ⟨h.ahead.trans (h'.between d hd).1, (h'.between d hd).2⟩
  ascending := by
    rw [consumed_append]
    refine List.pairwise_append.2 ⟨h.ascending, h'.ascending, fun d hd d' hd' => ?_⟩
    exact (h.between d hd).2.trans (h'.between d' hd').1
  untaken hnone := by
    rw [consumed_append] at hnone
    obtain ⟨hfirst, hlast⟩ := List.append_eq_nil_iff.1 hnone
    exact (h.untaken hfirst).trans (h'.untaken hlast)

instance : IsTrans Editor (Accounts []) where
  trans _ _ _ h h' := h.append h'

/-- A mark that does not come from reading. -/
lemma Accounts.of_mark {m : Mark} (hm : m.delivery? = none) (hoptions : e'.options = e.options)
    (hledger : e'.ledger = e.ledger.enter e.options.separate m) (hinput : e'.input = e.input) :
    Accounts [m] e e' := by
  have hnone : consumed [m] = [] := List.filterMap_cons_none hm
  refine ⟨hoptions, hledger, hinput ▸ le_rfl, ?_, ?_, fun _ => .same hinput⟩ <;> rw [hnone]
  · exact nofun
  · exact .nil

/-- A record that is loaded was read before. -/
lemma Accounts.of_read {d : Delivery} {input : Input} {environment : Environment}
    (h : Accounts [.consumed d] { e with input, environment } e')
    (hahead : e.input.readerIndex ≤ input.readerIndex) : Accounts [.consumed d] e e' where
  options := h.options
  ledger := h.ledger
  ahead := hahead.trans h.ahead
  between d' hd' := ⟨hahead.trans (h.between d' hd').1, (h.between d' hd').2⟩
  ascending := h.ascending
  untaken := nofun

lemma looking_accounts : Looking (Accounts []) where
  aside _ _ _ := .of_same rfl rfl rfl
  hasNext e := .of_untaken (.look e) rfl rfl
    (Input.readerIndex_le_hasNextFrom e.input e.environment e.input.pending)

end Accounts

/-! ### Output -/

/-- Nothing has changed but what is output and what waits for it, and what is read line by line. -/
def Outward (e e' : Editor) : Prop :=
  ∃ environment output writers queue lineReaders,
    e' = { e with environment, output, writers, queue, lineReaders }

section Outward

instance : Std.Refl Outward := ⟨fun _ => ⟨_, _, _, _, _, rfl⟩⟩

instance : IsTrans Editor Outward where
  trans _ _ _ := by
    rintro ⟨_, _, _, _, _, rfl⟩ ⟨_, _, _, _, _, rfl⟩
    exact ⟨_, _, _, _, _, rfl⟩

lemma outward_tell (event : Event) : Moves Outward (tell event) :=
  Moves.modify fun e => by
    split
    · exact ⟨_, _, _, _, _, rfl⟩
    · exact Std.Refl.refl e

lemma outward_emit (f : Output → Output.Attempt) : Moves Outward (emit f) := fun e => by
  rw [run_emit]
  exact ⟨_, _, _, _, _, rfl⟩

lemma outward_printRecord (text : Text) (terminated : Bool) :
    Moves Outward (printRecord text terminated) := outward_emit _

lemma outward_printText (text : Text) : Moves Outward (printText text) := outward_emit _

lemma outward_printPattern : Moves Outward printPattern :=
  Moves.get_bind fun _ => outward_printRecord _ _

lemma outward_writeTo (target : Target) (text : Text) (terminated : Bool) :
    Moves Outward (writeTo target text terminated) := by
  cases target with
  | output => exact outward_printRecord _ _
  | errors => exact Moves.modify fun e => ⟨_, _, _, _, _, rfl⟩
  | file index =>
      intro e
      rw [writeTo]
      cases hw : e.writers[index]? with
      | none =>
          rw [run_writeToFile_of_none hw]
          exact Std.Refl.refl e
      | some writer =>
          rw [run_writeToFile hw]
          exact ⟨_, _, _, _, _, rfl⟩

lemma outward_writeResult (s : Substitution) (text : Text) (terminated : Bool) :
    Moves Outward (writeResult s text terminated) := by
  rw [writeResult]
  cases s.write with
  | none => exact Moves.pure _
  | some target => exact outward_writeTo _ _ _

lemma outward_enqueue (q : Queued) : Moves Outward (enqueue q) :=
  Moves.modify fun _ => ⟨_, _, _, _, _, rfl⟩

lemma outward_deliver (q : Queued) : Moves Outward (deliver q) := by
  cases q with
  | text t => exact outward_printText t
  | file name =>
      refine Moves.get fun e => ?_
      rcases e.environment.storage.read? name with ⟨_ | contents, storage⟩
      · exact ⟨_, _, _, _, _, rfl⟩
      · let e₁ : Editor := { e with environment := { e.environment with storage } }
        have hread : Outward e e₁ := ⟨_, _, _, _, _, rfl⟩
        exact IsTrans.trans _ _ _ hread (outward_emit (·.writeRaw contents) e₁)

lemma outward_release : Moves Outward release := by
  refine Moves.get fun e => IsTrans.trans _ _ _ ?_ (Moves.forM outward_deliver _ _)
  exact ⟨_, _, _, _, _, rfl⟩

lemma outward_endCycle (autoprint : Bool) : Moves Outward (endCycle autoprint) :=
  Moves.get_bind fun _ =>
    Moves.ite (outward_printPattern.bind fun _ => outward_release) outward_release

lemma outward_readLineOf (name : Text) : Moves Outward (readLineOf name) :=
  Moves.modifyGet fun e => by
    dsimp only
    split <;> exact ⟨_, _, _, _, _, rfl⟩

lemma outward_beginCycle : Moves Outward beginCycle :=
  Moves.get_bind fun _ => (outward_tell _).bind fun _ => Moves.pure _

lemma outward_follow (flow : Flow) : Moves Outward (follow flow) := by
  cases flow with
  | goOn next => exact Moves.pure _
  | endCycle autoprint => exact (outward_endCycle _).bind fun _ => Moves.pure _
  | restart => exact (outward_endCycle _).bind fun _ => outward_beginCycle
  | quit autoprint exitCode =>
      refine Moves.get_bind fun e => (outward_tell _).bind fun _ => Moves.ite ?_ (Moves.pure _)
      exact (outward_endCycle _).bind fun _ => Moves.pure _

lemma Outward.accounts {e e' : Editor} (h : Outward e e') : Accounts [] e e' := by
  obtain ⟨_, _, _, _, _, rfl⟩ := h
  exact .of_same rfl rfl rfl

lemma Moves.accounts {α : Type} {m : Edit α} (h : Moves Outward m) : Moves (Accounts []) m :=
  h.mono fun _ _ => Outward.accounts

end Outward

/-! ### Changes -/

/-- Whether `m` fails or not, it leads to an editor with these marks. -/
def Accounted {α : Type} (m : Edit α) (marks : Editor → List Mark) : Prop :=
  ∀ e, Accounts (marks e) e (m.run e).2

section Accounted

variable {α β : Type} {m m' : Edit α} {f : α → Edit β} {marks marks' : Editor → List Mark}
  {next : α → Editor → List Mark}

lemma Accounted.bind (hm : Accounted m marks) (hf : ∀ a, Accounted (f a) (next a)) :
    Accounted (m >>= f) fun e => marks e ++ sequel m next e := by
  intro e
  have hfirst := hm e
  dsimp only
  rw [run_bind, sequel]
  rcases hrun : m.run e with ⟨failure | a, e₁⟩ <;> rw [hrun] at hfirst
  · exact (List.append_nil _).symm ▸ hfirst
  · exact hfirst.append (hf a e₁)

/-- What comes after a change without marks. -/
lemma Accounted.after (hm : Moves (Accounts []) m) (hf : ∀ a, Accounted (f a) (next a)) :
    Accounted (m >>= f) (sequel m next) := @Accounted.bind _ _ _ _ (fun _ => []) _ hm hf

/-- What comes before a change without marks. -/
lemma Accounted.before (hm : Accounted m marks) (hf : ∀ a, Moves (Accounts []) (f a)) :
    Accounted (m >>= f) marks := by
  intro e
  have hboth := Accounted.bind hm hf e
  dsimp only at hboth
  rwa [sequel_nil, List.append_nil] at hboth

lemma Accounted.goOn (hm : Accounted m marks) (b : β) :
    Accounted (m >>= fun _ => Pure.pure b) marks :=
  hm.before fun _ => looking_accounts.pure _

lemma Accounted.ite {c : Prop} [Decidable c] (hm : Accounted m marks) (hm' : Accounted m' marks') :
    Accounted (if c then m else m') fun e => if c then marks e else marks' e := by
  by_cases h : c
  · simpa only [if_pos h] using hm
  · simpa only [if_neg h] using hm'

/-! ### Reading -/

/-- From an editor that has just read the record, `m` loads it. -/
def Loads (record : Record) (m : Edit α) : Prop :=
  ∀ e d, d.record = record → e.input.recordIndex = d.index → e.input.readerIndex = d.index →
    Accounts [.consumed d] e (m.run e).2

lemma loads_load (record : Record) (pattern : Text) {f : Unit → Edit α}
    (hf : Moves (Accounts []) (f ())) : Loads record (load record pattern >>= f) := by
  rintro e d rfl hrecord hreader
  have hload : Accounts [.consumed d] e (loaded d pattern e) := by
    refine ⟨rfl, rfl, le_rfl, fun d' hd' => ?_, List.pairwise_singleton .., nofun⟩
    rw [List.mem_singleton.1 hd']
    exact ⟨hreader.le, hreader.ge⟩
  rw [run_bind_of_ok (run_load hrecord pattern)]
  exact hload.append (hf _)

/-- What reading does. The file of the record is then the present one. -/
lemma run_readRecord_upcoming (e : Editor) :
    ∃ input environment,
      readRecord.run e = (.ok ((upcoming e).map (·.record)), { e with input, environment }) ∧
      input.left environment = (e.input.left e.environment).tail ∧
      e.input.readerIndex ≤ input.readerIndex ∧
      ∀ d ∈ upcoming e, input.recordIndex = d.index ∧ input.readerIndex = d.index := by
  have hreads : Input.Reads (e.input.left e.environment) e.input _ _ _ :=
    Input.reads_readFrom e.input e.environment e.input.pending
  refine ⟨(e.input.read e.environment).2.1, (e.input.read e.environment).2.2, ?_, hreads.left,
    Input.readerIndex_le_readFrom e.input e.environment e.input.pending, fun d hd => ⟨?_, ?_⟩⟩
  · rw [run_readRecord]
    exact congrArg (fun found => (Except.ok found, _)) hreads.found
  · have horigin := hreads.origin
    rw [show (e.input.left e.environment).head? = some d from hd] at horigin
    exact (Prod.mk.inj horigin).2
  · exact hreads.current d hd

/-- What reads the next record loads it, if there is one. -/
lemma Accounted.read {f : Option Record → Edit α} (hnone : Moves (Accounts []) (f none))
    (hsome : ∀ record, Loads record (f (some record))) :
    Accounted (readRecord >>= f) readMarks := by
  intro e
  obtain ⟨input, environment, hread, -, hahead, hcurrent⟩ := run_readRecord_upcoming e
  let e₁ : Editor := { e with input, environment }
  rw [run_bind_of_ok hread, readMarks]
  cases hnext : upcoming e with
  | none =>
      have hspent : Untaken e e₁ := by
        have hspent := Untaken.spent hnext
        rwa [hread] at hspent
      exact (Accounts.of_untaken hspent rfl rfl hahead).append (hnone e₁)
  | some d =>
      obtain ⟨hrecord, hreader⟩ := hcurrent d hnext
      exact (hsome d.record e₁ d rfl hrecord hreader).of_read hahead

/-! ### Commands -/

lemma accounted_showResult (s : Substitution) (result : Text) (count : ℕ) :
    Accounted (showResult s result count) fun _ => [.replaced] := by
  have hset : Accounted (modify fun e => { e with pattern := result, substituted := true })
      fun _ => [.replaced] := fun e => .of_mark rfl rfl rfl rfl
  have hprint : Moves (Accounts []) (if s.print then printPattern else pure ()) :=
    Moves.ite outward_printPattern.accounts (looking_accounts.pure _)
  intro e
  have hafter := Accounted.after (outward_tell (.substituted count)).accounts
    (fun _ => hset.before fun _ => hprint) e
  rwa [sequel] at hafter

lemma accounted_substituteFor (c : Command) (s : Substitution) (regex : Regex) :
    Accounted (substituteFor c s regex) (substituteMarks s regex) := by
  intro e
  rw [substituteFor_eq, run_get_bind, substituteMarks]
  cases regex.replace s.template s.occurrence s.everywhere e.pattern with
  | error _ => exact looking_accounts.throw _ e
  | ok found =>
      have hshown := (accounted_showResult s found.1 found.2).before
        fun _ => (outward_writeResult s found.1 e.terminated).accounts
      exact Accounted.ite (c := found.2 = 0) (looking_accounts.pure ()) hshown e

lemma accounted_substitute (c : Command) (s : Substitution) :
    Accounted (substitute c s) fun e => actionMarks c e (.substitute s) := by
  rw [substitute_eq]
  refine Accounted.after (looking_accounts.resolve c _) fun regex => Accounted.ite ?_ ?_
  · exact fun e => .of_same rfl rfl rfl
  · exact accounted_substituteFor c s regex

lemma accounted_test (condition : Condition) (label : Option Text) (target : Option ℕ)
    (c : Command) :
    Accounted (test condition) fun e => actionMarks c e (.branch condition label target) := by
  intro e
  cases condition with
  | always => exact .of_same rfl rfl rfl
  | ifSubstituted | ifNotSubstituted => exact .of_mark rfl rfl rfl rfl

lemma accounts_atEnd : Moves (Accounts []) atEnd :=
  looking_accounts.hasNext.bind fun _ => Moves.get_bind fun _ => looking_accounts.pure _

lemma accounted_next (c : Command) (following : ℕ) :
    Accounted (Editor.next following) fun e => actionMarks c e .next := by
  refine Accounted.after accounts_atEnd fun ended =>
    Accounted.ite (looking_accounts.pure _) ?_
  refine Accounted.after (outward_endCycle true).accounts fun _ =>
    Accounted.read ?_ fun record => ?_
  · exact looking_accounts.pure _
  · exact loads_load record record.content (looking_accounts.pure _)

lemma accounted_appendNext (c : Command) (following : ℕ) :
    Accounted (appendNext following) fun e => actionMarks c e .appendNext := by
  refine Accounted.after accounts_atEnd fun ended =>
    Accounted.ite (looking_accounts.pure _) ?_
  refine Accounted.after outward_release.accounts fun _ => Accounted.read ?_ fun record => ?_
  · exact looking_accounts.pure _
  · exact fun e => loads_load record _ (looking_accounts.pure _) e

/-- A command keeps account of its marks. -/
lemma accounted_perform (c : Command) (following : ℕ) :
    Accounted (perform c following) fun e => actionMarks c e c.action := by
  intro e
  have goOn {α : Type} {m : Edit α} (hm : Moves (Accounts []) m) (flow : Flow) :
      Accounts [] e ((m >>= fun _ => pure flow).run e).2 :=
    hm.bind (fun _ => looking_accounts.pure _) e
  have edits (f : Text → Text) : Moves (Accounts []) (edit f) :=
    Moves.modify fun _ => .of_same rfl rfl rfl
  rw [perform, run_get_bind]
  cases c.action with
  | block _ | blockEnd | label _ | delete | quit _ _ => exact looking_accounts.pure _ e
  | branch condition label target =>
      have htest := accounted_test condition label target c
      refine htest.before (fun _ => Moves.ite ?_ (looking_accounts.pure _)) e
      exact (outward_tell _).accounts.bind fun _ => looking_accounts.pure _
  | substitute s => exact (accounted_substitute c s).goOn _ e
  | next => exact accounted_next c following e
  | appendNext => exact accounted_appendNext c following e
  | transliterate _ | zap => exact goOn (edits _) _
  | deleteFirstLine =>
      rcases Text.splitLine e.pattern with ⟨first, _ | rest⟩
      · exact looking_accounts.pure _ e
      · exact goOn (edits _) _
  | insert _ | lineNumber | list _ | fileName => exact goOn (outward_printText _).accounts _
  | append _ | appendFile _ => exact goOn (outward_enqueue _).accounts _
  | change text =>
      refine Moves.ite ?_ (looking_accounts.pure _) e
      exact (outward_printText _).accounts.bind fun _ => looking_accounts.pure _
  | print => exact goOn outward_printPattern.accounts _
  | printFirstLine =>
      rcases Text.splitLine e.pattern with ⟨first, _ | rest⟩
      · exact goOn outward_printPattern.accounts _
      · exact goOn (outward_printRecord _ _).accounts _
  | hold | holdAppend | get | getAppend | exchange => exact .of_same rfl rfl rfl
  | appendFileLine name =>
      refine (outward_readLineOf name).accounts.bind (fun line => ?_) e
      cases line with
      | none => exact looking_accounts.pure _
      | some line => exact (outward_enqueue _).accounts.bind fun _ => looking_accounts.pure _
  | write target | writeFirstLine target => exact goOn (outward_writeTo _ _ _).accounts _

/-! ### Steps -/

lemma accounted_step (p : Program) (stage : Stage) :
    Accounted (step p stage) (stepMarks p stage) := by
  cases stage with
  | reading =>
      refine Accounted.read (looking_accounts.pure _) fun record => ?_
      exact loads_load record record.content outward_beginCycle.accounts
  | running index =>
      cases hc : p.commands[index]? with
      | none =>
          intro e
          rw [step_of_none hc, stepMarks, hc]
          exact (outward_follow _).accounts e
      | some c =>
          intro e
          rw [step_of_some hc, stepMarks, hc]
          refine Accounted.after (looking_accounts.applies c) (fun selected => ?_) e
          refine Accounted.ite ?_ (looking_accounts.pure _)
          exact (accounted_perform c _).before fun _ => (outward_follow _).accounts
  | finished result => exact looking_accounts.pure _

/-- A run keeps account of its marks. -/
lemma accounts_advance (p : Program) (count : ℕ) (stage : Stage) (e : Editor) :
    Accounts (runMarks p count stage e) e (advance p count stage e).2 := by
  induction count generalizing stage e with
  | zero => exact .of_same rfl rfl rfl
  | succ count ih =>
      have hstep := accounted_step p stage e
      rw [advance_succ, runMarks, sequel]
      rcases hrun : (step p stage).run e with ⟨failure | stage', e₁⟩ <;> rw [hrun] at hstep
      · rw [List.append_nil]
        exact hstep
      · exact hstep.append (ih stage' e₁)

end Accounted

/-! ### Loading -/

/-- What stands before a record that a step loads. -/
def beforeLoaded (p : Program) (stage : Stage) (e : Editor) : Text :=
  match stage with
  | .running index => (p.commands[index]?).elim [] (·.action.beforeLoaded e.pattern)
  | _ => []

/-- What a command does before it reads. -/
def beforeRead : Action → Edit Unit
  | .next => atEnd >>= fun _ => endCycle true
  | .appendNext => atEnd >>= fun _ => release
  | _ => pure ()

/-- What a step does before it reads. -/
def beforeStepReads (p : Program) : Stage → Edit Unit
  | .running index =>
      (p.commands[index]?).elim (pure ()) fun c => applies c >>= fun _ => beforeRead c.action
  | _ => pure ()

/-- From `e` to `e'` the record is taken, and no other. It was the first one that was left, and now
it is in the pattern space after `before`. -/
structure Takes (d : Delivery) (before : Text) (e e' : Editor) : Prop where
  left : e.input.left e.environment = d :: e'.input.left e'.environment
  pattern : e'.pattern = before ++ d.record.content

section Loading

variable {α γ : Type} {m : Edit α} {p : Program} {c : Command} {stage : Stage} {e e₁ : Editor}
  {d : Delivery} {index following : ℕ} {before : Text}

lemma exists_of_mem_sequel {next : α → Editor → List γ} {x : γ} (h : x ∈ sequel m next e) :
    ∃ a e₁, m.run e = (.ok a, e₁) ∧ sequel m next e = next a e₁ := by
  rw [sequel] at h ⊢
  rcases hrun : m.run e with ⟨failure | a, e₁⟩
  · rw [hrun] at h
    cases h
  · exact ⟨a, e₁, rfl, rfl⟩

lemma Outward.pattern {e e' : Editor} (h : Outward e e') : e'.pattern = e.pattern := by
  obtain ⟨_, _, _, _, _, rfl⟩ := h
  rfl

lemma asked_atEnd : Moves Asked atEnd :=
  looking_asked.hasNext.bind fun _ => Moves.get_bind fun _ => looking_asked.pure _

/-- What is read is the first record that is left. It is loaded, and what comes after does not
disturb it. -/
lemma takes_of_read {f : Option Record → Edit α} {g : Unit → Edit α} {a : α}
    (hg : ∀ e, ∃ environment, environment.storage = e.environment.storage ∧
      (g ()).run e = (.ok a, { e with environment }))
    (hf : ∀ record e', e'.pattern = e.pattern →
      (f (some record)).run e' = (load record (before ++ record.content) >>= g).run e')
    (h : .consumed d ∈ readMarks e) :
    readMarks e = [.consumed d] ∧
      ∃ e', (readRecord >>= f).run e = (.ok a, e') ∧ Takes d before e e' := by
  obtain ⟨input, environment, hread, hleft, -, hcurrent⟩ := run_readRecord_upcoming e
  cases hnext : upcoming e with
  | none =>
      rw [readMarks, hnext] at h
      cases h
  | some d' =>
      rw [readMarks, hnext] at h ⊢
      obtain rfl : d = d' := by simpa using h
      rw [hnext] at hread
      let e₁ : Editor := { e with input, environment }
      let e₂ : Editor := loaded d (before ++ d.record.content) e₁
      have hload : (load d.record (before ++ d.record.content)).run e₁ = (.ok (), e₂) :=
        run_load (hcurrent d hnext).1 _
      obtain ⟨environment', hstorage, hdone⟩ := hg e₂
      refine ⟨rfl, { e₂ with environment := environment' }, ?_, ?_, rfl⟩
      · rw [run_bind_of_ok hread, Option.map_some, hf d.record e₁ rfl, run_bind_of_ok hload]
        exact hdone
      · have hsame : input.left environment' = input.left environment :=
          congrArg (input.leftWith · input.pending) hstorage
        exact (List.eq_cons_of_mem_head? hnext).trans
          (congrArg (d :: ·) (hleft.symm.trans hsame.symm))

/-- The same where it was asked first whether there is a record, and something was output. -/
lemma takes_of_readOn {m : Edit Unit} (hm : Moves Outward m) {a b : α} {f : Option Record → Edit α}
    {g : Unit → Edit α}
    (hg : ∀ e, ∃ environment, environment.storage = e.environment.storage ∧
      (g ()).run e = (.ok a, { e with environment }))
    (hf : ∀ record e', e'.pattern = e.pattern →
      (f (some record)).run e' = (load record (before ++ record.content) >>= g).run e')
    (h : .consumed d ∈
      sequel atEnd (fun ended e => if ended then [] else sequel m (fun _ => readMarks) e) e) :
    sequel atEnd (fun ended e => if ended then [] else sequel m (fun _ => readMarks) e) e =
        [.consumed d] ∧
      ∃ e₁ e', (atEnd >>= fun _ => m).run e = (.ok (), e₁) ∧
        (atEnd >>= fun ended => if ended then pure b else m >>= fun _ => readRecord >>= f).run e =
          (.ok a, e') ∧
        Takes d before e₁ e' := by
  obtain ⟨ended, e₁, hended, hmarks⟩ := exists_of_mem_sequel h
  rw [hmarks] at h ⊢
  rw [run_bind_of_ok hended, run_bind_of_ok hended]
  -- At the end of the input nothing is read.
  cases ended with
  | true => cases h
  | false =>
      rw [if_neg Bool.false_ne_true] at h ⊢
      rw [if_neg Bool.false_ne_true]
      obtain ⟨_, e₂, hout, hmarks⟩ := exists_of_mem_sequel h
      rw [hmarks] at h ⊢
      rw [run_bind_of_ok hout]
      have hsame : e₂.pattern = e.pattern := by
        have hasked := asked_atEnd e
        have houtward := hm e₁
        rw [hended] at hasked
        rw [hout] at houtward
        exact houtward.pattern.trans hasked.pattern
      obtain ⟨hone, e', hread, htakes⟩ :=
        takes_of_read hg (fun record e' he' => hf record e' (he'.trans hsame)) h
      exact ⟨hone, e₂, e', hout, hread, htakes⟩

/-- No substitution reads. -/
lemma not_mem_substituteMarks {s : Substitution} {regex : Regex} :
    Mark.consumed d ∉ substituteMarks s regex e := by
  rw [substituteMarks]
  split
  · exact List.not_mem_nil
  · split <;> simp

/-- A command that reads goes on with the record. -/
lemma takes_of_perform (h : .consumed d ∈ actionMarks c e c.action) (following : ℕ) :
    actionMarks c e c.action = [.consumed d] ∧
      ∃ e₁ e', (beforeRead c.action).run e = (.ok (), e₁) ∧
        (perform c following).run e = (.ok (.goOn following), e') ∧
        Takes d (c.action.beforeLoaded e.pattern) e₁ e' := by
  rw [perform, run_get_bind]
  cases haction : c.action <;> rw [haction] at h
  case next =>
    rw [actionMarks] at h ⊢
    exact takes_of_readOn (g := fun _ => pure (.goOn following)) (outward_endCycle true)
      (fun e => ⟨_, rfl, rfl⟩) (fun record e' _ => rfl) h
  case appendNext =>
    rw [actionMarks] at h ⊢
    refine takes_of_readOn (g := fun _ => pure (.goOn following)) outward_release
      (fun e => ⟨_, rfl, rfl⟩) (fun record e' he' => ?_) h
    rw [run_get_bind, he', Action.beforeLoaded, List.append_assoc]
    rfl
  case branch condition label target => cases condition <;> simp [actionMarks] at h
  case substitute s =>
    rw [actionMarks] at h
    obtain ⟨regex, e₁, -, hmarks⟩ := exists_of_mem_sequel h
    rw [hmarks] at h
    split at h
    · cases h
    · exact absurd h not_mem_substituteMarks
  all_goals cases h

/-- Before it reads, a step takes no record. -/
lemma untaken_beforeStepReads (p : Program) (stage : Stage) :
    Moves Untaken (beforeStepReads p stage) := by
  have hmoves : Moves (Accounts []) (beforeStepReads p stage) := by
    cases stage with
    | reading | finished _ => exact looking_accounts.pure ()
    | running index =>
        rw [beforeStepReads]
        cases p.commands[index]? with
        | none => exact looking_accounts.pure ()
        | some c =>
            refine (looking_accounts.applies c).bind fun _ => ?_
            cases c.action
            case next => exact accounts_atEnd.bind fun _ => (outward_endCycle true).accounts
            case appendNext => exact accounts_atEnd.bind fun _ => outward_release.accounts
            all_goals exact looking_accounts.pure ()
  exact hmoves.mono fun _ _ h => h.untaken rfl

/-- A step that reads a record takes it, and reads no other. -/
lemma takes_of_consumed (h : .consumed d ∈ stepMarks p stage e) :
    stepMarks p stage e = [.consumed d] ∧
      ∃ e₁ stage' e', (beforeStepReads p stage).run e = (.ok (), e₁) ∧
        (step p stage).run e = (.ok stage', e') ∧ Takes d (beforeLoaded p stage e) e₁ e' := by
  cases stage with
  | reading =>
      have hbegin (e : Editor) : ∃ environment, environment.storage = e.environment.storage ∧
          beginCycle.run e = (.ok (.running 0), { e with environment }) := by
        obtain ⟨environment, htold, hstorage, -⟩ :=
          undisturbed_told (.cycle e.lineNumber e.pattern) e
        refine ⟨environment, hstorage, ?_⟩
        rw [← htold]
        rfl
      obtain ⟨hone, e', hread, htakes⟩ : readMarks e = [.consumed d] ∧
          ∃ e', (step p .reading).run e = (.ok (.running 0), e') ∧ Takes d [] e e' :=
        takes_of_read hbegin (fun record e' _ => rfl) h
      exact ⟨hone, e, .running 0, e', rfl, hread, htakes⟩
  | finished result => cases h
  | running index =>
      rw [stepMarks] at h ⊢
      cases hc : p.commands[index]? with
      | none =>
          rw [hc] at h
          cases h
      | some c =>
          rw [hc] at h
          obtain ⟨selected, e₁, happlies, hmarks⟩ := exists_of_mem_sequel h
          dsimp only at h ⊢
          rw [hmarks] at h ⊢
          cases selected with
          | false => cases h
          | true =>
              rw [if_pos rfl] at h ⊢
              obtain ⟨hone, e₂, e', hbefore, hperform, htakes⟩ := takes_of_perform h (index + 1)
              have hasked := looking_asked.applies c e
              rw [happlies] at hasked
              refine ⟨hone, e₂, _, e', ?_, run_step_of_applies hc happlies hperform, ?_⟩
              · rw [beforeStepReads, hc]
                exact (run_bind_of_ok happlies).trans hbefore
              · rw [beforeLoaded, hc]
                rwa [hasked.pattern] at htakes

end Loading

/-! ### Runs -/

section Runs

variable {p : Program} {c : Command} {e : Editor} {index : ℕ}

lemma actionMarks_of_leaves {a : Action} (h : a.leavesLedger = true) (e : Editor) :
    actionMarks c e a = [] := by
  cases a
  case branch condition label target => cases condition <;> first | rfl | cases h
  all_goals first | rfl | cases h

/-- A step at a command on which nothing depends leaves what is remembered as it is. -/
lemma ledger_of_leaves (hc : p.commands[index]? = some c) (h : c.action.leavesLedger = true)
    (e : Editor) : ((step p (.running index)).run e).2.ledger = e.ledger := by
  have hmarks : stepMarks p (.running index) e = [] := by
    rw [stepMarks, hc]
    simp only [actionMarks_of_leaves h, ite_self, sequel_nil]
  have hstep := (accounted_step p (.running index) e).ledger
  rwa [hmarks] at hstep

/-- A branch is taken if its condition holds. -/
lemma run_perform_branch {condition : Condition} {label : Option Text} {target : Option ℕ}
    (hc : c.action = .branch condition label target) (e : Editor) (following : ℕ) :
    ∃ jumps e', (jumps = true ↔ condition.Holds (e.substituted = true)) ∧
      (perform c following).run e =
        (.ok (if jumps then target.elim (.endCycle true) .goOn else .goOn following), e') := by
  obtain ⟨jumps, e₁, htest, hjumps⟩ : ∃ jumps e₁, (test condition).run e = (.ok jumps, e₁) ∧
      (jumps = true ↔ condition.Holds (e.substituted = true)) := by
    cases condition with
    | always => exact ⟨_, _, rfl, iff_of_true rfl trivial⟩
    | ifSubstituted => exact ⟨_, _, rfl, Iff.rfl⟩
    | ifNotSubstituted => exact ⟨_, _, rfl, by simp [Condition.Holds]⟩
  have htell : (tell (.branch target)).run e₁ = (.ok (), told (.branch target) e₁) := rfl
  rw [perform, run_get_bind, hc]
  dsimp only
  rw [run_bind_of_ok htest]
  cases jumps with
  | true => exact ⟨true, _, hjumps, run_bind_of_ok htell⟩
  | false => exact ⟨false, _, hjumps, rfl⟩

/-- To ask whether a branch is selected changes nothing about whether it is taken. -/
lemma run_perform_branch_of_applies {condition : Condition} {label : Option Text}
    {target : Option ℕ} {P : Prop} {e₁ : Editor} (hc : c.action = .branch condition label target)
    (happlies : (applies c).run e = (.ok true, e₁)) (h : e.substituted = true ↔ P)
    (following : ℕ) :
    ∃ jumps e₂, (jumps = true ↔ condition.Holds P) ∧
      (perform c following).run e₁ =
        (.ok (if jumps then target.elim (.endCycle true) .goOn else .goOn following), e₂) := by
  obtain ⟨jumps, e₂, hjumps, hperform⟩ := run_perform_branch hc e₁ following
  have hasked := looking_accounts.applies c e
  rw [happlies] at hasked
  have hsame : e₁.substituted = e.substituted := congrArg Ledger.substituted hasked.ledger
  rw [hsame, propext h] at hjumps
  exact ⟨jumps, e₂, hjumps, hperform⟩

end Runs

/-- What is remembered at any point of a run is exact. The flag is set just if a substitution
replaced something, and after that no record was read and nothing tested; so a branch that tests it
is taken just if that is so, or if it is not, and other commands than those that substitute, test
and read leave it as it is. All records that were read are counted, the number of the line is that
of the last one, among those of its file if files are streams of their own, and it is remembered
whether a separator ended it. A step that reads takes the first record that is left there, and no
other, and loads it; until it reads, and if it does not, no record is taken. -/
theorem bookkeeping_exact {p : Program} {o : Options} {input : Input} {sink : Sink}
    {env : Environment} {e₀ : Editor} (hstart : (start? p o input sink env).1 = .ok e₀) (k : ℕ) :
    let marks := runMarks p k .reading e₀
    let stage := (advance p k .reading e₀).1
    let e := (advance p k .reading e₀).2
    (e.substituted = true ↔ ReplacedSince marks) ∧
      e.recordsRead = (consumed marks).length ∧
      e.lineNumber = ordinal o.separate (consumed marks) ∧
      e.terminated = (consumed marks).getLast?.elim true (·.record.terminated) ∧
      (∀ d, .consumed d ∈ stepMarks p stage e →
        stepMarks p stage e = [.consumed d] ∧
          ∃ e₁ stage' e', (beforeStepReads p stage).run e = (.ok (), e₁) ∧ Untaken e e₁ ∧
            (step p stage).run e = (.ok stage', e') ∧ Takes d (beforeLoaded p stage e) e₁ e') ∧
      ((∀ d, .consumed d ∉ stepMarks p stage e) → Untaken e ((step p stage).run e).2) ∧
      ∀ index c, stage = .running index → p.commands[index]? = some c →
        (c.action.leavesLedger = true →
          ((step p stage).run e).2.substituted = e.substituted) ∧
        ∀ condition label target e₁, c.action = .branch condition label target →
          (applies c).run e = (.ok true, e₁) →
          ∃ jumps e₂, (jumps = true ↔ condition.Holds (ReplacedSince marks)) ∧
            (perform c (index + 1)).run e₁ =
              (.ok (if jumps then target.elim (.endCycle true) .goOn
                else .goOn (index + 1)), e₂) := by
  intro marks stage e
  obtain ⟨writers, storage, -, he₀⟩ := start?_eq_ok hstart
  have haccounts : Accounts marks e₀ e := accounts_advance p k .reading e₀
  have hempty : e₀.ledger = Ledger.empty := by rw [he₀]; rfl
  have hseparate : e₀.options.separate = o.separate := by rw [he₀]
  have hexact : e.ledger.Exact o.separate marks := by
    rw [haccounts.ledger, hempty, hseparate]
    exact Ledger.exact_after o.separate haccounts.ascending
  refine ⟨hexact.substituted, hexact.recordsRead, hexact.lineNumber, hexact.terminated,
    fun d hd => ?_, fun hnone => ?_, fun index c hstage hc => ⟨fun hleaves => ?_, ?_⟩⟩
  · obtain ⟨hone, e₁, stage', e', hbefore, hstep, htakes⟩ := takes_of_consumed hd
    have huntaken := untaken_beforeStepReads p stage e
    rw [hbefore] at huntaken
    exact ⟨hone, e₁, stage', e', hbefore, huntaken, hstep, htakes⟩
  · exact (accounted_step p stage e).untaken (consumed_eq_nil hnone)
  · rw [hstage]
    exact congrArg Ledger.substituted (ledger_of_leaves hc hleaves e)
  · intro condition label target e₁ haction happlies
    exact run_perform_branch_of_applies haction happlies hexact.substituted (index + 1)

/-- The third record is the second one of its file, and something was replaced in it. -/
theorem bookkeeping_exact_third :
    ∃ p e₀,
      Program.parse (.ofText (Text.ofString "s/a/x/\nt\nn\ns/b/y/")) .standard = .ok p ∧
      (start? p { Options.standard with separate := true } (.ofFiles [['f'], ['g']] 10 true)
        .unlimited (.start ⟨[([['f']], [97, 10]), ([['g']], [98, 10, 98])], [], []⟩)).1 = .ok e₀ ∧
      ReplacedSince (runMarks p 8 .reading e₀) ∧
      (consumed (runMarks p 8 .reading e₀)).length = 3 ∧
      ordinal true (consumed (runMarks p 8 .reading e₀)) = 2 ∧
      (consumed (runMarks p 8 .reading e₀)).getLast?.elim true (·.record.terminated) = false := by
  have hall : started? (fun p e₀ => (advance p 8 .reading e₀).2.ledger)
      (Program.parse (.ofText (Text.ofString "s/a/x/\nt\nn\ns/b/y/")) .standard)
      { Options.standard with separate := true } [['f'], ['g']]
      ⟨[([['f']], [97, 10]), ([['g']], [98, 10, 98])], [], []⟩ = some ⟨true, 3, 2, 2, false⟩ := by
    decide +kernel
  obtain ⟨p, e₀, hp, hstart, hseen⟩ := start_of_started? hall
  obtain ⟨hsubstituted, hrecords, hline, hterminated, -⟩ := bookkeeping_exact hstart 8
  rw [ledger, Ledger.mk.injEq] at hseen
  obtain ⟨hs, hr, hl, -, ht⟩ := hseen
  exact ⟨p, e₀, hp, hstart, hsubstituted.1 hs, hrecords.symm.trans hr, hline.symm.trans hl,
    hterminated.symm.trans ht⟩

end Editor

end StreamEditor
