import StreamEditor.Proofs.Editor.Lockstep
import StreamEditor.Proofs.Input.Whole
import StreamEditor.Proofs.Output.Written

/-!
A file that is read alone, and the same file among others.

* `Program.isPlain`: every command acts on the current record alone.
* `Editor.Along`: two editors that read the same file as a stream of its own; before it, the second
  has written some bytes, and after it other files follow.
* `Editor.Along.agrees_running`, `Editor.Along.begins_together`: until the file ends a plain program
  has the same effect on both.
* `Editor.running_spec`: no command of a plain program ends the run.
-/

namespace StreamEditor

/-- Every command acts on the current record alone, and looks for expressions of its own. -/
def Program.isPlain (p : Program) : Bool :=
  p.commands.all fun c => c.action.isPlain && c.regexes.all (·.isSome)

lemma Program.isPlain_iff {p : Program} :
    p.isPlain = true ↔
      ∀ c ∈ p.commands, c.action.isPlain = true ∧ ∀ regex ∈ c.regexes, regex.isSome = true := by
  simp [isPlain]

namespace Editor

/-- What is written to `e` is written to `e'` after the bytes `before`, and only texts wait for the
end of the cycle. -/
structure Shares (storage : Storage) (before : Bytes) (e e' : Editor) : Prop where
  options : e'.options = e.options
  separate : e.options.separate = true
  /-- The files among which the others are found. -/
  storage : e'.environment.storage = storage
  output : Output.After before e.output e'.output
  separator : e.output.separator = e.options.separator
  /-- Nothing waits for the output files. -/
  idle : ∀ w ∈ e.writers, w.output.waiting = []
  idle' : ∀ w ∈ e'.writers, w.output.waiting = []
  queue : e'.queue = e.queue
  texts : ∀ q ∈ e.queue, ∃ t, q = .text t

/-- Both editors are at the same place of the same file, which is followed by the files `rest` for
`e'`. -/
structure Along (storage : Storage) (before : Bytes) (rest : List Text) (e e' : Editor) : Prop
    extends Shares storage before e e' where
  input : Input.Along e.options.separator rest e.input e'.input
  file : e.fileIndex = e.input.readerIndex
  file' : e'.fileIndex = e'.input.readerIndex
  lineNumber : e'.lineNumber = e.lineNumber
  pattern : e'.pattern = e.pattern
  terminated : e.terminated = true
  terminated' : e'.terminated = true
  ranges : RangesAlike e.recordsRead e'.recordsRead e.ranges e'.ranges
  substituted : e'.substituted = e.substituted

variable {storage : Storage} {before : Bytes} {rest : List Text} {p : Program} {e e' : Editor}

namespace Along

/-! ### The basic changes -/

lemma agrees_tell (event : Event) :
    Agrees (Along storage before rest) (tell event) (tell event) :=
  Agrees.modify fun e e' h => by
    have hdebug : e'.options.debug = e.options.debug := by rw [h.options]
    rw [hdebug]
    split
    · exact { h with storage := h.storage }
    · exact h

/-- What is added to both outputs may depend on the separator. -/
lemma agrees_emit {f : Output → Output.Attempt} (data : UInt8 → Bytes)
    (hf : ∀ o : Output, o.Clear → o.Adds (data o.separator) (f o)) :
    Agrees (Along storage before rest) (emit f) (emit f) := by
  intro e e' h
  have ha := hf e.output h.output.clear
  have ha' := hf e'.output h.output.clear'
  rw [h.output.separator] at ha'
  rw [AgreesAt, run_emit, run_emit, ha.fault, ha'.fault]
  exact ⟨rfl,
    { h with
      output := h.output.adds ha ha'
      separator := ha.separator.trans h.separator }⟩

lemma agrees_printRecord (text : Text) :
    Agrees (Along storage before rest) (printRecord text true) (printRecord text true) :=
  agrees_emit (fun separator => Text.utf8 text ++ [separator]) fun _ ho => ho.adds_writeRecord text

lemma agrees_printText (text : Text) :
    Agrees (Along storage before rest) (printText text) (printText text) :=
  agrees_emit (fun _ => Text.utf8 text ++ [10]) fun _ ho => ho.adds_writeText text

lemma agrees_printPattern : Agrees (Along storage before rest) printPattern printPattern :=
  Agrees.get fun e e' h => by
    rw [h.pattern, h.terminated, h.terminated']
    exact agrees_printRecord e.pattern e e' h

lemma agrees_enqueue (text : Text) :
    Agrees (Along storage before rest) (enqueue (.text text)) (enqueue (.text text)) :=
  Agrees.modify fun e e' h => by
    refine { h with queue := by rw [h.queue], texts := fun q hq => ?_ }
    obtain hq | hq := List.mem_append.1 hq
    · exact h.texts q hq
    · exact ⟨text, List.mem_singleton.1 hq⟩

lemma agrees_release : Agrees (Along storage before rest) release release :=
  Agrees.get fun e e' h => by
    rw [h.queue]
    refine Agrees.forM (fun q hq => ?_) _ _ { h with queue := rfl, texts := fun _ hn => nomatch hn }
    obtain ⟨text, rfl⟩ := h.texts q hq
    exact agrees_printText text

lemma agrees_hasNext : Agrees (Along storage before rest) hasNext hasNext := by
  intro e e' h
  obtain ⟨found, i, i', hnext, hnext', hinput, hindex, hindex'⟩ :=
    h.input.hasNext e.environment e'.environment
  rw [AgreesAt, run_hasNext, run_hasNext, hnext, hnext']
  exact ⟨rfl,
    { h with
      input := hinput
      file := h.file.trans hindex.symm
      file' := h.file'.trans hindex'.symm }⟩

/-- An expression of its own is the one that a command means. -/
lemma agrees_resolve (c : Command) {regex : Option Regex} (hregex : regex.isSome = true) :
    Agrees (Along storage before rest) (resolve c regex) (resolve c regex) := by
  obtain ⟨own, rfl⟩ := Option.isSome_iff_exists.1 hregex
  exact Agrees.get fun e e' h => ⟨rfl, { h with output := h.output }⟩

/-- Plain commands see no difference. -/
lemma lockstep : Lockstep (Along storage before rest) where
  pattern h := h.pattern
  substituted h := h.substituted
  lineNumber h := h.lineNumber
  quiet h := by rw [h.options]
  lineWrap h := by rw [h.options]
  recordName h := h.input.recordName
  ranges h := h.ranges
  setPattern ht h := { h with pattern := ht }
  setSubstituted _ h := { h with substituted := rfl }
  setRanges hr h := { h with ranges := hr }
  tell := agrees_tell
  printPattern := agrees_printPattern
  printFirst := agrees_printRecord
  printText := agrees_printText
  enqueueText := agrees_enqueue
  release := agrees_release
  hasNext := agrees_hasNext

/-- A command of a plain program has the same effect on both sides. -/
lemma agrees_running (hp : p.isPlain = true) (index : ℕ) :
    Agrees (Along storage before rest) (step p (.running index)) (step p (.running index)) := by
  have hplain (c : Command) (hc : p.commands[index]? = some c) :=
    Program.isPlain_iff.1 hp c (List.mem_of_getElem? hc)
  refine lockstep.agrees_step (fun c hc regex hr => ?_) fun c hc => (hplain c hc).1
  exact agrees_resolve c ((hplain c hc).2 regex hr)

end Along

/-! ### Reading -/

/-- A record of which both say in the same way whether it begins a file. -/
lemma agrees_load (h : Shares storage before e e')
    (hinput : Input.Along e.options.separator rest e.input e'.input)
    (hindex : e.input.recordIndex = e.input.readerIndex)
    (hindex' : e'.input.recordIndex = e'.input.readerIndex)
    (hline : e.input.recordIndex = e.fileIndex ∧ e'.input.recordIndex = e'.fileIndex ∧
        e'.lineNumber = e.lineNumber ∨
      e.input.recordIndex ≠ e.fileIndex ∧ e'.input.recordIndex ≠ e'.fileIndex)
    (hranges : RangesAlike (e.recordsRead + 1) (e'.recordsRead + 1) e.ranges e'.ranges)
    {record : Record} (hterminated : record.terminated = true) :
    AgreesAt (Along storage before rest) (load record record.content) (load record record.content)
      e e' := by
  have hbefore : lineBefore e' = lineBefore e := by
    obtain ⟨hsame, hsame', hnumber⟩ | ⟨hnew, hnew'⟩ := hline
    · rw [lineBefore_of_same hsame, lineBefore_of_same hsame', hnumber]
    · have hseparate' : e'.options.separate = true := by rw [h.options, h.separate]
      rw [lineBefore_of_new h.separate hnew, lineBefore_of_new hseparate' hnew']
  refine ⟨rfl, ?_⟩
  exact
    { h with
      input := hinput
      file := hindex
      file' := hindex'
      lineNumber := congrArg (· + 1) hbefore
      pattern := rfl
      terminated := hterminated
      terminated' := hterminated
      ranges := hranges
      substituted := rfl }

/-- A cycle begins on both sides with the same record. -/
lemma begins_together {i i' : Input} {record : Record} (h : Shares storage before e e')
    (hread : e.input.read e.environment = (some record, i, e.environment))
    (hread' : e'.input.read e'.environment = (some record, i', e'.environment))
    (hinput : Input.Along e.options.separator rest i i') (hterminated : record.terminated = true)
    (hindex : i.recordIndex = i.readerIndex) (hindex' : i'.recordIndex = i'.readerIndex)
    (hline : i.recordIndex = e.fileIndex ∧ i'.recordIndex = e'.fileIndex ∧
        e'.lineNumber = e.lineNumber ∨
      i.recordIndex ≠ e.fileIndex ∧ i'.recordIndex ≠ e'.fileIndex)
    (hranges : RangesAlike (e.recordsRead + 1) (e'.recordsRead + 1) e.ranges e'.ranges) :
    ∃ e₁ e₁', (step p .reading).run e = (.ok (.running 0), e₁) ∧
      (step p .reading).run e' = (.ok (.running 0), e₁') ∧ Along storage before rest e₁ e₁' := by
  have hrun := run_readRecord e
  have hrun' := run_readRecord e'
  rw [hread] at hrun
  rw [hread'] at hrun'
  have hshares : Shares storage before { e with input := i } { e' with input := i' } :=
    { h with output := h.output }
  have hload := agrees_load hshares hinput hindex hindex' hline hranges hterminated
  obtain ⟨-, halong⟩ := hload.bind fun _ => Along.lockstep.agrees_beginCycle
  exact ⟨_, _, run_bind_of_ok hrun, run_bind_of_ok hrun', halong⟩

/-- Until the file ends the next cycle begins in the same way. -/
lemma Along.begins_together (h : Along storage before rest e e') (hleft : ¬e.input.Spent) :
    ∃ e₁ e₁', (step p .reading).run e = (.ok (.running 0), e₁) ∧
      (step p .reading).run e' = (.ok (.running 0), e₁') ∧ Along storage before rest e₁ e₁' := by
  obtain ⟨record, i, i', hread, hread', hinput, hterminated, hreader, hindex, hreader', hindex'⟩ :=
    h.input.read hleft e.environment e'.environment
  refine Editor.begins_together h.toShares hread hread' hinput hterminated
    (hindex.trans hreader.symm) (hindex'.trans hreader'.symm) (.inl ⟨?_, ?_, h.lineNumber⟩)
    h.ranges.next
  · rw [hindex, h.file]
  · rw [hindex', h.file']

/-- At the end of all files the run ends. -/
lemma run_reading_of_spent (hspent : e.input.Spent) (hp : e.input.pending = []) :
    (step p .reading).run e
      = (.ok (.finished (.ok 0)), { e with input := { e.input with reader := none } }) := by
  have hrun := run_readRecord e
  rw [hspent.read_last hp] at hrun
  rw [step, run_bind_of_ok hrun]
  rfl

/-! ### Plain commands -/

section Plain

variable {c : Command} {p : Program} {stage : Stage} {e e₁ : Editor}

/-- A plain command does not end the run. -/
lemma returns_perform_plain (hplain : c.action.isPlain = true) (following : ℕ) :
    Returns (perform c following) fun flow => ∀ autoprint code, flow ≠ .quit autoprint code := by
  refine Returns.after fun e => ?_
  cases hc : c.action with
  | next | appendNext | quit | appendFileLine =>
      rw [hc] at hplain
      cases hplain
  | branch condition label target =>
      refine Returns.after fun taken => Returns.ite ?_ (Returns.pure (by simp))
      refine Returns.after fun _ => Returns.pure ?_
      cases target <;> simp
  | deleteFirstLine =>
      rcases Text.splitLine e.pattern with ⟨first, _ | rest⟩
      · exact Returns.pure (by simp)
      · exact Returns.after fun _ => Returns.pure (by simp)
  | change text =>
      refine Returns.ite (Returns.after fun _ => ?_) ?_ <;> exact Returns.pure (by simp)
  | printFirstLine =>
      rcases Text.splitLine e.pattern with ⟨first, _ | rest⟩ <;>
        exact Returns.after fun _ => Returns.pure (by simp)
  | block | blockEnd | label | delete => exact Returns.pure (by simp)
  | _ => exact Returns.after fun _ => Returns.pure (by simp)

/-- A run that does not end goes on with another command, or with another record after all that
waited is written. -/
lemma follow_spec {flow : Flow} (hflow : ∀ autoprint code, flow ≠ .quit autoprint code)
    (hrun : (follow flow).run e = (.ok stage, e₁)) :
    (∃ index, stage = .running index) ∨ stage = .reading ∧ e₁.queue = [] := by
  cases flow with
  | goOn next =>
      cases hrun
      exact .inl ⟨next, rfl⟩
  | endCycle autoprint =>
      obtain ⟨⟨⟩, e₂, hend, hlast⟩ := run_bind_eq_ok hrun
      cases hlast
      exact .inr ⟨rfl, (endCycle_spec hend).2⟩
  | restart =>
      obtain ⟨-, e₂, -, hbegin⟩ := run_bind_eq_ok hrun
      cases hbegin
      exact .inl ⟨0, rfl⟩
  | quit autoprint code => exact absurd rfl (hflow autoprint code)

/-- No command of a plain program ends the run. -/
lemma running_spec (hp : p.isPlain = true) {index : ℕ}
    (hrun : (step p (.running index)).run e = (.ok stage, e₁)) :
    (∃ index, stage = .running index) ∨ stage = .reading ∧ e₁.queue = [] := by
  cases hc : p.commands[index]? with
  | none =>
      rw [step_of_none hc] at hrun
      exact follow_spec (by simp) hrun
  | some c =>
      have hplain := (Program.isPlain_iff.1 hp c (List.mem_of_getElem? hc)).1
      rw [step_of_some hc] at hrun
      obtain ⟨selected, e₂, -, hrest⟩ := run_bind_eq_ok hrun
      cases selected with
      | false =>
          cases hrest
          exact .inl ⟨_, rfl⟩
      | true =>
          obtain ⟨flow, e₃, hperform, hfollow⟩ := run_bind_eq_ok hrest
          exact follow_spec (returns_perform_plain hplain _ _ _ _ hperform) hfollow

lemma goOnWith_running (hp : p.isPlain = true) (index : ℕ) (e : Editor) :
    ((goOnWith p 0 ((step p (.running index)).run e)).1 = .reading →
      (goOnWith p 0 ((step p (.running index)).run e)).2.queue = []) ∧
    ∀ code, (goOnWith p 0 ((step p (.running index)).run e)).1 ≠ .finished (.ok code) := by
  rcases hrun : (step p (.running index)).run e with ⟨failure | stage, e₁⟩
  · exact ⟨fun h => (nomatch h), fun _ h => nomatch h⟩
  · obtain ⟨next, rfl⟩ | ⟨rfl, hqueue⟩ := running_spec hp hrun
    · exact ⟨fun h => (nomatch h), fun _ h => nomatch h⟩
    · exact ⟨fun _ => hqueue, fun _ h => nomatch h⟩

end Plain

end Editor

end StreamEditor
