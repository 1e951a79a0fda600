import StreamEditor.Proofs.Editor.Bounds
import StreamEditor.Proofs.Editor.Lockstep
import StreamEditor.Proofs.Editor.Outcome
import StreamEditor.Proofs.Input.Single
import StreamEditor.Regex.Builtin

/-!
A single file, taken as a stream of its own or not.

* `Editor.Beside`: two editors of which the second takes its files as separate streams, and that
  otherwise differ in the events told at most; both read the same single file.
* `Editor.Parts`: the point at which the two part, the command that appends the next record when
  there is none and something waits for the end of the cycle.
* `Editor.agrees_of_not_parts`: a step that does not come to this point has the same effect.
-/

namespace StreamEditor.Editor

/-- The editor `e'` takes its files as separate streams, `e` does not, and otherwise they differ
in the events told at most. Both read the same single file. -/
structure Beside (e e' : Editor) : Prop where
  options : e'.options = { e.options with separate := true }
  joined : e.options.separate = false
  environment : e.environment.Alike e'.environment
  input : e'.input = e.input.apart
  single : e.input.Single
  output : e'.output = e.output
  writers : e'.writers = e.writers
  lineReaders : e'.lineReaders = e.lineReaders
  lineNumber : e'.lineNumber = e.lineNumber
  recordsRead : e'.recordsRead = e.recordsRead
  fileIndex : e'.fileIndex = e.fileIndex
  /-- All records counted are from the same file. -/
  counted : e.fileIndex = 1 ∨ e.lineNumber = 0
  pattern : e'.pattern = e.pattern
  terminated : e'.terminated = e.terminated
  hold : e'.hold = e.hold
  ranges : RangesAlike e.recordsRead e'.recordsRead e.ranges e'.ranges
  substituted : e'.substituted = e.substituted
  queue : e'.queue = e.queue
  lastRegex : e'.lastRegex = e.lastRegex

/-- The only file is opened. -/
structure Within (e e' : Editor) : Prop extends Beside e e' where
  pending : e.input.pending = []

namespace Within

variable {e e' : Editor}

lemma options_quiet (h : Within e e') : e'.options.quiet = e.options.quiet := by rw [h.options]

/-! ### The basic changes -/

lemma told_left (h : Within e e') (event : Event) : Within (told event e) e' := by
  rw [told]
  split
  · exact { h with environment := h.environment.tell_left event }
  · exact h

lemma told_right (h : Within e e') (event : Event) : Within e (told event e') := by
  rw [told]
  split
  · exact { h with environment := h.environment.tell_right event }
  · exact h

lemma agrees_tell (event : Event) : Agrees Within (tell event) (tell event) :=
  Agrees.modify fun _ _ h => (h.told_left event).told_right event

lemma agrees_emit (f : Output → Output.Attempt) : Agrees Within (emit f) (emit f) := by
  intro e e' h
  rw [AgreesAt, run_emit, run_emit, h.output]
  exact ⟨rfl, { h with output := rfl }⟩

lemma agrees_writeTo (target : Target) (text : Text) (terminated : Bool) :
    Agrees Within (writeTo target text terminated) (writeTo target text terminated) := by
  cases target with
  | output => exact agrees_emit (·.writeRecord text terminated)
  | errors =>
      refine Agrees.modify fun e e' h => ?_
      have hseparator : e'.options.separator = e.options.separator := by rw [h.options]; rfl
      rw [hseparator]
      exact { h with environment := h.environment.say _ }
  | file index =>
      intro e e' h
      cases hw : e.writers[index]? with
      | none =>
          have hw' : e'.writers[index]? = none := by rw [h.writers, hw]
          rw [AgreesAt, writeTo, run_writeToFile_of_none hw, run_writeToFile_of_none hw']
          exact ⟨rfl, h⟩
      | some writer =>
          have hw' : e'.writers[index]? = some writer := by rw [h.writers, hw]
          rw [AgreesAt, writeTo, run_writeToFile hw, run_writeToFile hw', h.environment.storage]
          exact ⟨rfl,
            { h with
              writers := by rw [h.writers]
              environment := h.environment.setStorage rfl }⟩

lemma agrees_deliverFile (name : Text) :
    Agrees Within (deliver (.file name)) (deliver (.file name)) := by
  refine Agrees.get fun e e' h => ?_
  rw [h.environment.storage]
  rcases e.environment.storage.read? name with ⟨fault | contents, storage⟩
  · exact ⟨rfl, { h with environment := h.environment.setStorage rfl }⟩
  · exact agrees_emit (·.writeRaw contents) _ _
      { h with environment := h.environment.setStorage rfl }

lemma agrees_readLineOf (name : Text) : Agrees Within (readLineOf name) (readLineOf name) := by
  intro e e' h
  have hseparator : e'.options.separator = e.options.separator := by rw [h.options]; rfl
  rw [AgreesAt, readLineOf, run_modifyGet, run_modifyGet, h.lineReaders, h.environment.storage,
    hseparator]
  dsimp only
  split
  · exact ⟨rfl, { h with lineReaders := rfl }⟩
  · exact ⟨rfl, { h with lineReaders := rfl, environment := h.environment.setStorage rfl }⟩

lemma agrees_hasNext : Agrees Within hasNext hasNext := by
  intro e e' h
  obtain ⟨env, hnext, hA⟩ := Input.apart_hasNext e.input h.environment h.pending
  obtain ⟨hsingle, hpending⟩ := h.single.hasNext h.pending e.environment
  rw [AgreesAt, Editor.hasNext, run_modifyGet, run_modifyGet, h.input, hnext]
  exact ⟨rfl, { h with environment := hA, input := rfl, single := hsingle, pending := hpending }⟩

lemma agrees_resolve (c : Command) (regex : Option Regex) :
    Agrees Within (resolve c regex) (resolve c regex) :=
  Agrees.get fun e e' h => by
    rw [h.lastRegex]
    cases regex.or e.lastRegex with
    | none => exact ⟨rfl, h⟩
    | some regex => exact ⟨rfl, { h with lastRegex := rfl }⟩

lemma agrees_printPattern : Agrees Within printPattern printPattern :=
  Agrees.get fun e e' h => by
    rw [h.pattern, h.terminated]
    exact agrees_emit (·.writeRecord e.pattern e.terminated) e e' h

lemma agrees_enqueue (q : Queued) : Agrees Within (enqueue q) (enqueue q) :=
  Agrees.modify fun _ _ h => { h with queue := by rw [h.queue] }

lemma agrees_deliver (q : Queued) : Agrees Within (deliver q) (deliver q) := by
  cases q with
  | text t => exact agrees_emit (·.writeText t)
  | file name => exact agrees_deliverFile name

lemma agrees_release : Agrees Within release release :=
  Agrees.get fun e e' h => by
    rw [h.queue]
    exact Agrees.forM (fun q _ => agrees_deliver q) _ _ { h with queue := rfl }

/-- Commands that do not read on see no difference. -/
lemma lockstep : FullLockstep Within where
  pattern h := h.pattern
  substituted h := h.substituted
  lineNumber h := h.lineNumber
  quiet h := h.options_quiet
  lineWrap h := by rw [h.options]
  recordName h := by rw [h.input]; rfl
  ranges h := h.ranges
  setPattern ht h := { h with pattern := ht }
  setSubstituted _ h := { h with substituted := rfl }
  setRanges hr h := { h with ranges := hr }
  tell := agrees_tell
  printPattern := agrees_printPattern
  printFirst _ := agrees_emit _
  printText _ := agrees_emit _
  enqueueText _ := agrees_enqueue _
  release := agrees_release
  hasNext := agrees_hasNext
  terminated h := h.terminated
  hold h := h.hold
  setHold ht h := { h with hold := ht }
  writeTo := agrees_writeTo
  enqueueFile _ := agrees_enqueue _
  readLineOf := agrees_readLineOf

end Within

/-! ### Reading on -/

section Reading

variable {α : Type} {e e' : Editor} {p : Program}

/-- The next record is the same, and it comes from the only file. -/
lemma Beside.agrees_read (h : Beside e e') {f f' : Option Record → Edit α}
    (hnone : Agrees Within (f none) (f' none))
    (hsome : ∀ record e₁ e₁', Within e₁ e₁' → e₁.input.recordIndex = 1 →
      AgreesAt Within (f (some record)) (f' (some record)) e₁ e₁') :
    AgreesAt Within (readRecord >>= f) (readRecord >>= f') e e' := by
  obtain ⟨env, hread, hA⟩ := Input.apart_read e.input h.environment
  obtain ⟨hsingle, hpending, hindex⟩ := h.single.read e.environment
  have hwithin : Within
      { e with
        input := (e.input.read e.environment).2.1
        environment := (e.input.read e.environment).2.2 }
      { e' with input := (e.input.read e.environment).2.1.apart, environment := env } :=
    { h with environment := hA, input := rfl, single := hsingle, pending := hpending }
  have hrun := run_readRecord e
  have hrun' := run_readRecord e'
  rw [h.input, hread] at hrun'
  cases hrecord : (e.input.read e.environment).1 with
  | none =>
      rw [hrecord] at hrun hrun'
      exact AgreesAt.of_run (run_bind_of_ok hrun) (run_bind_of_ok hrun') (hnone _ _ hwithin)
  | some record =>
      rw [hrecord] at hrun hrun'
      exact AgreesAt.of_run (run_bind_of_ok hrun) (run_bind_of_ok hrun')
        (hsome record _ _ hwithin (hindex record hrecord))

/-- A record of the only file counts in the same way. -/
lemma Within.agrees_load (h : Within e e') (hindex : e.input.recordIndex = 1) (record : Record)
    {text text' : Text} (ht : text' = text) :
    AgreesAt Within (load record text) (load record text') e e' := by
  have hindex' : e'.input.recordIndex = 1 := by
    rw [h.input]
    exact hindex
  have hline : lineBefore e' = e'.lineNumber := by
    obtain hone | hzero := h.counted
    · exact lineBefore_of_same (by rw [hindex', h.fileIndex, hone])
    · rw [lineBefore, h.lineNumber, hzero, ite_self]
  refine ⟨rfl, ?_⟩
  exact
    { h with
      lineNumber := congrArg (· + 1)
        ((hline.trans h.lineNumber).trans (lineBefore_of_joined h.joined).symm)
      recordsRead := congrArg (· + 1) h.recordsRead
      fileIndex := hindex'.trans hindex.symm
      counted := .inl hindex
      pattern := ht
      terminated := rfl
      ranges := h.ranges.next
      substituted := rfl }

/-- A cycle begins in the same way. -/
lemma agrees_reading (h : Beside e e') :
    AgreesAt Within (step p .reading) (step p .reading) e e' := by
  refine h.agrees_read (Agrees.pure _) fun record e₁ e₁' h₁ hindex => ?_
  exact (h₁.agrees_load hindex record rfl).bind fun _ => Within.lockstep.agrees_beginCycle

lemma agrees_nextAfter (following : ℕ) :
    Agrees Within (nextAfter following) (nextAfter following) := by
  refine (Within.lockstep.agrees_endCycle true).bind fun _ e e' h => ?_
  refine h.toBeside.agrees_read (Agrees.pure _) fun record e₁ e₁' h₁ hindex => ?_
  exact (h₁.agrees_load hindex record rfl).bind fun _ => Agrees.pure _

lemma agrees_appendAfter (following : ℕ) :
    Agrees Within (appendAfter following) (appendAfter following) := by
  refine Within.agrees_release.bind fun _ e e' h => ?_
  refine h.toBeside.agrees_read (Agrees.pure _) fun record e₁ e₁' h₁ hindex => ?_
  have hload := h₁.agrees_load hindex record (congrArg (· ++ '\n' :: record.content) h₁.pattern)
  exact hload.bind fun _ => Agrees.pure (Flow.goOn following)

/-- Whether a record follows is the same. If none does, nothing is read any more. -/
lemma Within.hasNext_eq (h : Within e e') :
    ∃ found e₁ e₁', hasNext.run e = (.ok found, e₁) ∧ hasNext.run e' = (.ok found, e₁') ∧
      Within e₁ e₁' ∧ (found = false → e₁.input.reader = none) := by
  obtain ⟨hresult, hwithin⟩ := Within.agrees_hasNext e e' h
  have hlooked : Input.Looked (e.input.hasNext e.environment).1
      (e.input.hasNext e.environment).2.1 := Input.looked_hasNextFrom _ _ _
  refine ⟨(e.input.hasNext e.environment).1, (hasNext.run e).2, (hasNext.run e').2, rfl,
    Prod.ext hresult.symm rfl, hwithin, fun hfound => (hlooked.2 hfound).1⟩

/-- Where nothing is read any more there is no record. -/
lemma Within.run_readRecord (h : Within e e') (hspent : e.input.reader = none) :
    readRecord.run e' = (.ok none, e') := by
  have hreader : e'.input.reader = none := by
    rw [h.input]
    exact hspent
  have hpending : e'.input.pending = [] := by
    rw [h.input]
    exact h.pending
  rw [Editor.run_readRecord, Input.read_of_spent hreader hpending]

/-- At the end of the input the cycle ends, and then the run. Separate streams are told apart only
in that the cycle ends before the run is found to end. -/
lemma agrees_next_at_end (h : Within e e') (hspent : e.input.reader = none) (following : ℕ) :
    AgreesAt Within (follow (.quit true 0)) (nextAfter following >>= follow) e e' := by
  have htold : Within (told (.quit e.lineNumber 0) e) e' := h.told_left _
  rw [nextAfter, bind_assoc]
  refine AgreesAt.of_run (run_quit 0 e) rfl
    ((Within.lockstep.agrees_endCycle true _ _ htold).bind_run fun ⟨⟩ e₁ e₁' hrun _ h₁ => ?_)
  have hspent' : e₁.input.reader = none := by
    rw [(endCycle_spec hrun).1, (writes_told _ _).input, hspent]
  rw [bind_assoc]
  exact AgreesAt.of_run rfl (run_bind_of_ok (h₁.run_readRecord hspent'))
    ⟨rfl, h₁.told_right (.quit e₁'.lineNumber 0)⟩

/-- With separate streams, what waits is written before the next record is asked for in vain. -/
lemma Within.run_appendAfter (h : Within e e') (hspent : e.input.reader = none) (following : ℕ) :
    (appendAfter following >>= follow).run e' =
      (release >>= fun _ => follow (.quit true 0)).run e' := by
  have hagrees := Within.agrees_release e e' h
  have hinput := (release_spec e).1
  rw [appendAfter, bind_assoc]
  rcases hrun : release.run e' with ⟨failure | ⟨⟩, e₁'⟩ <;> rw [AgreesAt, hrun] at hagrees
  · rw [run_bind_of_error hrun, run_bind_of_error hrun]
  · have hread := hagrees.2.run_readRecord (hinput ▸ hspent)
    rw [run_bind_of_ok hrun, run_bind_of_ok hrun, bind_assoc, run_bind_of_ok hread, pure_bind]

/-- It does not matter whether what waits is written before or after the pattern space if nothing
waits or the pattern space is not printed. -/
lemma agrees_append_at_end (h : Within e e')
    (hside : e.queue = [] ∨ e.options.quiet = true) :
    AgreesAt Within (follow (.quit true 0)) (release >>= fun _ => follow (.quit true 0)) e e' := by
  obtain hqueue | hquiet := hside
  · have hqueue' : e'.queue = [] := h.queue.trans hqueue
    exact AgreesAt.of_run rfl (run_bind_of_ok (run_release_of_nil hqueue'))
      (Within.lockstep.agrees_follow _ e e' h)
  · have htold : Within (told (.quit e.lineNumber 0) e) e' := h.told_left _
    have hquiet₁ : (told (.quit e.lineNumber 0) e).options.quiet = true := by
      rw [← htold.options_quiet, h.options_quiet, hquiet]
    refine AgreesAt.of_run
      ((run_quit 0 e).trans (run_bind_congr (endCycle_of_quiet hquiet₁ true) _)) rfl
      ((Within.agrees_release _ _ htold).bind_run fun ⟨⟩ e₁ e₁' hrun hrun' h₁ => ?_)
    -- Nothing waits any more when the cycle ends.
    have htold' := h₁.told_right (.quit e₁'.lineNumber 0)
    have hquiet₂ : (told (.quit e₁'.lineNumber 0) e₁').options.quiet = true := by
      have hstays := moves_release (told (.quit e.lineNumber 0) e)
      rw [hrun] at hstays
      rw [htold'.options_quiet, hstays.options, hquiet₁]
    have hqueue : (told (.quit e₁'.lineNumber 0) e₁').queue = [] := by
      have hempty := (release_spec e').2
      rw [hrun'] at hempty
      rw [(writes_told _ _).queue, hempty]
    have hcycle : (endCycle true).run (told (.quit e₁'.lineNumber 0) e₁')
        = (.ok (), told (.quit e₁'.lineNumber 0) e₁') :=
      (endCycle_of_quiet hquiet₂ true).trans (run_release_of_nil hqueue)
    exact AgreesAt.of_run rfl ((run_quit 0 e₁').trans (run_bind_of_ok hcycle)) ⟨rfl, htold'⟩

/-! ### Where the two part -/

/-- The run comes to a command that appends the next record when there is none, while something
waits for the end of the cycle and the pattern space is to be printed. -/
def Parts (p : Program) (stage : Stage) (e : Editor) : Prop :=
  ∃ index c e₁ e₂, stage = .running index ∧ p.commands[index]? = some c ∧
    c.action = .appendNext ∧ (applies c).run e = (.ok true, e₁) ∧
    hasNext.run e₁ = (.ok false, e₂) ∧ e₂.queue ≠ [] ∧ e₂.options.quiet = false

variable {c : Command} {following : ℕ}

lemma agrees_perform_next (hc : c.action = .next) :
    Agrees Within (perform c following >>= follow) (perform c following >>= follow) := by
  intro e e' h
  obtain ⟨found, e₁, e₁', hrun, hrun', h₁, hspent⟩ := h.hasNext_eq
  have hseparate : e₁'.options.separate = true := by rw [h₁.options]
  have hnext' := run_next hc hrun' (.inr hseparate) following
  cases found with
  | true =>
      have hnext := run_next hc hrun (.inl rfl) following
      exact AgreesAt.of_run (run_bind_congr hnext _) (run_bind_congr hnext' _)
        ((agrees_nextAfter following).bind Within.lockstep.agrees_follow _ _ h₁)
  | false =>
      have hnext := run_next_at_end hc hrun h₁.joined following
      exact AgreesAt.of_run (run_bind_of_ok hnext) (run_bind_congr hnext' _)
        (agrees_next_at_end h₁ (hspent rfl) following)

lemma agrees_perform_append (hc : c.action = .appendNext) (h : Within e e')
    (hside : ∀ e₁, hasNext.run e = (.ok false, e₁) → e₁.queue = [] ∨ e₁.options.quiet = true) :
    AgreesAt Within (perform c following >>= follow) (perform c following >>= follow) e e' := by
  obtain ⟨found, e₁, e₁', hrun, hrun', h₁, hspent⟩ := h.hasNext_eq
  have hseparate : e₁'.options.separate = true := by rw [h₁.options]
  have happend' := run_appendNext hc hrun' (.inr hseparate) following
  cases found with
  | true =>
      have happend := run_appendNext hc hrun (.inl rfl) following
      exact AgreesAt.of_run (run_bind_congr happend _) (run_bind_congr happend' _)
        ((agrees_appendAfter following).bind Within.lockstep.agrees_follow _ _ h₁)
  | false =>
      have happend := run_appendNext_at_end hc hrun h₁.joined following
      have hafter := h₁.run_appendAfter (hspent rfl) following
      exact AgreesAt.of_run (run_bind_of_ok happend) ((run_bind_congr happend' _).trans hafter)
        (agrees_append_at_end h₁ (hside e₁ hrun))

/-- A step that does not come to where the two part has the same effect on both sides. -/
lemma agrees_of_not_parts (h : Within e e') {index : ℕ} (hparts : ¬Parts p (.running index) e) :
    AgreesAt Within (step p (.running index)) (step p (.running index)) e e' := by
  have hresolve : ∀ c, p.commands[index]? = some c → ∀ regex ∈ c.regexes,
      Agrees Within (resolve c regex) (resolve c regex) :=
    fun c _ regex _ => Within.agrees_resolve c regex
  cases hc : p.commands[index]? with
  | none =>
      rw [step_of_none hc]
      exact Within.lockstep.agrees_follow _ e e' h
  | some c =>
      have happlies := Within.lockstep.agrees_applies (hresolve c hc)
      rw [step_of_some hc]
      -- Only commands that read on may see that the files are streams of their own.
      by_cases hnext : c.action = .next
      · refine happlies.bind (fun selected => ?_) e e' h
        exact Agrees.ite (agrees_perform_next hnext) (Agrees.pure _)
      · by_cases happend : c.action = .appendNext
        · refine (happlies e e' h).bind_run fun selected e₁ e₁' hrun _ h₁ => ?_
          cases selected with
          | false => exact AgreesAt.pure h₁
          | true =>
              refine agrees_perform_append happend h₁ fun e₂ he₂ => ?_
              by_contra hside
              rw [not_or, Bool.not_eq_true] at hside
              exact hparts ⟨index, c, e₁, e₂, rfl, hc, happend, hrun, he₂, hside.1, hside.2⟩
        · have hstep := Within.lockstep.agrees_step hresolve fun c' hc' => by
            rw [hc] at hc'
            cases hc'
            exact ⟨hnext, happend⟩
          rw [step_of_some hc] at hstep
          exact hstep e e' h

end Reading

/-! ### Whole runs -/

section Runs

variable {p : Program} {e e' e₀ e₀' : Editor} {k : ℕ}

lemma agrees_flush : Agrees Within flush flush := by
  refine Agrees.get fun e e' h => ?_
  rw [h.writers, h.environment.storage]
  rcases Writer.flushAll e.environment.storage e.writers with ⟨writers, storage, _ | failure⟩
  · exact Within.agrees_emit Output.flush _ _
      { h with writers := rfl, environment := h.environment.setStorage rfl }
  · exact ⟨rfl, { h with writers := rfl, environment := h.environment.setStorage rfl }⟩

lemma Within.conclude (h : Within e e') (result : Except Failure ℕ) :
    (Editor.conclude result e').1 = (Editor.conclude result e).1 ∧
      SameOutcome (Editor.conclude result e).2 (Editor.conclude result e').2 := by
  obtain ⟨hresult, hrest⟩ := (agrees_flush e e' h).conclude result
  exact ⟨hresult,
    { delivered := by rw [hrest.output]
      storage := by
        show Writer.closeAll _ _ = Writer.closeAll _ _
        rw [hrest.writers, hrest.environment.storage]
      status := hrest.environment.status
      said := hrest.environment.said }⟩

/-- As long as the two do not part they go side by side; only before the first record the file
need not be opened. -/
lemma together (h₀ : Beside e₀ e₀')
    (hparts : ∀ j < k, ¬Parts p (advance p j .reading e₀).1 (advance p j .reading e₀).2) :
    (advance p k .reading e₀').1 = (advance p k .reading e₀).1 ∧
      Beside (advance p k .reading e₀).2 (advance p k .reading e₀').2 ∧
      ((advance p k .reading e₀).1 ≠ .reading →
        Within (advance p k .reading e₀).2 (advance p k .reading e₀').2) := by
  induction k with
  | zero => exact ⟨rfl, h₀, fun h => absurd rfl h⟩
  | succ k ih =>
    obtain ⟨hstage, hbeside, hwithin⟩ := ih fun j hj => hparts j (Nat.lt_succ_of_lt hj)
    have hno := hparts k (Nat.lt_succ_self k)
    have hstep : AgreesAt Within (step p (advance p k .reading e₀).1)
        (step p (advance p k .reading e₀').1) (advance p k .reading e₀).2
        (advance p k .reading e₀').2 := by
      rw [hstage]
      cases hcase : (advance p k .reading e₀).1 with
      | reading => exact agrees_reading hbeside
      | running index =>
          rw [hcase] at hno hwithin
          exact agrees_of_not_parts (hwithin (by simp)) hno
      | finished result =>
          rw [hcase] at hwithin
          exact AgreesAt.pure (hwithin (by simp))
    obtain ⟨hsame, hboth⟩ := hstep.goOnWith (p := p)
    rw [advance_succ_last, advance_succ_last]
    exact ⟨hsame, hboth.toBeside, fun _ => hboth⟩

/-- Two editors at the beginning. -/
lemma beside_of_start {o : Options} (hjoined : o.separate = false) {name : Text} {sink : Sink}
    {env : Environment}
    (he : (start? p o (.ofFiles [name] o.separator false) sink env).1 = .ok e₀) :
    ∃ e₀', (start? p { o with separate := true } (.ofFiles [name] o.separator true) sink env).1
        = .ok e₀' ∧ Beside e₀ e₀' := by
  obtain ⟨writers, storage, hopen, rfl⟩ := start?_eq_ok he
  have hopen' : Writer.openAll ({ o with separate := true } : Options).separator env.storage
      p.outputFiles = (.ok writers, storage) := hopen
  rw [start?, hopen']
  have hranges : ∀ st ∈ (List.range p.rangeCount).map fun slot =>
      RangeState.initial ((openSlots p).contains slot),
      ∀ r b, st.answered = some (r, b) → r ≤ 0 := by
    rw [List.forall_mem_map]
    exact fun _ _ _ _ h => by cases h
  exact ⟨_, rfl,
    { options := rfl
      joined := hjoined
      environment := ⟨rfl, rfl, rfl⟩
      input := rfl
      single := ⟨le_rfl, fun _ h => by cases h⟩
      output := rfl
      writers := rfl
      lineReaders := rfl
      lineNumber := rfl
      recordsRead := rfl
      fileIndex := rfl
      counted := .inr rfl
      pattern := rfl
      terminated := rfl
      hold := rfl
      ranges := RangesAlike.refl hranges
      substituted := rfl
      queue := rfl
      lastRegex := rfl }⟩

/-- Where the two part, the cycle ends on one side, and on the other what waits is written
first. -/
lemma run_of_parts (h₀ : Beside e₀ e₀')
    (hbefore : ∀ j < k, ¬Parts p (advance p j .reading e₀).1 (advance p j .reading e₀).2)
    (hparts : Parts p (advance p k .reading e₀).1 (advance p k .reading e₀).2) :
    ∃ e e', Within e e' ∧ e.queue ≠ [] ∧ e.options.quiet = false ∧
      advance p (k + 1) .reading e₀ = goOnWith p 0 ((follow (.quit true 0)).run e) ∧
      advance p (k + 1) .reading e₀'
        = goOnWith p 0 ((release >>= fun _ => follow (.quit true 0)).run e') := by
  obtain ⟨hstage, -, hwithin⟩ := together h₀ hbefore
  obtain ⟨index, c, e₁, e₂, hrunning, hc, hreads, happlies, hnext, hqueue, hquiet⟩ := hparts
  have h := hwithin (by simp [hrunning])
  have hselected := Within.lockstep.agrees_applies
    (fun regex _ => Within.agrees_resolve c regex) _ _ h
  rcases happlies' : (applies c).run (advance p k .reading e₀').2 with ⟨failure | selected, e₁'⟩ <;>
    rw [AgreesAt, happlies, happlies'] at hselected
  · cases hselected.1
  cases hselected.1
  obtain ⟨found, e₃, e₂', hrun, hrun', h₂, hspent⟩ := hselected.2.hasNext_eq
  rw [hnext] at hrun
  cases hrun
  have hseparate : e₂'.options.separate = true := by rw [h₂.options]
  have happend := run_appendNext_at_end hreads hnext h₂.joined (index + 1)
  have happend' := run_appendNext hreads hrun' (.inr hseparate) (index + 1)
  refine ⟨e₂, e₂', h₂, hqueue, hquiet, ?_, ?_⟩
  · rw [advance_succ_last, hrunning, step_of_some hc, run_bind_of_ok happlies, if_pos rfl,
      run_bind_of_ok happend]
  · rw [advance_succ_last, hstage, hrunning, step_of_some hc, run_bind_of_ok happlies', if_pos rfl,
      run_bind_congr happend', h₂.run_appendAfter (hspent rfl)]

end Runs

/-- Of a single file it makes no difference whether files are taken as separate streams, except
where the next record is appended in vain: there a run without separate streams prints the pattern
space and then writes what waits for the end of the cycle, and one with separate streams writes
what waits and then prints the pattern space. If no run comes to such a point with something that
waits and a pattern space to be printed, both end with the same result and leave the same output
and the same files behind. -/
theorem single_file_separate (p : Program) (o : Options) (hjoined : o.separate = false)
    (name : Text) (sink : Sink) (env : Environment) :
    (∀ failure, (start? p o (.ofFiles [name] o.separator false) sink env).1 = .error failure →
      (start? p { o with separate := true } (.ofFiles [name] o.separator true) sink env).1
        = .error failure) ∧
    ∀ e₀, (start? p o (.ofFiles [name] o.separator false) sink env).1 = .ok e₀ →
      ∃ e₀', (start? p { o with separate := true } (.ofFiles [name] o.separator true) sink env).1
          = .ok e₀' ∧
        ((∀ k, ¬Parts p (advance p k .reading e₀).1 (advance p k .reading e₀).2) → ∀ result,
          (∀ e, Concludes p e₀ result e → ∃ e', Concludes p e₀' result e' ∧ SameOutcome e e') ∧
          ∀ e', Concludes p e₀' result e' → ∃ e, Concludes p e₀ result e ∧ SameOutcome e e') ∧
        ∀ k, (∀ j < k, ¬Parts p (advance p j .reading e₀).1 (advance p j .reading e₀).2) →
          Parts p (advance p k .reading e₀).1 (advance p k .reading e₀).2 →
          ∃ e e', Within e e' ∧ e.queue ≠ [] ∧ e.options.quiet = false ∧
            advance p (k + 1) .reading e₀ = goOnWith p 0 ((follow (.quit true 0)).run e) ∧
            advance p (k + 1) .reading e₀'
              = goOnWith p 0 ((release >>= fun _ => follow (.quit true 0)).run e') := by
  refine ⟨fun failure hfail => ?_, fun e₀ he => ?_⟩
  · rcases hopen : Writer.openAll o.separator env.storage p.outputFiles with
      ⟨failure' | writers, storage⟩
    · have hopen' : Writer.openAll ({ o with separate := true } : Options).separator env.storage
          p.outputFiles = (.error failure', storage) := hopen
      rw [start?, hopen] at hfail
      rw [start?, hopen']
      exact hfail
    · rw [start?, hopen] at hfail
      cases hfail
  · obtain ⟨e₀', he', h₀⟩ := beside_of_start hjoined he
    refine ⟨e₀', he', fun hnever result => ⟨fun e => ?_, fun e' => ?_⟩, fun k => run_of_parts h₀⟩
    · rintro ⟨k, r, e₁, hrun, hend⟩
      obtain ⟨hstage, -, hwithin⟩ := together (k := k) h₀ fun j _ => hnever j
      rw [hrun] at hstage hwithin
      obtain ⟨hresult, hsame⟩ := (hwithin (by simp)).conclude r
      rw [hend] at hresult hsame
      exact ⟨(conclude r (advance p k .reading e₀').2).2,
        ⟨k, r, (advance p k .reading e₀').2, Prod.ext hstage rfl, Prod.ext hresult rfl⟩, hsame⟩
    · rintro ⟨k, r, e₁', hrun, hend⟩
      obtain ⟨hstage, -, hwithin⟩ := together (k := k) h₀ fun j _ => hnever j
      rw [hrun] at hstage hwithin
      obtain ⟨hresult, hsame⟩ := (hwithin (by simp [← hstage])).conclude r
      rw [hend] at hresult hsame
      exact ⟨(conclude r (advance p k .reading e₀).2).2,
        ⟨k, r, (advance p k .reading e₀).2, Prod.ext hstage.symm rfl, Prod.ext hresult.symm rfl⟩,
        hsame⟩

/-- A text that waits is written after the last line on both sides if the next record is asked for
without appending it. -/
theorem single_file_separate_next :
    Options.standard.separate = false ∧
    ∃ p e₀' e',
      Program.parse (.ofText (Text.ofString "a foo\nn")) .standard = .ok p ∧
      (start? p { Options.standard with separate := true } (.ofFiles [['f']] 10 true) .unlimited
        (.start ⟨[([['f']], [120, 10])], [], []⟩)).1 = .ok e₀' ∧
      Concludes p e₀' (.ok 0) e' ∧
      e'.output.sink.delivered = Text.utf8 (Text.ofString "x\nfoo\n") := by
  have hjoined : outcome? (·.output.sink.delivered)
      (Program.parse (.ofText (Text.ofString "a foo\nn")) .standard) .standard [['f']]
      ⟨[([['f']], [120, 10])], [], []⟩ 4
        = some (.ok 0, Text.utf8 (Text.ofString "x\nfoo\n")) := by decide +kernel
  have hactions : ((Program.parse (.ofText (Text.ofString "a foo\nn")) .standard).toOption.all
      fun p => p.commands.all fun c => c.action matches .append _ | .next) = true := by
    decide +kernel
  obtain ⟨p, e₀, e, hp, he, hends, hbytes⟩ := concludes_of_outcome? hjoined
  obtain ⟨e₀', he', hsame, -⟩ :=
    (single_file_separate p .standard rfl ['f'] .unlimited _).2 e₀ he
  have hnever : ∀ k, ¬Parts p (advance p k .reading e₀).1 (advance p k .reading e₀).2 := by
    rintro k ⟨index, c, e₁, e₂, -, hc, happend, -⟩
    rw [hp] at hactions
    have hc' := List.all_eq_true.1 hactions c (List.mem_of_getElem? hc)
    rw [happend] at hc'
    cases hc'
  obtain ⟨e', hends', hleft⟩ := (hsame hnever (.ok 0)).1 e hends
  exact ⟨rfl, p, e₀', e', hp, he', hends', hleft.delivered.trans hbytes⟩

/-- A text that waits is written after the last line, or with separate streams before it. -/
theorem single_file_separate_order :
    ∃ p e₀ e₀' e e',
      Program.parse (.ofText (Text.ofString "a foo\nN")) .standard = .ok p ∧
      (start? p .standard (.ofFiles [['f']] 10 false) .unlimited
        (.start ⟨[([['f']], [120, 10])], [], []⟩)).1 = .ok e₀ ∧
      (start? p { Options.standard with separate := true } (.ofFiles [['f']] 10 true) .unlimited
        (.start ⟨[([['f']], [120, 10])], [], []⟩)).1 = .ok e₀' ∧
      Concludes p e₀ (.ok 0) e ∧ Concludes p e₀' (.ok 0) e' ∧
      e.output.sink.delivered = Text.utf8 (Text.ofString "x\nfoo\n") ∧
      e'.output.sink.delivered = Text.utf8 (Text.ofString "foo\nx\n") := by
  have hjoined : outcome? (·.output.sink.delivered)
      (Program.parse (.ofText (Text.ofString "a foo\nN")) .standard) .standard [['f']]
      ⟨[([['f']], [120, 10])], [], []⟩ 4
        = some (.ok 0, Text.utf8 (Text.ofString "x\nfoo\n")) := by decide +kernel
  have hseparate : outcome? (·.output.sink.delivered)
      (Program.parse (.ofText (Text.ofString "a foo\nN")) .standard)
      { Options.standard with separate := true } [['f']] ⟨[([['f']], [120, 10])], [], []⟩ 4
        = some (.ok 0, Text.utf8 (Text.ofString "foo\nx\n")) := by decide +kernel
  obtain ⟨p, e₀, e, hp, he, hends, hbytes⟩ := concludes_of_outcome? hjoined
  obtain ⟨p', e₀', e', hp', he', hends', hbytes'⟩ := concludes_of_outcome? hseparate
  rw [hp] at hp'
  cases hp'
  exact ⟨p, e₀, e₀', e, e', hp, he, he', hends, hends', hbytes, hbytes'⟩

end StreamEditor.Editor
