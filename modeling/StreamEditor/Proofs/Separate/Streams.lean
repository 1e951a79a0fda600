import StreamEditor.Proofs.Editor.Bounds
import StreamEditor.Proofs.Editor.Outcome
import StreamEditor.Proofs.Separate.Along

/-!
Files that are streams of their own, all in one run or each in a run of its own.

* `RangeState.carried`, `Resumes`: the ranges with which a run begins stand as another run left
  them.
* `Editor.Between`: the run over all files has come to the end of one of them.
* `Editor.Between.advance`: from there to the end of the next file it goes side by side with a run
  over this file alone.
-/

namespace StreamEditor

/-- Where a range stands for a new run: no record was asked about yet. -/
def RangeState.carried (st : RangeState) : RangeState := { st with answered := none }

/-- The second range goes on in a new run where the first one stands. -/
structure RangeState.Resumes (st st' : RangeState) : Prop where
  active : st'.active = st.active
  lastLine : st.active = true → st'.lastLine = st.lastLine
  answered : st'.answered = none

/-- The ranges of a new run go on where those of another run stand. -/
def Resumes (ranges ranges' : List RangeState) : Prop :=
  ∀ slot : ℕ, Option.Rel RangeState.Resumes ranges[slot]? ranges'[slot]?

lemma resumes_carried (ranges : List RangeState) :
    Resumes ranges (ranges.map RangeState.carried) := by
  intro slot
  rw [List.getElem?_map]
  cases ranges[slot]? with
  | none => exact .none
  | some st => exact .some ⟨rfl, fun _ => rfl, rfl⟩

/-- Ranges of which none is active go on as ranges at the beginning. -/
lemma resumes_of_inactive {ranges ranges' : List RangeState} (hlen : ranges'.length = ranges.length)
    (h : ∀ st ∈ ranges, st.active = false) (h' : ∀ st ∈ ranges', st = .initial false) :
    Resumes ranges ranges' := by
  intro slot
  cases hst : ranges[slot]? with
  | none =>
      have hle := List.getElem?_eq_none_iff.1 hst
      rw [List.getElem?_eq_none_iff.2 (hlen.trans_le hle)]
      exact .none
  | some st =>
      have hinactive := h st (List.mem_of_getElem? hst)
      have hlt := (List.getElem?_eq_some_iff.1 hst).1
      rw [List.getElem?_eq_getElem (hlt.trans_eq hlen.symm)]
      refine .some ?_
      rw [h' _ (List.getElem_mem _)]
      exact ⟨hinactive.symm, fun hactive => by simp [hinactive] at hactive, rfl⟩

/-- With the first record of the new run the ranges stand alike. -/
lemma Resumes.alike {n n' : ℕ} {ranges ranges₁ ranges' : List RangeState}
    (hr : Resumes ranges ranges₁) (h : RangesAlike n n' ranges ranges') :
    RangesAlike 1 (n' + 1) ranges₁ ranges' := by
  intro slot
  have hslot := hr slot
  cases hst : ranges[slot]? with
  | none =>
      rw [hst] at hslot
      generalize ranges₁[slot]? = first at hslot ⊢
      cases hslot
      rw [h.of_none hst]
      exact .none
  | some st =>
      obtain ⟨st', hst', halike⟩ := h.of_some hst
      rw [hst] at hslot
      rw [hst']
      generalize ranges₁[slot]? = first at hslot ⊢
      cases hslot with
      | some hresumes =>
          have hactive := halike.active.trans hresumes.active.symm
          refine .some ⟨hactive, fun ha => ?_, fun b => ?_, fun r b hrb => ?_, fun r b hrb => ?_⟩
          · have ha' := hresumes.active.symm.trans ha
            rw [halike.lastLine ha', hresumes.lastLine ha']
          · rw [hresumes.answered]
            refine iff_of_false (fun hb => ?_) (by simp)
            exact absurd (halike.past' _ _ hb) (Nat.not_succ_le_self n')
          · rw [hresumes.answered] at hrb
            cases hrb
          · exact (halike.past' r b hrb).trans (Nat.le_succ n')

namespace Editor

/-! ### A file among others -/

/-- The beginning of a run that takes files as separate streams. -/
structure Fresh (e₀ : Editor) : Prop where
  separate : e₀.options.separate = true
  output : e₀.output.Clear
  separator : e₀.output.separator = e₀.options.separator
  written : e₀.output.written = []
  idle : ∀ w ∈ e₀.writers, w.output.waiting = []
  recordsRead : e₀.recordsRead = 0
  fileIndex : e₀.fileIndex = 0
  queue : e₀.queue = []

/-- The same beginning with a single file, and with ranges as another run left them. -/
def alone (e₀ : Editor) (name : Text) (ranges : List RangeState) : Editor :=
  { e₀ with input := .ofFiles [name] e₀.options.separator true, ranges }

/-- A file that is not empty, and in which every record is terminated. -/
def Regular (e₀ : Editor) (name : Text) : Prop :=
  ∃ contents, Reader.open? e₀.environment.storage name = .ok (.whole contents) ∧
    contents.getLast? = some e₀.options.separator

/-- A run that began with `e₀` has come to the end of a file and written `before`. The files
`names` are still to come, and to them the ranges are as they would be if `ranges` began a run. -/
structure Between (e₀ : Editor) (before : Bytes) (names : List Text) (ranges : List RangeState)
    (e : Editor) : Prop where
  options : e.options = e₀.options
  storage : e.environment.storage = e₀.environment.storage
  output : Output.After before e₀.output e.output
  idle : ∀ w ∈ e.writers, w.output.waiting = []
  queue : e.queue = []
  spent : e.input.Spent
  pending : e.input.pending = names
  separator : e.input.separator = e₀.options.separator
  separate : e.input.separate = true
  file : e.fileIndex = e.input.readerIndex
  ranges : RangesAlike 1 (e.recordsRead + 1) ranges e.ranges

variable {p : Program} {e₀ a a' e e' : Editor} {storage : Storage} {before : Bytes} {name : Text}
  {names rest : List Text} {ranges ranges' : List RangeState} {result : Except Failure ℕ}

/-- The next file begins in the same way as it does alone. -/
lemma Between.begins_together (h₀ : e₀.Fresh) (h : Between e₀ before (name :: rest) ranges e)
    (hname : e₀.Regular name) :
    ∃ a e₁, (step p .reading).run (alone e₀ name ranges) = (.ok (.running 0), a) ∧
      (step p .reading).run e = (.ok (.running 0), e₁) ∧
      Along e₀.environment.storage before rest a e₁ := by
  obtain ⟨contents, hopen, hlast⟩ := hname
  obtain ⟨record, others, hread, hterminated, hend⟩ := Reader.read_whole hlast
  have hspent : (alone e₀ name ranges).input.Spent := fun _ hn => nomatch hn
  have hopen' : Reader.open? e.environment.storage name = .ok (.whole contents) := by
    rw [h.storage, hopen]
  have hread' : (Reader.whole contents).read e.input.separator e.environment.storage
      = (.ok (some record), .whole others, e.environment.storage) := by
    rw [h.separator]
    exact hread _
  have hshares : Shares e₀.environment.storage before (alone e₀ name ranges) e :=
    { options := h.options
      separate := h₀.separate
      storage := h.storage
      output := h.output
      separator := h₀.separator
      idle := h₀.idle
      idle' := h.idle
      queue := h.queue.trans h₀.queue.symm
      texts := fun q hq => by
        have hqueue : (alone e₀ name ranges).queue = [] := h₀.queue
        rw [hqueue] at hq
        cases hq }
  refine Editor.begins_together hshares (hspent.read_next rfl hopen (hread _))
    (h.spent.read_next h.pending hopen' hread') ?_ hterminated rfl rfl (.inr ⟨?_, ?_⟩) ?_
  · exact
      { reader := rfl
        regular := fun r hr => ⟨others, (Option.some.inj hr).symm, hend⟩
        readerName := rfl
        recordName := rfl
        separator := rfl
        separator' := h.separator
        separate := rfl
        separate' := h.separate
        pending := rfl
        pending' := rfl }
  -- to both the file is a new one, so lines count from its beginning
  · have hfile : (alone e₀ name ranges).fileIndex = 0 := h₀.fileIndex
    rw [hfile]
    exact Nat.succ_ne_zero _
  · rw [h.file]
    exact Nat.succ_ne_self _
  · have hcount : (alone e₀ name ranges).recordsRead = 0 := h₀.recordsRead
    rw [hcount]
    exact h.ranges

/-- Both runs are at the same stage, at which no command has ended them. -/
structure InStep (storage : Storage) (before : Bytes) (rest : List Text)
    (run run' : Stage × Editor) : Prop where
  stage : run'.1 = run.1
  along : Along storage before rest run.2 run'.2
  queue : run.1 = .reading → run.2.queue = []
  runs : ∀ code, run.1 ≠ .finished (.ok code)

/-- The file has come to its end. -/
def AtEnd (run : Stage × Editor) : Prop := run.1 = .reading ∧ run.2.input.Spent

/-- Until the file ends, a step keeps two runs of a plain program side by side. -/
lemma InStep.step (hp : p.isPlain = true) {run run' : Stage × Editor}
    (h : InStep storage before rest run run') (hend : ¬AtEnd run) :
    InStep storage before rest (goOnWith p 0 ((step p run.1).run run.2))
      (goOnWith p 0 ((step p run'.1).run run'.2)) := by
  obtain ⟨stage, a⟩ := run
  obtain ⟨stage', e⟩ := run'
  obtain ⟨hstage, halong, hqueue, hruns⟩ := h
  dsimp only at hstage halong hqueue hruns ⊢
  rw [hstage]
  cases stage with
  | reading =>
      obtain ⟨a₁, e₁, hrun, hrun', halong'⟩ := halong.begins_together fun hs => hend ⟨rfl, hs⟩
      rw [hrun, hrun']
      exact ⟨rfl, halong', fun hn => (nomatch hn), fun _ hn => nomatch hn⟩
  | running index =>
      obtain ⟨hsame, halong'⟩ := (Along.agrees_running hp index a e halong).goOnWith (p := p)
      obtain ⟨hqueue', hruns'⟩ := goOnWith_running hp index a
      exact ⟨hsame, halong', hqueue', hruns'⟩
  | finished result => exact ⟨rfl, halong, hqueue, hruns⟩

/-- The run over all files goes side by side with that over the next file alone until this ends. -/
lemma Between.advance (h₀ : e₀.Fresh) (hp : p.isPlain = true)
    (h : Between e₀ before (name :: rest) ranges e) (hname : e₀.Regular name) (k : ℕ) :
    InStep e₀.environment.storage before rest
        (advance p (k + 1) .reading (alone e₀ name ranges)) (advance p (k + 1) .reading e) ∨
      ∃ j, InStep e₀.environment.storage before rest
          (advance p j .reading (alone e₀ name ranges)) (advance p j .reading e) ∧
        AtEnd (advance p j .reading (alone e₀ name ranges)) := by
  -- before the first record the two differ; from the first step on the invariant carries
  induction k with
  | zero =>
      obtain ⟨a, e₁, hrun, hrun', halong⟩ := h.begins_together h₀ hname
      rw [advance_succ, advance_succ, hrun, hrun']
      exact .inl ⟨rfl, halong, fun hn => (nomatch hn), fun _ hn => nomatch hn⟩
  | succ k ih =>
      obtain hstep | hend := ih
      · by_cases hend : AtEnd (Editor.advance p (k + 1) .reading (alone e₀ name ranges))
        · exact .inr ⟨k + 1, hstep, hend⟩
        · rw [advance_succ_last p (k + 1), advance_succ_last p (k + 1)]
          exact .inl (hstep.step hp hend)
      · exact .inr hend

/-! ### The end of a file -/

/-- If writing cannot fail and nothing waits for the output files, all that was written is
delivered. -/
lemma conclude_of_idle (hidle : ∀ w ∈ e.writers, w.output.waiting = []) (hclear : e.output.Clear)
    (result : Except Failure ℕ) :
    ∃ e₁, conclude result e = (result, e₁) ∧ e₁.output.sink.delivered = e.output.written ∧
      e₁.ranges = e.ranges := by
  have hfailure := Writer.flushAll_of_idle hidle e.environment.storage
  rcases hall : Writer.flushAll e.environment.storage e.writers with
    ⟨writers, files, _ | failure⟩ <;> rw [hall] at hfailure
  · have hrun : flush.run e = (emit Output.flush).run
        { e with writers, environment := { e.environment with storage := files } } := by
      rw [flush, run_get_bind, hall]
      rfl
    rw [run_emit, hclear.adds_flush.fault] at hrun
    rw [conclude, hrun]
    exact ⟨_, rfl, hclear.delivered_flush, rfl⟩
  · cases hfailure

/-- If the run over a file ends before the file does, the run over all files ends with the same
failure. -/
lemma InStep.concludes {k : ℕ} {failed : Except Failure ℕ}
    (h : InStep storage before rest (Editor.advance p k .reading a)
      (Editor.advance p k .reading e))
    (hend : (Editor.advance p k .reading a).1 = .finished failed) :
    ∃ failure a' e', failed = .error failure ∧ Concludes p a failed a' ∧ Concludes p e failed e' ∧
      e'.output.sink.delivered = before ++ a'.output.sink.delivered := by
  obtain ⟨hstage, halong, -, hruns⟩ := h
  obtain ⟨a', ha, hbytes, -⟩ := conclude_of_idle halong.idle halong.output.clear failed
  obtain ⟨e', he, hbytes', -⟩ := conclude_of_idle halong.idle' halong.output.clear' failed
  have hconc : Concludes p a failed a' := ⟨k, failed, _, Prod.ext hend rfl, ha⟩
  have hconc' : Concludes p e failed e' := ⟨k, failed, _, Prod.ext (hstage.trans hend) rfl, he⟩
  have hdelivered : e'.output.sink.delivered = before ++ a'.output.sink.delivered := by
    rw [hbytes, hbytes', halong.output.written]
  cases failed with
  | error failure => exact ⟨failure, a', e', rfl, hconc, hconc', hdelivered⟩
  | ok code => exact absurd hend (hruns code)

/-- If the file ends, so does the run over it, and the run over all files is ready for the next
one. -/
lemma InStep.between (h₀ : e₀.Fresh) (h : Between e₀ before (name :: rest) ranges e) {k : ℕ}
    (hstep : InStep e₀.environment.storage before rest
      (Editor.advance p k .reading (alone e₀ name ranges)) (Editor.advance p k .reading e))
    (hend : AtEnd (Editor.advance p k .reading (alone e₀ name ranges))) :
    ∃ a e₁, Concludes p (alone e₀ name ranges) (.ok 0) a ∧
      Editor.advance p k .reading e = (.reading, e₁) ∧
      ∀ ranges', Resumes a.ranges ranges' →
        Between e₀ (before ++ a.output.sink.delivered) rest ranges' e₁ := by
  obtain ⟨hstage, halong, hqueue, -⟩ := hstep
  obtain ⟨hreading, hspent⟩ := hend
  have hoptions : (Editor.advance p k .reading e).2.options = e₀.options :=
    (moves_advance p k .reading e).options.trans h.options
  have hoptions' := halong.options.symm.trans hoptions
  have hlast := run_reading_of_spent (p := p) hspent halong.input.pending
  -- With no record left, the run over the file alone ends where the other one reads on.
  rcases hrun : Editor.advance p k .reading (alone e₀ name ranges) with ⟨stage, a₁⟩
  rw [hrun] at hstage halong hqueue hreading hspent hoptions' hlast
  cases hreading
  obtain ⟨a, ha, hbytes, hranges⟩ :=
    conclude_of_idle (e := { a₁ with input := { a₁.input with reader := none } }) halong.idle
      halong.output.clear (.ok 0)
  refine ⟨a, (Editor.advance p k .reading e).2, ⟨k + 1, .ok 0, _, ?_, ha⟩, Prod.ext hstage rfl,
    fun ranges' hresumes => ?_⟩
  · rw [advance_succ_last, hrun, hlast]
    rfl
  · rw [hranges] at hresumes
    exact
      { options := hoptions
        storage := halong.storage
        output :=
          { clear := h₀.output
            clear' := halong.output.clear'
            separator := by
              rw [halong.output.separator, halong.separator, hoptions', h₀.separator]
            written := by
              rw [hbytes, h₀.written, List.append_nil]
              exact halong.output.written }
        idle := halong.idle'
        queue := halong.queue.trans (hqueue rfl)
        spent := halong.input.spent hspent
        pending := halong.input.pending'
        separator := by rw [halong.input.separator', hoptions']
        separate := halong.input.separate'
        file := halong.file'
        ranges := hresumes.alike halong.ranges }

/-- How the run over a file alone ends decides how the run over all files goes on. -/
lemma Between.goes_on (h₀ : e₀.Fresh) (hp : p.isPlain = true)
    (h : Between e₀ before (name :: rest) ranges e) (hname : e₀.Regular name)
    (hconc : Concludes p (alone e₀ name ranges) result a) :
    (∃ failure e', result = .error failure ∧ Concludes p e result e' ∧
      e'.output.sink.delivered = before ++ a.output.sink.delivered) ∨
    result = .ok 0 ∧ ∃ k e₁, Editor.advance p k .reading e = (.reading, e₁) ∧
      ∀ ranges', Resumes a.ranges ranges' →
        Between e₀ (before ++ a.output.sink.delivered) rest ranges' e₁ := by
  obtain ⟨k, r, a₁, hrun, -⟩ := id hconc
  cases k with
  | zero => cases hrun
  | succ k =>
      obtain hstep | ⟨j, hstep, hend⟩ := h.advance h₀ hp hname k
      · obtain ⟨failure, a', e', rfl, ha, he, hbytes⟩ := hstep.concludes (congrArg Prod.fst hrun)
        obtain ⟨rfl, rfl⟩ := ha.unique hconc
        exact .inl ⟨failure, e', rfl, he, hbytes⟩
      · obtain ⟨a', e₁, ha, hadvance, hbetween⟩ := hstep.between h₀ h hend
        obtain ⟨rfl, rfl⟩ := ha.unique hconc
        exact .inr ⟨rfl, j, e₁, hadvance, hbetween⟩

/-- If the run over all files ends, so does the one over the next file alone. -/
lemma Between.of_concludes (h₀ : e₀.Fresh) (hp : p.isPlain = true)
    (h : Between e₀ before (name :: rest) ranges e) (hname : e₀.Regular name)
    (hconc : Concludes p e result e') :
    (∃ failure a, result = .error failure ∧ Concludes p (alone e₀ name ranges) result a ∧
      e'.output.sink.delivered = before ++ a.output.sink.delivered) ∨
    ∃ a e₁, Concludes p (alone e₀ name ranges) (.ok 0) a ∧ Concludes p e₁ result e' ∧
      ∀ ranges', Resumes a.ranges ranges' →
        Between e₀ (before ++ a.output.sink.delivered) rest ranges' e₁ := by
  obtain ⟨k, r, e₂, hrun, -⟩ := id hconc
  cases k with
  | zero => cases hrun
  | succ k =>
      obtain hstep | ⟨j, hstep, hend⟩ := h.advance h₀ hp hname k
      · have hfinished := hstep.stage.symm.trans (congrArg Prod.fst hrun)
        obtain ⟨failure, a, e₁, rfl, ha, he, hbytes⟩ := hstep.concludes hfinished
        obtain ⟨rfl, rfl⟩ := he.unique hconc
        exact .inl ⟨failure, a, rfl, ha, hbytes⟩
      · obtain ⟨a, e₁, ha, hadvance, hbetween⟩ := hstep.between h₀ h hend
        exact .inr ⟨a, e₁, ha, (concludes_iff_of_advance hadvance).1 hconc, hbetween⟩

/-- After the last file the run ends. -/
lemma Between.done (h₀ : e₀.Fresh) (h : Between e₀ before [] ranges e) :
    ∃ e', Concludes p e (.ok 0) e' ∧ e'.output.sink.delivered = before := by
  obtain ⟨e', he, hbytes, -⟩ := conclude_of_idle
    (e := { e with input := { e.input with reader := none } }) h.idle h.output.clear' (.ok 0)
  refine ⟨e', ⟨1, .ok 0, _, ?_, he⟩, ?_⟩
  · rw [advance_succ, run_reading_of_spent h.spent h.pending]
    rfl
  · rw [hbytes]
    exact h.output.written.trans (by rw [h₀.written, List.append_nil])

end Editor

end StreamEditor
