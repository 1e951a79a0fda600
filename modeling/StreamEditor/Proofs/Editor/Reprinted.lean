import StreamEditor.Proofs.Editor.Flushed
import StreamEditor.Proofs.Editor.Likened
import StreamEditor.Proofs.Output.Calls
import StreamEditor.Regex.Builtin

/-!
Printing instead of writing to the output.

* `Output.Owes`: two outputs that were given the same bytes, but for a last separator that only one
  of them has written; the other one writes it as soon as anything else is written.
* `Command.Reprints`: a command that prints instead of writing to the output.
* `Editor.Reprinted`: the same editor with such another output. No command sees a difference
  (`Editor.Reprinted.lockstep`), and none makes more of one if it prints instead of writing
  (`Editor.likens_reprints`).
* `Editor.prints_writes`: what becomes of a whole run.
-/

namespace StreamEditor

/-! ### Outputs -/

namespace Output

/-- Two outputs that take any number of bytes. Both were given the same ones, but the second may owe
a separator that the first has written already. -/
structure Owes (o o' : Output) : Prop where
  room : o.sink.room = none
  room' : o'.sink.room = none
  separator : o'.separator = o.separator
  resumed : o'.resumed = o.resumed
  owed : o.unterminated = true → o'.unterminated = true

namespace Owes

variable {o o' : Output}

lemma refl (h : o.sink.room = none) : Owes o o := ⟨h, h, rfl, rfl, id⟩

/-- A separator at the end is all that the second output may lack. -/
lemma written (h : Owes o o') :
    o.written = o'.written ∨
      o.unterminated = false ∧ o'.unterminated = true ∧
        o.written = o'.written ++ [o.separator] := by
  have hresumed := h.resumed
  have howed := h.owed
  rw [Output.resumed, Output.resumed, h.separator] at hresumed
  cases hu : o.unterminated with
  | true =>
      rw [howed hu, hu] at hresumed
      exact .inl (List.append_cancel_right hresumed).symm
  | false =>
      cases hu' : o'.unterminated with
      | true =>
          rw [hu, hu'] at hresumed
          exact .inr ⟨rfl, rfl, by simpa using hresumed.symm⟩
      | false =>
          rw [hu, hu'] at hresumed
          exact .inl (by simpa using hresumed.symm)

/-- Writes of the same bytes, but for the separator of a record that one of them terminates. -/
lemma attempt_both (h : Owes o o') {w w' : Write}
    (hbytes : w'.bytes o.separator ++ (if w'.lacksSeparator then [o.separator] else []) =
      w.bytes o.separator ++ if w.lacksSeparator then [o.separator] else [])
    (howed : w.lacksSeparator = true → w'.lacksSeparator = true) :
    (w.attempt o).2 = none ∧ (w'.attempt o').2 = none ∧ Owes (w.attempt o).1 (w'.attempt o').1 := by
  obtain ⟨sink, waiting, hw, hroom, hwritten⟩ := w.attempt_of_room h.room
  obtain ⟨sink', waiting', hw', hroom', hwritten'⟩ := w'.attempt_of_room h.room'
  rw [hw, hw']
  refine ⟨rfl, rfl, hroom, hroom', h.separator, ?_, howed⟩
  rw [Output.resumed, Output.resumed, Output.written, Output.written, hwritten, hwritten']
  dsimp only
  rw [h.resumed, h.separator, List.append_assoc, List.append_assoc, hbytes]

lemma attempt (h : Owes o o') (w : Write) :
    (w.attempt o).2 = none ∧ (w.attempt o').2 = none ∧ Owes (w.attempt o).1 (w.attempt o').1 :=
  h.attempt_both rfl id

/-- A record that one output terminates, and the other one does not. -/
lemma unterminate (h : Owes o o') (text : Text) :
    (o.writeRecord text true).2 = none ∧ (o'.writeRecord text false).2 = none ∧
      Owes (o.writeRecord text true).1 (o'.writeRecord text false).1 :=
  @attempt_both _ _ h (.record text true) (.record text false)
    (by simp [Write.bytes, Write.lacksSeparator]) (by simp [Write.lacksSeparator])

lemma flush (h : Owes o o') : o.flush.2 = none ∧ o'.flush.2 = none ∧ Owes o.flush.1 o'.flush.1 := by
  obtain ⟨sink, hflush, hroom, hdelivered⟩ := flush_of_room h.room
  obtain ⟨sink', hflush', hroom', hdelivered'⟩ := flush_of_room h.room'
  rw [hflush, hflush']
  refine ⟨rfl, rfl, hroom, hroom', h.separator, ?_, h.owed⟩
  have hresumed := h.resumed
  rw [Output.resumed, Output.resumed] at hresumed ⊢
  rw [Output.written, Output.written, hdelivered, hdelivered', List.append_nil, List.append_nil]
  exact hresumed

end Owes

end Output

/-! ### Commands -/

/-- What prints instead of writing to the output. -/
inductive Action.Reprints : Action → Action → Prop
  | same (a : Action) : Reprints a a
  | record : Reprints (.write .output) .print
  | firstLine : Reprints (.writeFirstLine .output) .printFirstLine

/-- The second command may print where the first one writes to the output. It applies to the same
records, but may have another letter and stand elsewhere. -/
structure Command.Reprints (c c' : Command) : Prop where
  selection : c'.selection = c.selection
  negated : c'.negated = c.negated
  action : c.action.Reprints c'.action

/-- The second program may print where the first one writes to the output. -/
structure Program.Reprints (p p' : Program) : Prop where
  commands : List.Forall₂ Command.Reprints p.commands p'.commands
  outputFiles : p'.outputFiles = p.outputFiles
  rangeCount : p'.rangeCount = p.rangeCount
  quiet : p'.quiet = p.quiet

namespace Editor

lemma skip_reprints {c c' : Command} (h : c.Reprints c') (following : ℕ) :
    skip c' following = skip c following := by
  rw [skip, skip]
  have haction := h.action
  generalize c.action = a, c'.action = a' at haction
  cases haction <;> rfl

/-- Programs that differ in this way begin alike. -/
lemma start?_reprints {p p' : Program} (h : p.Reprints p') (o : Options) (input : Input)
    (sink : Sink) (env : Environment) : start? p' o input sink env = start? p o input sink env := by
  have hslots : openSlots p' = openSlots p := by
    rw [openSlots, openSlots]
    have hcommands := h.commands
    generalize p.commands = cs, p'.commands = cs' at hcommands
    induction hcommands with
    | nil => rfl
    | cons hc _ ih => rw [List.filterMap_cons, List.filterMap_cons, hc.selection, ih]
  rw [start?, start?, h.outputFiles, h.rangeCount, h.quiet, hslots]

/-! ### Outputs that differ -/

/-- The same editor with another output, which may owe a separator. -/
structure Reprinted (e e' : Editor) : Prop where
  same : ∃ ranges output, e' = { e with ranges, output }
  ranges : RangesAlike e.recordsRead e'.recordsRead e.ranges e'.ranges
  output : e.output.Owes e'.output

namespace Reprinted

variable {e e' : Editor} {α : Type}

/-- What neither looks at the output and the ranges nor changes them. -/
lemma agrees_blind {m : Edit α} (h : ∀ (e : Editor) ranges output,
      m.run { e with ranges, output } = ((m.run e).1, { (m.run e).2 with ranges, output }))
    (hread : ∀ e, (m.run e).2.recordsRead = e.recordsRead) : Agrees Reprinted m m := by
  intro e e' hR
  obtain ⟨⟨ranges, output, rfl⟩, hranges, houtput⟩ := hR
  have hself : (m.run e).2 = { (m.run e).2 with ranges := e.ranges, output := e.output } :=
    congrArg Prod.snd (h e e.ranges e.output)
  rw [AgreesAt, h e ranges output]
  refine ⟨rfl, ⟨ranges, output, rfl⟩, ?_, ?_⟩
  · rw [hself]
    dsimp only
    rw [hread]
    exact hranges
  · rw [hself]
    exact houtput

lemma agrees_tell (event : Event) : Agrees Reprinted (tell event) (tell event) := by
  have htell (e : Editor) : (tell event).run e = (.ok (), told event e) := rfl
  refine agrees_blind (fun e ranges output => ?_) fun e => ?_
  · rw [htell, htell, told, told]
    cases hdebug : e.options.debug <;> simp
  · rw [htell, told]
    split <;> rfl

/-- Writes that both outputs take. -/
lemma agrees_emit {f f' : Output → Output.Attempt}
    (h : ∀ o o', o.Owes o' → (f o).2 = none ∧ (f' o').2 = none ∧ (f o).1.Owes (f' o').1) :
    Agrees Reprinted (emit f) (emit f') := by
  intro e e' hR
  obtain ⟨⟨ranges, output, rfl⟩, hranges, houtput⟩ := hR
  obtain ⟨hfine, hfine', howes⟩ := h _ _ houtput
  rw [AgreesAt, run_emit, run_emit, hfine, hfine']
  exact ⟨rfl, ⟨ranges, _, rfl⟩, hranges, howes⟩

lemma agrees_write (w : Output.Write) : Agrees Reprinted (emit w.attempt) (emit w.attempt) :=
  agrees_emit fun _ _ h => h.attempt w

lemma agrees_printRecord (text : Text) (terminated : Bool) :
    Agrees Reprinted (printRecord text terminated) (printRecord text terminated) :=
  agrees_write (.record text terminated)

lemma agrees_printPattern : Agrees Reprinted printPattern printPattern := by
  refine Agrees.get fun e e' h => ?_
  obtain ⟨ranges, output, rfl⟩ := id h.same
  exact agrees_printRecord _ _ _ _ h

lemma agrees_writeTo (target : Target) (text : Text) (terminated : Bool) :
    Agrees Reprinted (writeTo target text terminated) (writeTo target text terminated) := by
  cases target with
  | output => exact agrees_printRecord text terminated
  | errors => exact agrees_blind (fun _ _ _ => rfl) fun _ => rfl
  | file index =>
      refine agrees_blind (fun e ranges output => ?_) fun e => ?_
      · have hsame : ({ e with ranges, output } : Editor).writers[index]? = e.writers[index]? := rfl
        rw [writeTo]
        cases hw : e.writers[index]? with
        | none => rw [run_writeToFile_of_none hw, run_writeToFile_of_none (hsame.trans hw)]
        | some writer =>
            rw [run_writeToFile hw, run_writeToFile (hsame.trans hw)]
      · rw [writeTo]
        cases hw : e.writers[index]? with
        | none => rw [run_writeToFile_of_none hw]
        | some writer => rw [run_writeToFile hw]

lemma agrees_readLineOf (name : Text) : Agrees Reprinted (readLineOf name) (readLineOf name) := by
  refine agrees_blind (fun e ranges output => ?_) fun e => ?_
  · rw [readLineOf, run_modifyGet, run_modifyGet]
    dsimp only
    split <;> rfl
  · rw [readLineOf, run_modifyGet]
    dsimp only
    split <;> rfl

lemma agrees_deliver (q : Queued) : Agrees Reprinted (deliver q) (deliver q) := by
  cases q with
  | text t => exact agrees_write (.line t)
  | file name =>
      have hread : Agrees Reprinted (readWhole name) (readWhole name) :=
        agrees_blind (fun _ _ _ => rfl) fun _ => rfl
      have hrest := hread.bind fun contents =>
        show Agrees Reprinted (contents.toOption.elim (pure ()) fun data => emit (·.writeRaw data))
          (contents.toOption.elim (pure ()) fun data => emit (·.writeRaw data)) by
        cases contents with
        | error _ => exact Agrees.pure _
        | ok data => exact agrees_write (.raw data)
      intro e e' h
      exact AgreesAt.of_run (run_deliver_file name e) (run_deliver_file name e') (hrest e e' h)

lemma agrees_release : Agrees Reprinted release release := by
  refine Agrees.get fun e e' h => ?_
  obtain ⟨⟨ranges, output, rfl⟩, hranges, houtput⟩ := h
  exact Agrees.forM (fun q _ => agrees_deliver q) _ _ ⟨⟨ranges, output, rfl⟩, hranges, houtput⟩

lemma agrees_load (record : Record) (pattern : Text) :
    Agrees Reprinted (load record pattern) (load record pattern) := by
  refine Agrees.modify fun e e' h => ?_
  obtain ⟨⟨ranges, output, rfl⟩, hranges, houtput⟩ := h
  exact ⟨⟨ranges, output, rfl⟩, hranges.next, houtput⟩

lemma agrees_resolve (c : Command) (regex : Option Regex) :
    Agrees Reprinted (resolve c regex) (resolve c regex) := by
  refine Agrees.get fun e e' h => ?_
  obtain ⟨ranges, output, rfl⟩ := id h.same
  dsimp only
  cases regex.or e.lastRegex with
  | none => exact Agrees.throw _ _ _ h
  | some regex => exact ⟨rfl, ⟨ranges, output, rfl⟩, h.ranges, h.output⟩

/-- No command sees a difference. -/
lemma lockstep : TotalLockstep Reprinted where
  pattern h := by obtain ⟨ranges, output, rfl⟩ := h.same; rfl
  substituted h := by obtain ⟨ranges, output, rfl⟩ := h.same; rfl
  lineNumber h := by obtain ⟨ranges, output, rfl⟩ := h.same; rfl
  quiet h := by obtain ⟨ranges, output, rfl⟩ := h.same; rfl
  lineWrap h := by obtain ⟨ranges, output, rfl⟩ := h.same; rfl
  recordName h := by obtain ⟨ranges, output, rfl⟩ := h.same; rfl
  terminated h := by obtain ⟨ranges, output, rfl⟩ := h.same; rfl
  hold h := by obtain ⟨ranges, output, rfl⟩ := h.same; rfl
  separate h := by obtain ⟨ranges, output, rfl⟩ := h.same; rfl
  ranges h := h.ranges
  setPattern ht h := by
    obtain ⟨⟨ranges, output, rfl⟩, hranges, houtput⟩ := h
    exact ⟨⟨ranges, output, by rw [ht]⟩, hranges, houtput⟩
  setSubstituted substituted h := by
    obtain ⟨⟨ranges, output, rfl⟩, hranges, houtput⟩ := h
    exact ⟨⟨ranges, output, rfl⟩, hranges, houtput⟩
  setRanges hr h := by
    obtain ⟨⟨ranges, output, rfl⟩, -, houtput⟩ := h
    exact ⟨⟨_, output, rfl⟩, hr, houtput⟩
  setHold ht h := by
    obtain ⟨⟨ranges, output, rfl⟩, hranges, houtput⟩ := h
    exact ⟨⟨ranges, output, by rw [ht]⟩, hranges, houtput⟩
  tell := agrees_tell
  printPattern := agrees_printPattern
  printFirst text := agrees_printRecord text true
  printText text := agrees_write (.line text)
  enqueueText _ := agrees_blind (fun _ _ _ => rfl) fun _ => rfl
  enqueueFile _ := agrees_blind (fun _ _ _ => rfl) fun _ => rfl
  release := agrees_release
  hasNext := agrees_blind (fun _ _ _ => rfl) fun _ => rfl
  readRecord := agrees_blind (fun _ _ _ => rfl) fun _ => rfl
  writeTo := agrees_writeTo
  readLineOf := agrees_readLineOf
  load := agrees_load
  resolve := agrees_resolve

lemma agrees_flush : Agrees Reprinted flush flush := by
  have hfiles : Agrees Reprinted flushFiles flushFiles :=
    agrees_blind (fun _ _ _ => rfl) fun _ => rfl
  refine fun e e' h => AgreesAt.of_run (run_flush e) (run_flush e') ?_
  refine hfiles.bind (fun failure => ?_) e e' h
  cases failure with
  | none => exact agrees_emit fun _ _ h => h.flush
  | some failure => exact Agrees.throw _

end Reprinted

/-! ### Printing instead of writing -/

lemma fst_splitLine {t : Text} (h : (Text.splitLine t).2 = none) : (Text.splitLine t).1 = t := by
  rw [Text.splitLine] at h ⊢
  split at h
  · rfl
  · cases h

/-- A command that prints instead of writing makes no more of a difference than a separator. -/
lemma likens_reprints {c c' : Command} (h : c.Reprints c') (following : ℕ) :
    Likens Reprinted (perform c following) (perform c' following) := by
  obtain ⟨letter, selection, negated, action, place⟩ := c
  obtain ⟨letter', selection', negated', action', place'⟩ := c'
  obtain ⟨hselection, hnegated, haction⟩ := h
  cases haction with
  | same =>
      refine (Reprinted.lockstep.agrees_perform _ following).trans_likens ?_
      exact likens_perform hselection hnegated rfl following
  | record =>
      refine Agrees.likens (Agrees.get fun e e' hR => ?_)
      obtain ⟨ranges, output, rfl⟩ := id hR.same
      exact Lockstep.agrees_goOn (Reprinted.agrees_printRecord _ _) _ _ _ hR
  | firstLine =>
      refine Agrees.likens (Agrees.get fun e e' hR => ?_)
      obtain ⟨ranges, output, rfl⟩ := id hR.same
      dsimp only
      rcases hsplit : Text.splitLine e.pattern with ⟨first, _ | rest⟩
      · have hfirst := fst_splitLine (t := e.pattern) (by rw [hsplit])
        rw [hsplit] at hfirst
        obtain rfl : first = e.pattern := hfirst
        have hprint : Agrees Reprinted (printRecord e.pattern true)
            (printRecord e.pattern e.terminated) := by
          cases e.terminated with
          | true => exact Reprinted.agrees_printRecord _ _
          | false => exact Reprinted.agrees_emit fun _ _ h => h.unterminate _
        exact (AgreesAt.of_run rfl rfl (hprint _ _ hR)).bind fun _ => Agrees.pure _
      · exact Lockstep.agrees_goOn (Reprinted.agrees_printRecord _ _) _ _ _ hR

/-! ### The same output -/

/-- The run comes to a command that applies and writes the first line to the output, where this line
is the whole record and lacks its separator. -/
def WritesUnended (p : Program) (stage : Stage) (e : Editor) : Prop :=
  ∃ index c e₁, stage = .running index ∧ p.commands[index]? = some c ∧
    c.action = .writeFirstLine .output ∧ (applies c).run e = (.ok true, e₁) ∧
    e₁.terminated = false ∧ (Text.splitLine e₁.pattern).2 = none

/-- Where a first line ends, a command that prints it does the same as one that writes it. -/
lemma likensAt_perform {c c' : Command} (h : c.Reprints c') {e : Editor}
    (hended : c.action = .writeFirstLine .output →
      e.terminated = true ∨ (Text.splitLine e.pattern).2 ≠ none) (following : ℕ) :
    LikensAt Eq (perform c following) (perform c' following) e e := by
  obtain ⟨letter, selection, negated, action, place⟩ := c
  obtain ⟨letter', selection', negated', action', place'⟩ := c'
  obtain ⟨hselection, hnegated, haction⟩ := h
  cases haction with
  | same => exact likens_perform hselection hnegated rfl following e e rfl
  | record => exact ⟨rfl, rfl⟩
  | firstLine =>
      have hended := hended rfl
      rw [LikensAt, perform, perform, run_get_bind, run_get_bind]
      dsimp only
      rcases hsplit : Text.splitLine e.pattern with ⟨first, _ | rest⟩
      · have hfirst := fst_splitLine (t := e.pattern) (by rw [hsplit])
        rw [hsplit] at hfirst hended
        obtain rfl : first = e.pattern := hfirst
        have hprint : printPattern.run e = (writeTo .output e.pattern true).run e := by
          rw [← hended.resolve_right (by simp)]
          rfl
        dsimp only
        rw [run_bind_congr hprint]
        exact ⟨rfl, rfl⟩
      · exact ⟨rfl, rfl⟩

variable {p p' : Program}

lemma likensAt_step (h : p.Reprints p') {stage : Stage} {e : Editor}
    (hended : ¬WritesUnended p stage e) : LikensAt Eq (step p stage) (step p' stage) e e := by
  cases stage with
  | reading | finished => exact Likens.refl _ e e rfl
  | running index =>
      cases hc : p.commands[index]? with
      | none =>
          rw [step_of_none hc, step_of_none (getElem?_eq_none_of_forall₂ h.commands hc)]
          exact Likens.refl _ e e rfl
      | some c =>
          obtain ⟨c', hc', hreprints⟩ := getElem?_of_forall₂ h.commands hc
          rw [step_of_some hc, step_of_some hc']
          have happlies := likens_applies hreprints.selection hreprints.negated e e rfl
          refine happlies.bind_of_run fun selected e₁ e₁' hrun hsame => ?_
          obtain rfl : e₁ = e₁' := hsame
          cases selected with
          | false =>
              rw [skip_reprints hreprints]
              exact ⟨rfl, rfl⟩
          | true =>
              refine (likensAt_perform hreprints (fun ha => ?_) _).bind fun _ => Likens.refl _
              by_contra hnot
              rw [not_or, Bool.not_eq_true, not_not] at hnot
              exact hended ⟨index, c, e₁, rfl, hc, ha, hrun, hnot.1, hnot.2⟩

/-! ### Whole runs -/

/-- After a run that ends well nothing waits at the output. -/
lemma waiting_of_conclude {r : Except Failure ℕ} {code : ℕ} {e e' : Editor}
    (h : conclude r e = (.ok code, e')) : e'.output.waiting = [] := by
  obtain ⟨⟨⟩, hflush⟩ : ∃ u, flush.run e = (.ok u, e') := by
    rw [conclude] at h
    rcases hrun : flush.run e with ⟨failure | u, e₁⟩ <;> rw [hrun] at h
    · cases r <;> cases h
    · cases h
      exact ⟨u, rfl⟩
  rw [run_flush] at hflush
  obtain ⟨failure, e₁, -, hrest⟩ := run_bind_eq_ok hflush
  cases failure with
  | some failure => cases hrest
  | none =>
      rw [Option.elim_none, run_emit] at hrest
      cases hfault : e₁.output.flush.2 with
      | some fault =>
          rw [hfault] at hrest
          cases hrest
      | none =>
          rw [← congrArg (fun x => x.2.output) hrest]
          exact Output.waiting_flush hfault

/-- A program that prints where another one writes to the output begins like that one, and does the
same, to whatever output, as long as no first line that is written is a whole record without its
separator. Where it is, one of the two terminates it and the other one does not. If the output takes
all bytes, this makes no other difference than a last separator: at any time both runs stand at the
same stage, and their editors differ in nothing but their outputs, to which the same was written
otherwise. If one run ends, so does the other, with the same exit code. -/
theorem prints_writes (h : p.Reprints p') (o : Options) (input : Input) (sink : Sink)
    (env : Environment) :
    start? p' o input sink env = start? p o input sink env ∧
      ∀ e₀, (start? p o input sink env).1 = .ok e₀ →
        (∀ k, (∀ j < k, ¬WritesUnended p (advance p j .reading e₀).1 (advance p j .reading e₀).2) →
          (advance p' k .reading e₀).1.anonymous = (advance p k .reading e₀).1.anonymous ∧
            (advance p' k .reading e₀).2 = (advance p k .reading e₀).2) ∧
        (sink.room = none →
          (∀ k, (advance p' k .reading e₀).1.anonymous = (advance p k .reading e₀).1.anonymous ∧
            Reprinted (advance p k .reading e₀).2 (advance p' k .reading e₀).2) ∧
          ∀ result e, Concludes p e₀ result e → ∃ result' e', Concludes p' e₀ result' e' ∧
            result'.mapError Failure.anonymous = result.mapError Failure.anonymous ∧
            Reprinted e e' ∧
            (result.isOk = true → e.output.sink.delivered = e'.output.sink.delivered ∨
              e.output.sink.delivered = e'.output.sink.delivered ++ [e.output.separator])) := by
  refine ⟨start?_reprints h o input sink env, fun e₀ hstart =>
    ⟨fun k hended => ?_, fun hroom => ?_⟩⟩
  · have hsame := @likens_advance Eq p p' k .reading e₀ e₀
      (fun j hj e₁' he => he ▸ likensAt_step h (hended j hj)) rfl
    exact ⟨hsame.1, hsame.2.symm⟩
  obtain ⟨writers, storage, -, he₀⟩ := start?_eq_ok hstart
  have hbegin : Reprinted e₀ e₀ := by
    rw [he₀]
    refine ⟨⟨_, _, rfl⟩, .refl fun st hst r b hanswered => ?_, .refl hroom⟩
    obtain ⟨slot, -, rfl⟩ := List.mem_map.1 hst
    cases hanswered
  have hstep := Reprinted.lockstep.likens_step h.commands
    (fun _ _ hc => ⟨hc.selection, hc.negated⟩) (fun _ _ => skip_reprints) fun _ _ => likens_reprints
  have hadvance (k : ℕ) :=
      @likens_advance _ p p' k .reading _ _ (fun _ _ e₁' => hstep _ _ e₁') hbegin
  refine ⟨hadvance, ?_⟩
  rintro result e ⟨k, r, e₁, hrun, hend⟩
  obtain ⟨hstage, hrest⟩ := hadvance k
  rw [hrun] at hstage hrest
  obtain ⟨r', hstage', hr⟩ := eq_finished_of_anonymous hstage
  obtain ⟨hresult, hlast⟩ := likens_conclude Reprinted.agrees_flush hrest hr
  rw [hend] at hresult hlast
  refine ⟨_, _, ⟨k, r', _, Prod.ext hstage' rfl, rfl⟩, hresult, hlast, fun hok => ?_⟩
  obtain ⟨code, rfl⟩ : ∃ code, result = .ok code := by
    cases result with
    | error _ => cases hok
    | ok code => exact ⟨code, rfl⟩
  have hwaiting := waiting_of_conclude hend
  have hresult' : (conclude r' (advance p' k .reading e₀).2).1 = .ok code := by
    generalize (conclude r' (advance p' k .reading e₀).2).1 = result' at hresult
    cases result' with
    | error _ => cases hresult
    | ok code' => exact congrArg Except.ok (Except.ok.inj hresult)
  have hwaiting' := waiting_of_conclude (Prod.ext hresult' rfl)
  have hwritten := hlast.output.written
  rw [Output.written, Output.written, hwaiting, hwaiting', List.append_nil,
    List.append_nil] at hwritten
  exact hwritten.imp_right fun h => h.2.2

/-- Two lines, the second without its newline. Each is written three times, and printed as often. -/
theorem prints_writes_lines :
    ∃ p p' e₀ e e',
      Program.parse (.ofText (Text.ofString "w /dev/stdout\nW /dev/stdout")) .standard = .ok p ∧
      Program.parse (.ofText (Text.ofString "p\nP")) .standard = .ok p' ∧ p.Reprints p' ∧
      (start? p .standard (.ofFiles [['f']] 10 false) .unlimited
        (.start ⟨[([['f']], [97, 10, 98])], [], []⟩)).1 = .ok e₀ ∧
      Concludes p e₀ (.ok 0) e ∧ Concludes p' e₀ (.ok 0) e' ∧
      e'.output.sink.delivered = [97, 10, 97, 10, 97, 10, 98, 10, 98, 10, 98] := by
  obtain ⟨p, hp, p', hp', h⟩ : ∃ p,
      Program.parse (.ofText (Text.ofString "w /dev/stdout\nW /dev/stdout")) .standard = .ok p ∧
      ∃ p', Program.parse (.ofText (Text.ofString "p\nP")) .standard = .ok p' ∧ p.Reprints p' := by
    refine ⟨⟨[⟨'w', .all, false, .write .output, _⟩,
      ⟨'W', .all, false, .writeFirstLine .output, _⟩], [], [], 0, false⟩, by rfl,
      ⟨[⟨'p', .all, false, .print, _⟩, ⟨'P', .all, false, .printFirstLine, _⟩], [], [], 0, false⟩,
      by rfl, ?_, rfl, rfl, rfl⟩
    exact .cons ⟨rfl, rfl, .record⟩ (.cons ⟨rfl, rfl, .firstLine⟩ .nil)
  have hall : outcome? (fun e => (e.output.sink.delivered, e.output.separator))
      (Program.parse (.ofText (Text.ofString "w /dev/stdout\nW /dev/stdout")) .standard) .standard
      [['f']] ⟨[([['f']], [97, 10, 98])], [], []⟩ 9 =
      some (.ok 0, [97, 10, 97, 10, 97, 10, 98, 10, 98, 10, 98], 10) := by
    decide +kernel
  obtain ⟨p₁, e₀, e, hp₁, hstart, hend, hseen⟩ := concludes_of_outcome? hall
  obtain ⟨hdelivered, hseparator⟩ := Prod.mk.inj hseen
  obtain rfl : p = p₁ := Except.ok.inj (hp.symm.trans hp₁)
  obtain ⟨-, hruns⟩ := prints_writes h .standard (.ofFiles [['f']] 10 false) .unlimited
    (.start ⟨[([['f']], [97, 10, 98])], [], []⟩)
  obtain ⟨-, hendless⟩ := hruns e₀ hstart
  obtain ⟨result, e', hend', hresult, -, hbytes⟩ := (hendless rfl).2 _ _ hend
  obtain rfl : result = .ok 0 := by
    cases result with
    | error _ => cases hresult
    | ok code => exact congrArg Except.ok (Except.ok.inj hresult)
  refine ⟨p, p', e₀, e, e', hp, hp', h, hstart, hend, hend', ?_⟩
  rw [hdelivered, hseparator] at hbytes
  -- What is written ends with a letter, so that no separator is missing.
  obtain hsame | hmore := hbytes rfl
  · exact hsame.symm
  · exact absurd (congrArg List.getLast? hmore) (by simp)

/-- A line without its newline is written and not printed. What is written ends with a newline,
where what is printed instead does not. -/
theorem prints_writes_unended :
    ∃ p p' e₀ e e',
      Program.parse (.ofText (Text.ofString "W /dev/stdout"))
        { Options.standard with quiet := true } = .ok p ∧
      Program.parse (.ofText (Text.ofString "P")) { Options.standard with quiet := true } = .ok p' ∧
      p.Reprints p' ∧
      (start? p { Options.standard with quiet := true } (.ofFiles [['f']] 10 false) .unlimited
        (.start ⟨[([['f']], [97])], [], []⟩)).1 = .ok e₀ ∧
      Concludes p e₀ (.ok 0) e ∧ Concludes p' e₀ (.ok 0) e' ∧
      e.output.sink.delivered = [97, 10] ∧ e'.output.sink.delivered = [97] := by
  obtain ⟨p, hp, p', hp', h⟩ : ∃ p, Program.parse (.ofText (Text.ofString "W /dev/stdout"))
      { Options.standard with quiet := true } = .ok p ∧ ∃ p',
      Program.parse (.ofText (Text.ofString "P")) { Options.standard with quiet := true } = .ok p' ∧
      p.Reprints p' :=
    ⟨⟨[⟨'W', .all, false, .writeFirstLine .output, _⟩], [], [], 0, false⟩, by rfl,
      ⟨[⟨'P', .all, false, .printFirstLine, _⟩], [], [], 0, false⟩, by rfl,
      .cons ⟨rfl, rfl, .firstLine⟩ .nil, rfl, rfl, rfl⟩
  have hall : outcome? (fun e => e.output.sink.delivered) (Program.parse
      (.ofText (Text.ofString "W /dev/stdout")) { Options.standard with quiet := true })
      { Options.standard with quiet := true } [['f']] ⟨[([['f']], [97])], [], []⟩ 4 =
      some (.ok 0, [97, 10]) := by
    decide +kernel
  have hall' : outcome? (fun e => e.output.sink.delivered) (Program.parse
      (.ofText (Text.ofString "P")) { Options.standard with quiet := true })
      { Options.standard with quiet := true } [['f']] ⟨[([['f']], [97])], [], []⟩ 4 =
      some (.ok 0, [97]) := by
    decide +kernel
  obtain ⟨p₁, e₀, e, hp₁, hstart, hend, hdelivered⟩ := concludes_of_outcome? hall
  obtain ⟨p₁', e₀', e', hp₁', hstart', hend', hdelivered'⟩ := concludes_of_outcome? hall'
  obtain rfl : p = p₁ := Except.ok.inj (hp.symm.trans hp₁)
  obtain rfl : p' = p₁' := Except.ok.inj (hp'.symm.trans hp₁')
  rw [start?_reprints h] at hstart'
  obtain rfl : e₀ = e₀' := Except.ok.inj (hstart.symm.trans hstart')
  exact ⟨p, p', e₀, e, e', hp, hp', h, hstart, hend, hend', hdelivered, hdelivered'⟩

end Editor

end StreamEditor
