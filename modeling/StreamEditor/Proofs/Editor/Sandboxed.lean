import StreamEditor.Proofs.Editor.Flushed
import StreamEditor.Proofs.Editor.Likened
import StreamEditor.Proofs.Input.Shared
import StreamEditor.Proofs.Program.Sandboxed
import StreamEditor.Regex.Builtin

/-!
Running a program that names no file.

* `Editor.Elsewhere`: the same editor among other files. The commands of such a program see no
  difference (`Editor.Elsewhere.agrees_step`).
* `Editor.KeepsToInput`: a run depends on the files of its input alone, and changes none.
* `Editor.parse_restricted`: a script that is read in a sandbox gives such a program, and the same
  one outside; what is read under the standard is read without it too.
-/

namespace StreamEditor

open Storage (Drains)

namespace Editor

/-! ### Other files -/

/-- The same editor among other files, where its input is found too. It writes to no file and will
read no other. -/
structure Elsewhere (t : Storage) (e e' : Editor) : Prop where
  same : ∃ ranges, e' = { e with ranges, environment := e.environment.among t }
  ranges : RangesAlike e.recordsRead e'.recordsRead e.ranges e'.ranges
  input : e.input.Shared e.environment.storage t
  writers : e.writers = []
  texts : ∀ q ∈ e.queue, ∃ text, q = .text text

namespace Elsewhere

variable {t : Storage} {p : Program} {e e' : Editor}

lemma agrees_tell (event : Event) : Agrees (Elsewhere t) (tell event) (tell event) := by
  refine Agrees.modify fun e e' h => ?_
  obtain ⟨⟨ranges, rfl⟩, hranges, hinput, hwriters, htexts⟩ := h
  cases hdebug : e.options.debug with
  | true =>
      simp only [if_true]
      exact ⟨⟨ranges, rfl⟩, hranges, hinput, hwriters, htexts⟩
  | false =>
      simp only [Bool.false_eq_true, if_false]
      exact ⟨⟨ranges, rfl⟩, hranges, hinput, hwriters, htexts⟩

lemma agrees_emit (f : Output → Output.Attempt) : Agrees (Elsewhere t) (emit f) (emit f) := by
  intro e e' h
  obtain ⟨⟨ranges, rfl⟩, hranges, hinput, hwriters, htexts⟩ := h
  rw [AgreesAt, run_emit, run_emit]
  exact ⟨rfl, ⟨ranges, rfl⟩, hranges, hinput, hwriters, htexts⟩

lemma agrees_printText (text : Text) :
    Agrees (Elsewhere t) (printText text) (printText text) := agrees_emit _

lemma agrees_printPattern : Agrees (Elsewhere t) printPattern printPattern := by
  refine Agrees.get fun e e' h => ?_
  obtain ⟨ranges, rfl⟩ := id h.same
  exact agrees_emit _ _ _ h

lemma agrees_enqueue (text : Text) :
    Agrees (Elsewhere t) (enqueue (.text text)) (enqueue (.text text)) := by
  refine Agrees.modify fun e e' h => ?_
  obtain ⟨⟨ranges, rfl⟩, hranges, hinput, hwriters, htexts⟩ := h
  refine ⟨⟨ranges, rfl⟩, hranges, hinput, hwriters, fun q hq => ?_⟩
  obtain hq | hq := List.mem_append.1 hq
  · exact htexts q hq
  · exact ⟨text, List.mem_singleton.1 hq⟩

lemma agrees_release : Agrees (Elsewhere t) release release := by
  intro e e' h
  have hqueue : e'.queue = e.queue := by
    obtain ⟨ranges, rfl⟩ := h.same
    rfl
  have hset : Elsewhere t { e with queue := [] } { e' with queue := [] } := by
    obtain ⟨⟨ranges, rfl⟩, hranges, hinput, hwriters, -⟩ := h
    exact ⟨⟨ranges, rfl⟩, hranges, hinput, hwriters, nofun⟩
  have hdeliver : Agrees (Elsewhere t) (e.queue.forM deliver) (e.queue.forM deliver) := by
    refine Agrees.forM fun q hq => ?_
    obtain ⟨text, rfl⟩ := h.texts q hq
    exact agrees_printText text
  rw [AgreesAt, release, run_get_bind, run_get_bind, run_set_bind, run_set_bind, hqueue]
  exact hdeliver _ _ hset

lemma agrees_hasNext : Agrees (Elsewhere t) hasNext hasNext := by
  intro e e' h
  obtain ⟨⟨ranges, rfl⟩, hranges, hinput, hwriters, htexts⟩ := h
  obtain ⟨hnext, hshared⟩ := hinput.hasNext
  rw [AgreesAt, run_hasNext, run_hasNext]
  refine ⟨by simp only [hnext], ⟨ranges, by simp only [hnext]⟩, hranges, hshared, hwriters, htexts⟩

lemma agrees_readRecord : Agrees (Elsewhere t) readRecord readRecord := by
  intro e e' h
  obtain ⟨⟨ranges, rfl⟩, hranges, hinput, hwriters, htexts⟩ := h
  obtain ⟨hread, hshared⟩ := hinput.read
  rw [AgreesAt, run_readRecord, run_readRecord]
  refine ⟨by simp only [hread], ⟨ranges, by simp only [hread]⟩, hranges, hshared, hwriters, htexts⟩

lemma agrees_load (record : Record) (pattern : Text) :
    Agrees (Elsewhere t) (load record pattern) (load record pattern) := by
  refine Agrees.modify fun e e' h => ?_
  obtain ⟨⟨ranges, rfl⟩, hranges, hinput, hwriters, htexts⟩ := h
  exact ⟨⟨ranges, rfl⟩, hranges.next, hinput, hwriters, htexts⟩

lemma agrees_resolve (c : Command) (regex : Option Regex) :
    Agrees (Elsewhere t) (resolve c regex) (resolve c regex) := by
  refine Agrees.get fun e e' h => ?_
  obtain ⟨ranges, rfl⟩ := id h.same
  dsimp only
  cases regex.or e.lastRegex with
  | none => exact Agrees.throw _ _ _ h
  | some regex =>
      obtain ⟨-, hranges, hinput, hwriters, htexts⟩ := h
      exact ⟨rfl, ⟨ranges, rfl⟩, hranges, hinput, hwriters, htexts⟩

lemma lockstep : Lockstep (Elsewhere t) where
  pattern h := by obtain ⟨ranges, rfl⟩ := h.same; rfl
  substituted h := by obtain ⟨ranges, rfl⟩ := h.same; rfl
  lineNumber h := by obtain ⟨ranges, rfl⟩ := h.same; rfl
  quiet h := by obtain ⟨ranges, rfl⟩ := h.same; rfl
  lineWrap h := by obtain ⟨ranges, rfl⟩ := h.same; rfl
  recordName h := by obtain ⟨ranges, rfl⟩ := h.same; rfl
  ranges h := h.ranges
  setPattern ht h := by
    obtain ⟨⟨ranges, rfl⟩, hranges, hinput, hwriters, htexts⟩ := h
    exact ⟨⟨ranges, by rw [ht]⟩, hranges, hinput, hwriters, htexts⟩
  setSubstituted substituted h := by
    obtain ⟨⟨ranges, rfl⟩, hranges, hinput, hwriters, htexts⟩ := h
    exact ⟨⟨ranges, rfl⟩, hranges, hinput, hwriters, htexts⟩
  setRanges hr h := by
    obtain ⟨⟨ranges, rfl⟩, -, hinput, hwriters, htexts⟩ := h
    exact ⟨⟨_, rfl⟩, hr, hinput, hwriters, htexts⟩
  tell := agrees_tell
  printPattern := agrees_printPattern
  printFirst text := agrees_emit _
  printText := agrees_printText
  enqueueText := agrees_enqueue
  release := agrees_release
  hasNext := agrees_hasNext

/-! ### Commands -/

lemma readingLockstep : ReadingLockstep (Elsewhere t) where
  toLockstep := lockstep
  terminated h := by obtain ⟨ranges, rfl⟩ := h.same; rfl
  hold h := by obtain ⟨ranges, rfl⟩ := h.same; rfl
  setHold ht h := by
    obtain ⟨⟨ranges, rfl⟩, hranges, hinput, hwriters, htexts⟩ := h
    exact ⟨⟨ranges, by rw [ht]⟩, hranges, hinput, hwriters, htexts⟩
  separate h := by obtain ⟨ranges, rfl⟩ := h.same; rfl
  resolve := agrees_resolve
  readRecord := agrees_readRecord
  load := agrees_load

/-- A command that names no file sees no difference. -/
lemma agrees_perform {c : Command} (hc : c.Closed) (following : ℕ) :
    Agrees (Elsewhere t) (perform c following) (perform c following) := by
  have hsource := hc.source
  refine readingLockstep.agrees_perform c following (fun target htarget => ?_)
    (fun name hname => ?_) fun name hname => ?_
  · rw [hc.target] at htarget
    cases htarget
  · rw [hname] at hsource
    cases hsource
  · rw [hname] at hsource
    cases hsource

/-! ### Runs -/

lemma agrees_step (hp : p.Closed) (stage : Stage) :
    Agrees (Elsewhere t) (step p stage) (step p stage) := by
  cases stage with
  | reading =>
      refine agrees_readRecord.bind fun record => ?_
      cases record with
      | none => exact Agrees.pure _
      | some record => exact (agrees_load _ _).bind fun _ => lockstep.agrees_beginCycle
  | running index =>
      refine lockstep.agrees_running (fun c _ regex _ => agrees_resolve c regex) fun c hc => ?_
      exact agrees_perform (hp.commands c (List.mem_of_getElem? hc)) _
  | finished result => exact Agrees.pure _

lemma advance (h : Elsewhere t e e') (hp : p.Closed) (k : ℕ) (stage : Stage) :
    (advance p k stage e').1 = (advance p k stage e).1 ∧
      Elsewhere t (advance p k stage e).2 (advance p k stage e').2 := by
  induction k with
  | zero => exact ⟨rfl, h⟩
  | succ k ih =>
      obtain ⟨hstage, hrest⟩ := ih
      rw [advance_succ_last, advance_succ_last, hstage]
      exact (agrees_step hp _ _ _ hrest).goOnWith

lemma agrees_flush : Agrees (Elsewhere t) flush flush := by
  intro e e' h
  have hwriters' : e'.writers = [] := by
    obtain ⟨ranges, rfl⟩ := h.same
    exact h.writers
  exact AgreesAt.of_run (run_flush_of_nil h.writers) (run_flush_of_nil hwriters')
    (agrees_emit _ _ _ h)

lemma conclude (h : Elsewhere t e e') (r : Except Failure ℕ) :
    (conclude r e').1 = (conclude r e).1 ∧ Elsewhere t (conclude r e).2 (conclude r e').2 :=
  (agrees_flush e e' h).conclude r

end Elsewhere

/-- What two editors give out is the same. -/
structure Indistinct (e e' : Editor) : Prop where
  output : e'.output = e.output
  notes : e'.environment.notes = e.environment.notes
  status : e'.environment.status = e.environment.status

lemma Elsewhere.indistinct {t : Storage} {e e' : Editor} (h : Elsewhere t e e') :
    Indistinct e e' := by
  obtain ⟨ranges, rfl⟩ := h.same
  exact ⟨rfl, rfl, rfl⟩

/-- Runs of a program keep to the files of their input. A run begins without opening another, it
changes none at any time, and whatever the other files are makes no difference to it. -/
def KeepsToInput (p : Program) (o : Options) (names : List Text) (sink : Sink) (env : Environment) :
    Prop :=
  ∃ e₀, start? p o (.ofFiles names o.separator o.separate) sink env = (.ok e₀, env) ∧
    (∀ k, Drains env.storage (advance p k .reading e₀).2.environment.storage ∧
      ∀ r, Drains env.storage (conclude r (advance p k .reading e₀).2).2.close.storage) ∧
    ∀ t, (∀ name ∈ if names.isEmpty then [['-']] else names,
        Reader.open? t name = Reader.open? env.storage name) →
      ∃ e₀', start? p o (.ofFiles names o.separator o.separate) sink (env.among t) =
          (.ok e₀', env.among t) ∧
        ∀ k, (advance p k .reading e₀').1 = (advance p k .reading e₀).1 ∧
          Indistinct (advance p k .reading e₀).2 (advance p k .reading e₀').2 ∧
          ∀ r, (conclude r (advance p k .reading e₀').2).1 =
              (conclude r (advance p k .reading e₀).2).1 ∧
            Indistinct (conclude r (advance p k .reading e₀).2).2
              (conclude r (advance p k .reading e₀').2).2

/-- Where nothing is written to files, only the standard input is used up. -/
lemma drains_of_handled {s : Storage} {held : List Writer × Storage}
    (h : Writer.Handled ([], s) held) : held.1 = [] ∧ Drains s held.2 := by
  induction h with
  | refl => exact ⟨rfl, .refl s⟩
  | tail _ hstep ih =>
      obtain ⟨hwriters, hdrains⟩ := ih
      cases hstep with
      | read writers s' standardInput => exact ⟨hwriters, hdrains.trans ⟨standardInput, rfl⟩⟩
      | write hi =>
          obtain rfl := hwriters
          cases hi

variable {p : Program}

lemma drains_advance {e : Editor} (h : e.writers = []) (k : ℕ) :
    Drains e.environment.storage (advance p k .reading e).2.environment.storage ∧
      ∀ r, Drains e.environment.storage
        (conclude r (advance p k .reading e).2).2.close.storage := by
  have hpasses := (confined_passes.advance p k .reading e).handled
  rw [h] at hpasses
  obtain ⟨hwriters, hdrains⟩ : (advance p k .reading e).2.writers = [] ∧ Drains _ _ :=
    drains_of_handled hpasses
  refine ⟨hdrains, fun r => ?_⟩
  rw [conclude_snd, run_flush_of_nil hwriters, run_emit, close]
  dsimp only
  rw [hwriters]
  exact hdrains

/-- A program that names no file keeps to its input. -/
lemma keepsToInput_of_closed (hp : p.Closed) (o : Options) (names : List Text) (sink : Sink)
    (env : Environment) : KeepsToInput p o names sink env := by
  have hstart (env : Environment) : ∃ e₀,
      start? p o (.ofFiles names o.separator o.separate) sink env = (.ok e₀, env) := by
    rw [start?, hp.outputFiles]
    exact ⟨_, rfl⟩
  obtain ⟨e₀, he₀⟩ := hstart env
  obtain ⟨writers, storage, hopen, hform⟩ := start?_eq_ok (congrArg Prod.fst he₀)
  rw [hp.outputFiles] at hopen
  cases hopen
  have hunread : e₀.writers = [] ∧ e₀.environment = env := by
    rw [hform]
    exact ⟨rfl, rfl⟩
  refine ⟨e₀, he₀, fun k => ?_, fun t ht => ?_⟩
  · have hdrains := drains_advance (p := p) hunread.1 k
    rwa [hunread.2] at hdrains
  · obtain ⟨e₀', he₀'⟩ := hstart (env.among t)
    obtain ⟨writers, storage, hopen, hform'⟩ := start?_eq_ok (congrArg Prod.fst he₀')
    rw [hp.outputFiles] at hopen
    cases hopen
    have helse : Elsewhere t e₀ e₀' := by
      rw [hform, hform']
      refine ⟨⟨_, rfl⟩, ?_, ⟨by simp [Input.ofFiles], ht⟩, rfl, List.forall_mem_nil _⟩
      refine .refl fun st hst r b hanswered => ?_
      obtain ⟨slot, -, rfl⟩ := List.mem_map.1 hst
      cases hanswered
    refine ⟨e₀', he₀', fun k => ?_⟩
    obtain ⟨hstage, hrest⟩ := helse.advance hp k .reading
    exact ⟨hstage, hrest.indistinct, fun r =>
      ⟨(hrest.conclude r).1, (hrest.conclude r).2.indistinct⟩⟩

/-- In a sandbox a script is read as a program that names no file, so that its runs keep to their
input, and without the sandbox it is read as the same program. What is read under the standard is
read without it too, and but for the texts of commands as the same. -/
theorem parse_restricted [Regex.Library] {script : Script} {o : Options} {p : Program}
    (h : Program.parse script o = .ok p) :
    (o.sandbox = true → p.Closed ∧
      (∀ o' names sink env, KeepsToInput p o' names sink env) ∧
      Program.parse script { o with sandbox := false } = .ok p) ∧
    (o.posix = true → ∃ p', Program.parse script { o with posix := false } = .ok p' ∧
      p'.untexted = p.untexted) := by
  refine ⟨fun hsandbox => ?_, fun _ => Program.parse_beyond_standard h⟩
  have hclosed := Program.closed_of_parse h hsandbox
  exact ⟨hclosed, keepsToInput_of_closed hclosed, Program.parse_unsandboxed h⟩

/-- A text with a sign for a tab, which the standard does not know. -/
theorem parse_restricted_tab :
    ∃ p p', Program.parse (.ofText ['a', '\\', '\n', '\\', 't'])
        { Options.standard with posix := true, sandbox := true } = .ok p ∧
      p.Closed ∧ KeepsToInput p .standard [['f']] .unlimited (.start .empty) ∧
      Program.parse (.ofText ['a', '\\', '\n', '\\', 't'])
        { Options.standard with posix := true } = .ok p ∧
      Program.parse (.ofText ['a', '\\', '\n', '\\', 't'])
        { Options.standard with sandbox := true } = .ok p' ∧
      p'.untexted = p.untexted ∧
      p.commands.map (·.action.text?) = [some ['t']] ∧
      p'.commands.map (·.action.text?) = [some ['\t']] := by
  have hparse : Program.parse (.ofText ['a', '\\', '\n', '\\', 't'])
      { Options.standard with posix := true, sandbox := true } = .ok _ := rfl
  obtain ⟨hsandbox, hposix⟩ := parse_restricted hparse
  obtain ⟨hclosed, hkeeps, hsame⟩ := hsandbox rfl
  obtain ⟨p', hp', htexts⟩ := hposix rfl
  refine ⟨_, p', hparse, hclosed, hkeeps _ _ _ _, hsame, hp', htexts, rfl, ?_⟩
  cases hp'
  rfl

end Editor

end StreamEditor
