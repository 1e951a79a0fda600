import StreamEditor.Proofs.Editor.Bounds
import StreamEditor.Proofs.Editor.Capped
import StreamEditor.Proofs.Editor.Confined
import StreamEditor.Proofs.Editor.Outcome
import StreamEditor.Proofs.Input.Served
import StreamEditor.Regex.Builtin

/-!
What is delivered when a run ends.

* `Editor.Passes`: what a run does with files and output; it loses no byte written.
* `Editor.conclude_delivers`: at the end of a run all that was written is delivered, up to the first
  output file that fails; what comes after it is not even tried.
* `Editor.ending?`: the end of a run before its output is delivered, computed.
-/

namespace StreamEditor

open Storage (Drains)

namespace Editor

/-! ### Runs -/

/-- What a run does with the files and with its output: no byte is lost. -/
structure Passes (e e' : Editor) : Prop where
  handled : Writer.Handled (e.writers, e.environment.storage) (e'.writers, e'.environment.storage)
  written : e.output.written <+: e'.output.written

instance : IsTrans Editor Passes where
  trans _ _ _ h h' := ⟨h.handled.trans h'.handled, h.written.trans h'.written⟩

lemma Passes.of_drains {e e' : Editor} (hw : e'.writers = e.writers) (ho : e'.output = e.output)
    (h : Drains e.environment.storage e'.environment.storage) : Passes e e' := by
  obtain ⟨standardInput, hs⟩ := h
  refine ⟨?_, by rw [ho]⟩
  rw [hw, hs]
  exact .single (.read _ _ _)

lemma confined_passes : Confined Passes where
  aside _ henv _ ho hw _ := .of_drains hw ho (by rw [henv]; exact .refl _)
  requeue _ _ := .of_drains rfl rfl (.refl _)
  tell _ := Moves.modify fun _ => by
    split <;> exact .of_drains rfl rfl (.refl _)
  writeErrors _ _ := Moves.modify fun _ => .of_drains rfl rfl (.refl _)
  emit f hf e := by
    rw [run_emit]
    exact ⟨.refl, hf e.output⟩
  writeToFile index text terminated e := by
    cases hw : e.writers[index]? with
    | none =>
        rw [run_writeToFile_of_none hw]
        exact .of_drains rfl rfl (.refl _)
    | some writer =>
        rw [run_writeToFile hw]
        exact ⟨.single (.write hw text terminated), List.prefix_rfl⟩
  readRecord e := .of_drains rfl rfl (e.input.served_readFrom e.environment _).drains
  hasNext e := .of_drains rfl rfl (e.input.served_hasNextFrom e.environment _).drains
  readFile name := Moves.get fun e => by
    have hread := e.environment.storage.drains_read? name
    rcases hr : e.environment.storage.read? name with ⟨fault | contents, storage⟩ <;>
      rw [hr] at hread
    · exact .of_drains rfl rfl hread
    · let e₁ := { e with environment := { e.environment with storage } }
      have hset : Passes e e₁ := .of_drains rfl rfl hread
      refine IsTrans.trans _ _ _ hset ?_
      change Passes e₁ ((emit (·.writeRaw contents)).run e₁).2
      rw [run_emit]
      exact ⟨.refl, Output.extends_writeRaw contents _⟩
  readLineOf name := Moves.modifyGet fun e => by
    dsimp only
    split
    · exact .of_drains rfl rfl (.refl _)
    · exact .of_drains rfl rfl (Reader.drains_read _ _ _)

variable {p : Program} {e₀ e₁ : Editor} {k k' : ℕ} {r : Except Failure ℕ}

/-- At any time of a run that ends it has only to pass on to its end. -/
lemma passes_of_advance (hrun : advance p k .reading e₀ = (.finished r, e₁)) (k' : ℕ) :
    Passes (advance p k' .reading e₀).2 e₁ := by
  rcases Nat.le_total k' k with hle | hle <;> obtain ⟨d, rfl⟩ := Nat.exists_eq_add_of_le hle
  · have hlast := confined_passes.advance p d (advance p k' .reading e₀).1
        (advance p k' .reading e₀).2
    rwa [← advance_add, hrun] at hlast
  · rw [advance_add, hrun, advance_finished]
    exact .of_drains rfl rfl (.refl _)

/-! ### The end -/

/-- Without output files only the output is flushed. -/
lemma run_flush_of_nil {e : Editor} (h : e.writers = []) :
    flush.run e = (emit Output.flush).run e := by
  have hfiles : flushFiles.run e = (.ok none, e) := by
    obtain ⟨options, environment, input, output, writers⟩ := e
    obtain rfl : writers = [] := h
    rfl
  rw [run_flush, run_bind_of_ok hfiles, Option.elim_none]

/-- If no output file fails the output is flushed too. -/
lemma conclude_of_fine (h : (Writer.flushAll e₁.environment.storage e₁.writers).2.2 = none)
    (r : Except Failure ℕ) :
    (conclude r e₁).2 = { (flushFiles.run e₁).2 with output := e₁.output.flush.1 } := by
  have hfiles : flushFiles.run e₁ = (.ok none, (flushFiles.run e₁).2) :=
    Prod.ext (congrArg Except.ok h) rfl
  rw [conclude_snd, run_flush, run_bind_of_ok hfiles, Option.elim_none, run_emit]
  rfl

/-- If one fails it is not. -/
lemma conclude_of_fault (h : (Writer.flushAll e₁.environment.storage e₁.writers).2.2 ≠ none)
    (r : Except Failure ℕ) :
    ∃ failure, conclude r e₁ = (.error failure, (flushFiles.run e₁).2) := by
  obtain ⟨failure, hfailure⟩ := Option.ne_none_iff_exists'.1 h
  have hfiles : flushFiles.run e₁ = (.ok (some failure), (flushFiles.run e₁).2) :=
    Prod.ext (congrArg Except.ok hfailure) rfl
  have hflush : flush.run e₁ = (.error failure, (flushFiles.run e₁).2) := by
    rw [run_flush, run_bind_of_ok hfiles]
    rfl
  rw [conclude, hflush]
  cases r with
  | error failure' => exact ⟨failure', rfl⟩
  | ok _ => exact ⟨failure, rfl⟩

/-- Nothing but the output is other than after the files were flushed. -/
lemma exists_conclude_eq (r : Except Failure ℕ) :
    ∃ output, (conclude r e₁).2 = { (flushFiles.run e₁).2 with output } := by
  by_cases h : (Writer.flushAll e₁.environment.storage e₁.writers).2.2 = none
  · rw [conclude_of_fine h]
    exact ⟨_, rfl⟩
  · obtain ⟨failure, hconclude⟩ := conclude_of_fault h r
    rw [hconclude]
    exact ⟨_, rfl⟩

lemma writers_conclude (r : Except Failure ℕ) : (conclude r e₁).2.writers =
    (Writer.flushAll e₁.environment.storage e₁.writers).1 := by
  obtain ⟨output, h⟩ := @exists_conclude_eq e₁ r
  rw [h]
  rfl

lemma storage_conclude (r : Except Failure ℕ) : (conclude r e₁).2.environment.storage =
    (Writer.flushAll e₁.environment.storage e₁.writers).2.1 := by
  obtain ⟨output, h⟩ := @exists_conclude_eq e₁ r
  rw [h]
  rfl

/-- When a run has ended, output files are flushed in order. One that does not fail, nor any before
it, has received all that was written to it, and so has the output if none of them fails nor the
output itself. A file that fails is reported, and keeps those after it and the output from being
flushed: for them as much waits as before. -/
theorem conclude_delivers {o : Options} {input : Input} {sink : Sink} {env : Environment}
    (hstart : (start? p o input sink env).1 = .ok e₀)
    (hrun : advance p k .reading e₀ = (.finished r, e₁)) :
    (∀ (i : ℕ) (w : Writer), e₁.writers[i]? = some w →
      (∀ v ∈ e₁.writers.take (i + 1), v.output.flush.2 = none) →
      ∃ w', (conclude r e₁).2.writers[i]? = some w' ∧ w'.output.written = [] ∧
        ∀ path, w.path = some path → Writer.Apart e₀.writers →
          (conclude r e₁).2.environment.storage.contents path = w.written e₁.environment.storage ∧
          ∀ k' v, (advance p k' .reading e₀).2.writers[i]? = some v →
            v.written (advance p k' .reading e₀).2.environment.storage <+:
              (conclude r e₁).2.environment.storage.contents path) ∧
    ((∀ w ∈ e₁.writers, w.output.flush.2 = none) → e₁.output.flush.2 = none →
      (conclude r e₁).2.output.sink.delivered = e₁.output.written ∧
      ∀ k', (advance p k' .reading e₀).2.output.written <+:
        (conclude r e₁).2.output.sink.delivered) ∧
    ∀ (i : ℕ) (w : Writer), e₁.writers[i]? = some w → w.output.flush.2 ≠ none →
      (∃ failure, (conclude r e₁).1 = .error failure) ∧ (conclude r e₁).2.output = e₁.output ∧
        ∀ j, i < j → (conclude r e₁).2.writers[j]? = e₁.writers[j]? := by
  obtain ⟨writers, storage, hopen, he₀⟩ := start?_eq_ok hstart
  have hlevel : Writer.Level e₀.writers e₀.environment.storage := by
    rw [he₀]
    exact Writer.level_of_openAll hopen
  refine ⟨fun i w hi hfine => ?_, fun hfine hoff => ?_, fun i w hi hfault => ?_⟩
  · rw [writers_conclude, storage_conclude]
    obtain ⟨w', hw', -, hwritten⟩ := Writer.waiting_flushAll hi hfine e₁.environment.storage
    refine ⟨w', hw', hwritten, fun path hpath hapart => ?_⟩
    have hbefore := fun k' => (confined_passes.advance p k' .reading e₀).handled
    have hat := fun k' => (hbefore k').level hlevel hapart
    have hend := hat k
    have happarts := (hbefore k).apart.2 hapart
    rw [hrun] at hend happarts
    have hcontents := Writer.contents_flushAll hend happarts hi hfine hpath
    refine ⟨hcontents, fun k' v hv => ?_⟩
    have hafter := (passes_of_advance hrun k').handled
    have hsame : v.path = some path := by
      have hpaths := congrArg (·[i]?) hafter.paths
      simpa [hi, hv, hpath] using hpaths.symm
    obtain ⟨w₁, hw₁, -, hprefix⟩ := hafter.written (hat k') ((hbefore k').apart.2 hapart) hv hsame
    obtain rfl : w = w₁ := Option.some.inj (hi.symm.trans hw₁)
    rwa [hcontents]
  · rw [conclude_of_fine (Writer.flushAll_of_fine hfine _)]
    have hdelivered : e₁.output.flush.1.sink.delivered = e₁.output.written := by
      rw [← Output.written_flush, Output.written, Output.waiting_flush hoff, List.append_nil]
    refine ⟨hdelivered, fun k' => ?_⟩
    rw [hdelivered]
    exact (passes_of_advance hrun k').written
  · obtain ⟨hfails, hsame⟩ := Writer.flushAll_of_fault hi hfault e₁.environment.storage
    obtain ⟨failure, hconclude⟩ := conclude_of_fault hfails r
    rw [hconclude]
    exact ⟨⟨failure, rfl⟩, rfl, hsame⟩

/-! ### Runs that are computed -/

/-- How a program ends on some files within so many steps, before its output is delivered, with what
is observed of the editor then and after its output is delivered. -/
def ending? {α : Type} (observe : Editor → Editor → α) (parsed : Except Failure Program)
    (o : Options) (names : List Text) (storage : Storage) (count : ℕ) :
    Option (Except Failure ℕ × α) :=
  match parsed with
  | .error _ => none
  | .ok p =>
      match (start? p o (.ofFiles names o.separator o.separate) .unlimited (.start storage)).1 with
      | .error _ => none
      | .ok e₀ =>
          match advance p count .reading e₀ with
          | (.finished r, e) => some (r, observe e (conclude r e).2)
          | _ => none

lemma advance_of_ending? {α : Type} {observe : Editor → Editor → α}
    {parsed : Except Failure Program} {o : Options} {names : List Text} {storage : Storage}
    {count : ℕ} {r : Except Failure ℕ} {seen : α}
    (h : ending? observe parsed o names storage count = some (r, seen)) :
    ∃ p e₀ e₁, parsed = .ok p ∧
      (start? p o (.ofFiles names o.separator o.separate) .unlimited (.start storage)).1 = .ok e₀ ∧
      advance p count .reading e₀ = (.finished r, e₁) ∧ observe e₁ (conclude r e₁).2 = seen := by
  unfold ending? at h
  split at h
  · cases h
  · rename_i p
    split at h
    · cases h
    · rename_i e₀ he
      split at h
      · rename_i e₁ hrun
        cases h
        exact ⟨p, e₀, e₁, rfl, he, hrun, rfl⟩
      · cases h

/-- A line that is written to a file and printed. -/
theorem conclude_delivers_line :
    ∃ p e₀ e₁,
      Program.parse (.ofText (Text.ofString "w out")) .standard = .ok p ∧
      (start? p .standard (.ofFiles [['f']] 10 false) .unlimited
        (.start ⟨[([['f']], [97, 10])], [], []⟩)).1 = .ok e₀ ∧
      advance p 4 .reading e₀ = (.finished (.ok 0), e₁) ∧
      (conclude (.ok 0) e₁).2.environment.storage.contents [['o', 'u', 't']] = [97, 10] ∧
      (conclude (.ok 0) e₁).2.output.sink.delivered = [97, 10] := by
  have hall : ending?
      (fun e₁ _ => decide ((e₁.writers.map fun w =>
          (w.path, w.written e₁.environment.storage, w.output.flush.2)) =
            [(some [['o', 'u', 't']], [97, 10], none)] ∧
        e₁.output.written = [97, 10] ∧ e₁.output.flush.2 = none))
      (Program.parse (.ofText (Text.ofString "w out")) .standard) .standard [['f']]
      ⟨[([['f']], [97, 10])], [], []⟩ 4 = some (.ok 0, true) := by
    decide +kernel
  obtain ⟨p, e₀, e₁, hp, hstart, hrun, hseen⟩ := advance_of_ending? hall
  obtain ⟨hwriters, hwritten, hoff⟩ := of_decide_eq_true hseen
  obtain ⟨w, hw, hwriter⟩ := List.map_eq_singleton_iff.1 hwriters
  obtain ⟨hpath, hwriter⟩ := Prod.mk.inj hwriter
  obtain ⟨hcontents, hfault⟩ := Prod.mk.inj hwriter
  have hfine : ∀ v ∈ e₁.writers, v.output.flush.2 = none := by
    rw [hw]
    exact fun v hv => by rwa [List.mem_singleton.1 hv]
  have hapart : Writer.Apart e₀.writers := by
    refine (passes_of_advance hrun 0).handled.apart.1 ?_
    rw [hw]
    exact List.pairwise_singleton _ _
  obtain ⟨hfiles, houtput, -⟩ := conclude_delivers hstart hrun
  obtain ⟨w', -, -, hfile⟩ := hfiles 0 w (by rw [hw]; rfl) fun v hv =>
    hfine v (List.mem_of_mem_take hv)
  refine ⟨p, e₀, e₁, hp, hstart, hrun, ?_, ?_⟩
  · rw [(hfile _ hpath hapart).1, hcontents]
  · rw [(houtput hfine hoff).1, hwritten]

/-- A line that is written to a file that takes no bytes, then to one that takes all, and printed:
neither the other file nor the output receives it, though they would not fail. -/
theorem conclude_delivers_nothing :
    ∃ p e₀ e₁,
      Program.parse (.ofText (Text.ofString "w /dev/full\nw out")) .standard = .ok p ∧
      (start? p .standard (.ofFiles [['f']] 10 false) .unlimited
        (.start ⟨[([['f']], [97, 10])], [], []⟩)).1 = .ok e₀ ∧
      advance p 5 .reading e₀ = (.finished (.ok 0), e₁) ∧
      (∃ w ∈ e₁.writers, w.path = some [['o', 'u', 't']] ∧ w.output.flush.2 = none ∧
        w.written e₁.environment.storage = [97, 10]) ∧
      e₁.output.flush.2 = none ∧ e₁.output.written = [97, 10] ∧
      (conclude (.ok 0) e₁).2.environment.storage.contents [['o', 'u', 't']] = [] ∧
      (conclude (.ok 0) e₁).2.output.sink.delivered = [] := by
  have hall : ending?
      (fun e₁ e => decide ((∃ w ∈ e₁.writers, w.path = some [['o', 'u', 't']] ∧
          w.output.flush.2 = none ∧ w.written e₁.environment.storage = [97, 10]) ∧
        e₁.output.flush.2 = none ∧ e₁.output.written = [97, 10] ∧
        e.environment.storage.contents [['o', 'u', 't']] = [] ∧ e.output.sink.delivered = []))
      (Program.parse (.ofText (Text.ofString "w /dev/full\nw out")) .standard) .standard [['f']]
      ⟨[([['f']], [97, 10])], [], []⟩ 5 = some (.ok 0, true) := by
    decide +kernel
  obtain ⟨p, e₀, e₁, hp, hstart, hrun, hseen⟩ := advance_of_ending? hall
  exact ⟨p, e₀, e₁, hp, hstart, hrun, of_decide_eq_true hseen⟩

end Editor

end StreamEditor
