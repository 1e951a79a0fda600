import StreamEditor.Proofs.Editor.Likened
import StreamEditor.Proofs.Editor.Recorded
import StreamEditor.Proofs.Input.Beside
import StreamEditor.Regex.Builtin

/-!
An output file in place of the standard error stream.

* `Program.redirected`: the program that writes to a file what another one writes to the standard
  error stream.
* `Editor.Redirects`: the same editor with one more writer, whose file nothing else reads or writes.
  No command sees a difference (`Editor.Redirects.lockstep`), and the records that are directed at
  targets are the same (`Editor.runWrites_redirected`).
* `Editor.target_of_mem_runWrites`: a target is one that a command names, so that nothing else is
  directed at the file.
* `Editor.errors_written`: what is sent to the standard error stream, and what the file holds
  instead.
-/

namespace StreamEditor

open Storage (Misses)

/-! ### Programs -/

/-- The file with this number in place of the standard error stream. -/
def Target.redirected (n : ℕ) : Target → Target
  | .errors => .file n
  | target => target

/-- The action with this file in place of the standard error stream. -/
def Action.redirected (n : ℕ) : Action → Action
  | .write target => .write (target.redirected n)
  | .writeFirstLine target => .writeFirstLine (target.redirected n)
  | .substitute s => .substitute { s with write := s.write.map (·.redirected n) }
  | action => action

/-- The command with this file in place of the standard error stream. -/
def Command.redirected (n : ℕ) (c : Command) : Command :=
  { c with action := c.action.redirected n }

/-- The program with one more output file, which stands in place of the standard error stream. -/
def Program.redirected (p : Program) (f : OutputFile) : Program :=
  { p with
    commands := p.commands.map (·.redirected p.outputFiles.length)
    outputFiles := p.outputFiles ++ [f] }

/-- A writer to another file brings the same to it on both sides. -/
lemma Writer.beside_act {q : Path} {s s' : Storage} {w : Writer} (h : s.Beside q s')
    (hw : w.path ≠ some q) (doing : String) (f : Output → Output.Attempt) :
    (w.act s doing f).2.1.Beside q (w.act s' doing f).2.1 ∧
      (w.act s doing f).2.1.folders = s.folders := by
  cases hpath : w.path with
  | none =>
      change Storage.Beside q (w.path.elim s _) (w.path.elim s' _) ∧
        Storage.folders (w.path.elim s _) = _
      rw [hpath]
      exact ⟨h, rfl⟩
  | some path =>
      rw [storage_act hpath, storage_act hpath]
      refine ⟨h.overwrite (fun he => hw (hpath.trans (congrArg some he))) _ _, ?_⟩
      exact Storage.folders_overwrite _ _ _ _

namespace Editor

lemma skip_redirected (n : ℕ) (c : Command) (following : ℕ) :
    skip (c.redirected n) following = skip c following := by
  obtain ⟨letter, selection, negated, action, place⟩ := c
  cases action <;> rfl

/-! ### One more writer -/

/-- The file `q` is neither read nor written. There are `n` writers, and as many folders as at the
beginning. -/
structure Leaves (q : Path) (folders : List Path) (n : ℕ) (writers : List Writer) (s : Storage)
    (input : Input) (lineReaders : List (Path × Option Reader)) (queue : List Queued) : Prop where
  count : writers.length = n
  apart : ∀ w ∈ writers, w.path ≠ some q
  input : input.Away q folders
  lineReaders : ∀ entry ∈ lineReaders, ∀ reader, entry.2 = some reader → reader.Away q
  queue : ∀ name, .file name ∈ queue → Misses q folders name
  folders : s.folders = folders

/-- The contents of a file, if it can be read. -/
def readContents (name : Text) : Edit (Option Bytes) :=
  modifyGet fun e =>
    ((e.environment.storage.read? name).1.toOption,
      { e with environment :=
        { e.environment with storage := (e.environment.storage.read? name).2 } })

lemma run_deliver_contents (name : Text) (e : Editor) :
    (deliver (.file name)).run e =
      (readContents name >>= fun contents => contents.elim (pure ()) fun data =>
        emit (·.writeRaw data)).run e := by
  rw [run_deliver_file]
  rfl

/-- The same editor with one more writer, which has the file `q`. -/
structure Redirects (q : Path) (folders : List Path) (n : ℕ) (e e' : Editor) : Prop where
  same : ∃ ranges environment writer,
    e' = { e with ranges, environment, writers := e.writers ++ [writer] } ∧
      writer.path = some q ∧ writer.output.sink.room = none
  ranges : RangesAlike e.recordsRead e'.recordsRead e.ranges e'.ranges
  environment : e.environment.Beside q e'.environment
  leaves : Leaves q folders n e.writers e.environment.storage e.input e.lineReaders e.queue

namespace Redirects

variable {q : Path} {folders : List Path} {n : ℕ} {e e' : Editor}

/-- Both write the same to the output. -/
lemma agrees_emit (f : Output → Output.Attempt) :
    Agrees (Redirects q folders n) (emit f) (emit f) := by
  intro e e' hR
  obtain ⟨⟨ranges, environment, writer, rfl, hpath, hroom⟩, hranges, henv, hleaves⟩ := hR
  rw [AgreesAt, run_emit, run_emit]
  exact ⟨rfl, ⟨ranges, environment, writer, rfl, hpath, hroom⟩, hranges, henv, hleaves⟩

lemma agrees_printPattern : Agrees (Redirects q folders n) printPattern printPattern := by
  refine Agrees.get fun e e' h => ?_
  obtain ⟨ranges, environment, writer, rfl, -⟩ := id h.same
  exact agrees_emit _ _ _ h

lemma agrees_tell (event : Event) :
    Agrees (Redirects q folders n) (tell event) (tell event) := by
  refine Agrees.modify fun e e' hR => ?_
  obtain ⟨⟨ranges, environment, writer, rfl, hpath, hroom⟩, hranges, henv, hleaves⟩ := hR
  dsimp only
  split
  · exact ⟨⟨ranges, _, writer, rfl, hpath, hroom⟩, hranges, ⟨henv.storage, henv.status⟩, hleaves⟩
  · exact ⟨⟨ranges, environment, writer, rfl, hpath, hroom⟩, hranges, henv, hleaves⟩

/-- Something that may wait: the contents of a file, unless it is `q`. -/
lemma agrees_enqueue {item : Queued} (h : ∀ name, item = .file name → Misses q folders name) :
    Agrees (Redirects q folders n) (enqueue item) (enqueue item) := by
  refine Agrees.modify fun e e' hR => ?_
  obtain ⟨⟨ranges, environment, writer, rfl, hpath, hroom⟩, hranges, henv, hleaves⟩ := hR
  refine ⟨⟨ranges, environment, writer, rfl, hpath, hroom⟩, hranges, henv,
    { hleaves with queue := fun name hname => ?_ }⟩
  obtain hold | hnew := List.mem_append.1 hname
  · exact hleaves.queue name hold
  · exact h name (List.mem_singleton.1 hnew).symm

lemma agrees_deliver {item : Queued} (h : ∀ name, item = .file name → Misses q folders name) :
    Agrees (Redirects q folders n) (deliver item) (deliver item) := by
  cases item with
  | text t => exact agrees_emit (·.writeText t)
  | file name =>
      have hread : Agrees (Redirects q folders n) (readContents name) (readContents name) := by
        intro e e' hR
        obtain ⟨⟨ranges, environment, writer, rfl, hpath, hroom⟩, hranges, henv, hleaves⟩ := hR
        have hname := h name rfl
        rw [← hleaves.folders] at hname
        obtain ⟨hcontents, hstorage⟩ := henv.storage.read? hname
        obtain ⟨standardInput, hs⟩ := e.environment.storage.drains_read? name
        have hfolders : (e.environment.storage.read? name).2.folders = folders := by
          rw [hs]
          exact hleaves.folders
        rw [AgreesAt, readContents, run_modifyGet, run_modifyGet]
        exact ⟨congrArg Except.ok hcontents.symm, ⟨ranges, _, writer, rfl, hpath, hroom⟩, hranges,
          ⟨hstorage, henv.status⟩, { hleaves with folders := hfolders }⟩
      have hrest := hread.bind fun contents =>
        show Agrees (Redirects q folders n)
          (contents.elim (pure ()) fun data => emit (·.writeRaw data))
          (contents.elim (pure ()) fun data => emit (·.writeRaw data)) by
        cases contents with
        | none => exact Agrees.pure _
        | some data => exact agrees_emit (·.writeRaw data)
      intro e e' hR
      exact AgreesAt.of_run (run_deliver_contents name e) (run_deliver_contents name e')
        (hrest e e' hR)

/-- The files of the other writers are written on both sides. -/
lemma agrees_writeToFile {i : ℕ} (hi : i < n) (text : Text) (terminated : Bool) :
    Agrees (Redirects q folders n) (writeToFile i text terminated)
      (writeToFile i text terminated) := by
  intro e e' hR
  obtain ⟨⟨ranges, environment, writer, rfl, hpath, hroom⟩, hranges, henv, hleaves⟩ := hR
  have hlt : i < e.writers.length := hi.trans_eq hleaves.count.symm
  have hw : e.writers[i]? = some e.writers[i] := List.getElem?_eq_getElem hlt
  have hw' : (e.writers ++ [writer])[i]? = some e.writers[i] := by
    rw [List.getElem?_append_left hlt, hw]
  obtain ⟨hstorage, hfolders⟩ :=
    Writer.beside_act henv.storage (hleaves.apart _ (List.getElem_mem hlt)) "couldn't write to "
      (·.writeRecord text terminated)
  have hapart : ∀ w ∈ e.writers.set i
      (e.writers[i].writeRecord e.environment.storage text terminated).1, w.path ≠ some q := by
    intro w hmem
    obtain hmem | rfl := List.mem_or_eq_of_mem_set hmem
    · exact hleaves.apart w hmem
    · exact hleaves.apart e.writers[i] (List.getElem_mem hlt)
  rw [AgreesAt, run_writeToFile hw, run_writeToFile hw', List.set_append_left _ _ hlt]
  exact ⟨rfl, ⟨ranges, _, writer, rfl, hpath, hroom⟩, hranges, ⟨hstorage, henv.status⟩,
    { hleaves with
      count := List.length_set.trans hleaves.count
      apart := hapart
      folders := hfolders.trans hleaves.folders }⟩

/-- A record that is sent to the standard error stream goes to the file `q` instead. -/
lemma agrees_writeErrors (text : Text) (terminated : Bool) :
    Agrees (Redirects q folders n) (writeTo .errors text terminated)
      (writeTo (.file n) text terminated) := by
  intro e e' hR
  obtain ⟨⟨ranges, environment, writer, rfl, hpath, hroom⟩, hranges, henv, hleaves⟩ := hR
  obtain rfl := hleaves.count
  have hw' : (e.writers ++ [writer])[e.writers.length]? = some writer := List.getElem?_concat_length
  obtain ⟨sink, waiting, hrun, hroom', -⟩ :=
    Output.writeRecord_of_room hroom text terminated
  have hfine : (writer.writeRecord environment.storage text terminated).2.2 = none := by
    change (writer.output.writeRecord text terminated).2.map _ = none
    rw [hrun]
    rfl
  have hstorage : e.environment.storage.Beside q
      (writer.writeRecord environment.storage text terminated).2.1 := by
    rw [Writer.writeRecord, Writer.storage_act hpath]
    exact henv.storage.overwrite_right _ _
  have hroom₁ : (writer.writeRecord environment.storage text terminated).1.output.sink.room =
      none := by
    change (writer.output.writeRecord text terminated).1.sink.room = none
    rw [hrun]
    exact hroom'
  change AgreesAt _ (writeTo .errors text terminated) (writeToFile _ text terminated) e _
  rw [AgreesAt, run_writeToFile hw', hfine, List.set_append_right _ _ le_rfl, Nat.sub_self]
  exact ⟨rfl, ⟨ranges, _, _, rfl, hpath, hroom₁⟩, hranges, ⟨hstorage, henv.status⟩, hleaves⟩

lemma agrees_release : Agrees (Redirects q folders n) release release := by
  refine Agrees.get fun e e' h => ?_
  obtain ⟨⟨ranges, environment, writer, rfl, hpath, hroom⟩, hranges, henv, hleaves⟩ := h
  refine Agrees.forM (fun item hitem => agrees_deliver fun name hname => ?_) _ _
    ⟨⟨ranges, environment, writer, rfl, hpath, hroom⟩, hranges, henv,
      { hleaves with queue := fun _ hnone => absurd hnone List.not_mem_nil }⟩
  exact hleaves.queue name (hname ▸ hitem)

lemma agrees_readRecord : Agrees (Redirects q folders n) readRecord readRecord := by
  intro e e' hR
  obtain ⟨⟨ranges, environment, writer, rfl, hpath, hroom⟩, hranges, henv, hleaves⟩ := hR
  obtain ⟨hfound, hinput, henv', haway, hfolders⟩ :=
    Input.read_beside hleaves.input henv hleaves.folders
  rw [AgreesAt, run_readRecord, run_readRecord]
  dsimp only at hfound hinput henv' ⊢
  rw [hfound, hinput]
  exact ⟨rfl, ⟨ranges, _, writer, rfl, hpath, hroom⟩, hranges, henv',
    { hleaves with input := haway, folders := hfolders }⟩

lemma agrees_hasNext : Agrees (Redirects q folders n) hasNext hasNext := by
  intro e e' hR
  obtain ⟨⟨ranges, environment, writer, rfl, hpath, hroom⟩, hranges, henv, hleaves⟩ := hR
  obtain ⟨hfound, hinput, henv', haway, hfolders⟩ :=
    Input.hasNext_beside hleaves.input henv hleaves.folders
  rw [AgreesAt, run_hasNext, run_hasNext]
  dsimp only at hfound hinput henv' ⊢
  rw [hfound, hinput]
  exact ⟨rfl, ⟨ranges, _, writer, rfl, hpath, hroom⟩, hranges, henv',
    { hleaves with input := haway, folders := hfolders }⟩

lemma agrees_readLineOf {name : Text} (h : Misses q folders name) :
    Agrees (Redirects q folders n) (readLineOf name) (readLineOf name) := by
  intro e e' hR
  obtain ⟨⟨ranges, environment, writer, rfl, hpath, hroom⟩, hranges, henv, hleaves⟩ := hR
  rw [← hleaves.folders] at h
  obtain ⟨hopen, haway⟩ := Reader.toOption_open? henv.storage h
  -- The file may have been opened before. If not, it is opened now, and is not the other one
  -- either.
  have hreader : ∀ reader, (e.lineReaders.lookup (Path.key name)).getD
      (Reader.open? e.environment.storage name).toOption = some reader → reader.Away q := by
    intro reader hreader
    cases hlookup : e.lineReaders.lookup (Path.key name) with
    | none =>
        rw [hlookup, Option.getD_none] at hreader
        cases hread : Reader.open? e.environment.storage name with
        | error fault =>
            rw [hread] at hreader
            cases hreader
        | ok reader' =>
            rw [hread] at hreader
            cases hreader
            exact haway reader hread
    | some found =>
        rw [hlookup, Option.getD_some] at hreader
        obtain ⟨before, after, hsplit, -⟩ := List.lookup_eq_some_iff.1 hlookup
        refine hleaves.lineReaders (Path.key name, found) ?_ reader hreader
        rw [hsplit]
        exact List.mem_append_right _ List.mem_cons_self
  have hothers : ∀ entry ∈ e.lineReaders.filter (·.1 ≠ Path.key name), ∀ reader,
      entry.2 = some reader → reader.Away q :=
    fun entry hentry => hleaves.lineReaders entry (List.mem_of_mem_filter hentry)
  rw [AgreesAt, readLineOf, run_modifyGet, run_modifyGet]
  dsimp only at hopen ⊢
  rw [hopen]
  cases hfound : (e.lineReaders.lookup (Path.key name)).getD
      (Reader.open? e.environment.storage name).toOption with
  | none =>
      refine ⟨rfl, ⟨ranges, environment, writer, rfl, hpath, hroom⟩, hranges, henv,
        { hleaves with lineReaders := ?_ }⟩
      rw [List.forall_mem_cons]
      exact ⟨fun _ hr => (Option.some_ne_none _ hr.symm).elim, hothers⟩
  | some reader =>
      obtain ⟨hline, hafter, hstorage, haway'⟩ :=
        Reader.read_beside (hreader reader hfound) henv.storage e.options.separator
      obtain ⟨standardInput, hs⟩ := reader.drains_read e.options.separator e.environment.storage
      dsimp only at hline hafter hstorage ⊢
      rw [hline, hafter]
      refine ⟨rfl, ⟨ranges, _, writer, rfl, hpath, hroom⟩, hranges, ⟨hstorage, henv.status⟩,
        { hleaves with lineReaders := ?_, folders := ?_ }⟩
      · rw [List.forall_mem_cons]
        exact ⟨fun r hr => by cases hr; exact haway', hothers⟩
      · dsimp only
        rw [hs]
        exact hleaves.folders

lemma agrees_load (record : Record) (pattern : Text) :
    Agrees (Redirects q folders n) (load record pattern) (load record pattern) := by
  refine Agrees.modify fun e e' h => ?_
  obtain ⟨⟨ranges, environment, writer, rfl, hpath, hroom⟩, hranges, henv, hleaves⟩ := h
  exact ⟨⟨ranges, environment, writer, rfl, hpath, hroom⟩, hranges.next, henv, hleaves⟩

lemma agrees_resolve (c : Command) (regex : Option Regex) :
    Agrees (Redirects q folders n) (resolve c regex) (resolve c regex) := by
  refine Agrees.get fun e e' h => ?_
  obtain ⟨ranges, environment, writer, rfl, hpath, hroom⟩ := id h.same
  dsimp only
  cases regex.or e.lastRegex with
  | none => exact Agrees.throw _ _ _ h
  | some regex =>
      exact ⟨rfl, ⟨ranges, environment, writer, rfl, hpath, hroom⟩, h.ranges, h.environment,
        h.leaves⟩

/-- No command sees a difference. -/
lemma lockstep : ReadingLockstep (Redirects q folders n) where
  pattern h := by obtain ⟨ranges, environment, writer, rfl, -⟩ := h.same; rfl
  substituted h := by obtain ⟨ranges, environment, writer, rfl, -⟩ := h.same; rfl
  lineNumber h := by obtain ⟨ranges, environment, writer, rfl, -⟩ := h.same; rfl
  quiet h := by obtain ⟨ranges, environment, writer, rfl, -⟩ := h.same; rfl
  lineWrap h := by obtain ⟨ranges, environment, writer, rfl, -⟩ := h.same; rfl
  recordName h := by obtain ⟨ranges, environment, writer, rfl, -⟩ := h.same; rfl
  terminated h := by obtain ⟨ranges, environment, writer, rfl, -⟩ := h.same; rfl
  hold h := by obtain ⟨ranges, environment, writer, rfl, -⟩ := h.same; rfl
  separate h := by obtain ⟨ranges, environment, writer, rfl, -⟩ := h.same; rfl
  ranges h := h.ranges
  setPattern ht h := by
    obtain ⟨⟨ranges, environment, writer, rfl, hpath, hroom⟩, hranges, henv, hleaves⟩ := h
    exact ⟨⟨ranges, environment, writer, by rw [ht], hpath, hroom⟩, hranges, henv, hleaves⟩
  setSubstituted substituted h := by
    obtain ⟨⟨ranges, environment, writer, rfl, hpath, hroom⟩, hranges, henv, hleaves⟩ := h
    exact ⟨⟨ranges, environment, writer, rfl, hpath, hroom⟩, hranges, henv, hleaves⟩
  setRanges hr h := by
    obtain ⟨⟨ranges, environment, writer, rfl, hpath, hroom⟩, -, henv, hleaves⟩ := h
    exact ⟨⟨_, environment, writer, rfl, hpath, hroom⟩, hr, henv, hleaves⟩
  setHold ht h := by
    obtain ⟨⟨ranges, environment, writer, rfl, hpath, hroom⟩, hranges, henv, hleaves⟩ := h
    exact ⟨⟨ranges, environment, writer, by rw [ht], hpath, hroom⟩, hranges, henv, hleaves⟩
  tell := agrees_tell
  printPattern := agrees_printPattern
  printFirst _ := agrees_emit _
  printText _ := agrees_emit _
  enqueueText _ := agrees_enqueue nofun
  release := agrees_release
  hasNext := agrees_hasNext
  readRecord := agrees_readRecord
  load := agrees_load
  resolve := agrees_resolve

end Redirects

/-! ### Commands -/

/-- The command writes to none but the first `n` files, and does not read the file `q`. -/
structure Spares (q : Path) (folders : List Path) (n : ℕ) (c : Command) : Prop where
  targets : ∀ i, c.action.target? = some (.file i) → i < n
  reads : ∀ name, c.action = .appendFile name ∨ c.action = .appendFileLine name →
    Misses q folders name

section Commands

variable {q : Path} {folders : List Path} {n : ℕ} {c : Command}

lemma agrees_redirected {target : Target} (h : ∀ i, target = .file i → i < n) (text : Text)
    (terminated : Bool) : Agrees (Redirects q folders n) (writeTo target text terminated)
      (writeTo (target.redirected n) text terminated) := by
  cases target with
  | output => exact Redirects.agrees_emit (·.writeRecord text terminated)
  | errors => exact Redirects.agrees_writeErrors text terminated
  | file i => exact Redirects.agrees_writeToFile (h i rfl) text terminated

lemma agrees_writeResult {s : Substitution} (h : ∀ i, s.write = some (.file i) → i < n)
    (text : Text) (terminated : Bool) : Agrees (Redirects q folders n)
      (writeResult s text terminated)
      (writeResult { s with write := s.write.map (·.redirected n) } text terminated) := by
  rw [writeResult, writeResult]
  cases hs : s.write with
  | none => exact Agrees.pure _
  | some target => exact agrees_redirected (fun i hi => h i (hs.trans (congrArg some hi))) _ _

/-- A command does the same with the other file, but for that file. -/
lemma likens_redirected (h : Spares q folders n c) (following : ℕ) :
    Likens (Redirects q folders n) (perform c following) (perform (c.redirected n) following) := by
  have hlockstep := @Redirects.lockstep q folders n
  obtain ⟨letter, selection, negated, action, place⟩ := c
  obtain ⟨htargets, hreads⟩ := h
  cases action with
  | write target | writeFirstLine target =>
      refine Agrees.likens (Agrees.get fun e e' hR => ?_)
      obtain ⟨ranges, environment, writer, rfl, -⟩ := id hR.same
      have hwrite := fun text terminated => @agrees_redirected q folders n target
        (fun i hi => htargets i (congrArg some hi)) text terminated
      exact (hwrite _ _).bind (fun _ => Agrees.pure _) _ _ hR
  | substitute s =>
      refine fun e e' hR => LikensAt.bind (f := fun _ => pure _) ?_
        (fun _ => (Agrees.pure _).likens)
      have hsame := hlockstep.agrees_substitute
        (c := ⟨letter, selection, negated, .substitute s, place⟩)
        (s.write.map (·.redirected n)) (hlockstep.resolve _ _) fun e e' hR text => by
          rw [hlockstep.terminated hR]
          exact agrees_writeResult htargets text e.terminated
      exact (hsame.trans_likens (likens_substitute _)) e e' hR
  | _ =>
      refine (hlockstep.agrees_perform _ following (fun target ht text terminated => ?_)
        (fun name hname => Redirects.agrees_enqueue fun name' hname' => ?_)
        fun name hname => Redirects.agrees_readLineOf (hreads name (.inr hname))).likens
      · cases ht
      · cases hname'
        exact hreads name (.inl hname)

/-! ### Records -/

/-- The record with this file in place of the standard error stream. -/
def Directed.redirected (n : ℕ) (d : Directed) : Directed :=
  { d with target := d.target.redirected n }

/-- The records that come after changes that have the same effect. -/
lemma sequel_redirected {α : Type} {R : Editor → Editor → Prop} {m m' : Edit α}
    {next next' : α → Editor → List Directed} {e e' : Editor} (h : LikensAt R m m' e e')
    (hnext : ∀ a e₁ e₁', R e₁ e₁' → next' a e₁' = (next a e₁).map (·.redirected n)) :
    sequel m' next' e' = (sequel m next e).map (·.redirected n) := by
  obtain ⟨hresult, hR⟩ := h
  rw [sequel, sequel]
  rcases hm : m.run e with ⟨failure | a, e₁⟩ <;>
    rcases hm' : m'.run e' with ⟨failure' | a', e₁'⟩ <;>
    rw [hm, hm'] at hresult hR
  · rfl
  · cases hresult
  · cases hresult
  · cases hresult
    exact hnext a e₁ e₁' hR

lemma agrees_showResult (s : Substitution) (result : Text) (count : ℕ) :
    Agrees (Redirects q folders n) (showResult s result count) (showResult s result count) := by
  have hlockstep := @Redirects.lockstep q folders n
  refine (hlockstep.tell _).bind fun _ => Agrees.bind (Agrees.modify fun e e' hR => ?_) fun _ => ?_
  · exact hlockstep.setSubstituted true (hlockstep.setPattern (Eq.refl result) hR)
  · exact Agrees.ite hlockstep.printPattern (Agrees.pure _)

variable {e e' : Editor}

lemma substituteWrites_redirected {s : Substitution} (regex : Regex)
    (hR : Redirects q folders n e e') (c' : Command) :
    substituteWrites c' { s with write := s.write.map (·.redirected n) } regex e' =
      (substituteWrites c s regex e).map (·.redirected n) := by
  have hlockstep := @Redirects.lockstep q folders n
  rw [substituteWrites, substituteWrites, hlockstep.pattern hR, hlockstep.terminated hR]
  refine sequel_redirected ((Lockstep.agrees_searched _).trans_likens (likens_searched _) e e' hR)
    fun found e₁ e₁' hR₁ => ?_
  by_cases hcount : found.2 = 0
  · rw [if_pos hcount, if_pos hcount]
    rfl
  · rw [if_neg hcount, if_neg hcount]
    refine sequel_redirected (agrees_showResult s found.1 found.2 e₁ e₁' hR₁).likens
      fun _ _ _ _ => ?_
    cases s.write <;> rfl

lemma actionWrites_redirected (hR : Redirects q folders n e e') :
    actionWrites (c.redirected n) e' (c.redirected n).action =
      (actionWrites c e c.action).map (·.redirected n) := by
  have hlockstep := @Redirects.lockstep q folders n
  obtain ⟨letter, selection, negated, action, place⟩ := c
  cases action with
  | write target =>
      change [Directed.mk _ _ _] = [Directed.redirected n _]
      rw [hlockstep.pattern hR, hlockstep.terminated hR]
      rfl
  | writeFirstLine target =>
      change [Directed.mk _ _ _] = [Directed.redirected n _]
      rw [hlockstep.pattern hR]
      rfl
  | substitute s =>
      refine sequel_redirected ((hlockstep.resolve _ s.regex).trans_likens (likens_resolve s.regex)
        e e' hR) fun regex e₁ e₁' hR₁ => ?_
      by_cases hgroups : regex.groupCount ≤ s.template.maxGroup
      · rw [if_pos hgroups, if_pos hgroups]
        rfl
      · rw [if_neg hgroups, if_neg hgroups]
        exact substituteWrites_redirected regex hR₁ _
  | _ => rfl

end Commands

/-! ### Runs -/

section Runs

variable {q : Path} {folders : List Path} {p : Program} {f : OutputFile} {e e' : Editor}

/-- What was changed about each command. -/
lemma commands_redirected (h : ∀ c ∈ p.commands, Spares q folders p.outputFiles.length c) :
    List.Forall₂ (fun c c' => c' = c.redirected p.outputFiles.length ∧
      Spares q folders p.outputFiles.length c) p.commands (p.redirected f).commands := by
  rw [Program.redirected, List.forall₂_map_right_iff, List.forall₂_same]
  exact fun c hc => ⟨rfl, h c hc⟩

lemma likens_step_redirected (h : ∀ c ∈ p.commands, Spares q folders p.outputFiles.length c)
    (stage : Stage) : Likens (Redirects q folders p.outputFiles.length) (step p stage)
      (step (p.redirected f) stage) := by
  refine Redirects.lockstep.likens_step (commands_redirected h) ?_ ?_ ?_ stage
  · rintro c _ ⟨rfl, -⟩
    exact ⟨rfl, rfl⟩
  · rintro c _ ⟨rfl, -⟩
    exact skip_redirected _ c
  · rintro c _ ⟨rfl, hc⟩
    exact likens_redirected hc

lemma stepWrites_redirected (stage : Stage) (hR : Redirects q folders p.outputFiles.length e e') :
    stepWrites (p.redirected f) stage e' =
      (stepWrites p stage e).map (·.redirected p.outputFiles.length) := by
  cases stage with
  | running index =>
      cases hc : p.commands[index]? with
      | none =>
          have hc' : (p.redirected f).commands[index]? = none := by
            rw [Program.redirected, List.getElem?_map, hc, Option.map_none]
          rw [stepWrites, stepWrites, hc, hc']
          rfl
      | some c =>
          have hc' : (p.redirected f).commands[index]? =
              some (c.redirected p.outputFiles.length) := by
            rw [Program.redirected, List.getElem?_map, hc, Option.map_some]
          rw [stepWrites, stepWrites, hc, hc']
          refine sequel_redirected ((Redirects.lockstep.agrees_applies c).trans_likens
            (likens_applies rfl rfl) e e' hR) fun selected e₁ e₁' hR₁ => ?_
          cases selected with
          | false => rfl
          | true => exact actionWrites_redirected hR₁
  | reading | finished => rfl

/-- The same records are directed at targets, but for that file. -/
lemma runWrites_redirected (h : ∀ c ∈ p.commands, Spares q folders p.outputFiles.length c) (k : ℕ)
    (stage : Stage) (hR : Redirects q folders p.outputFiles.length e e') :
    runWrites (p.redirected f) k stage e' =
      (runWrites p k stage e).map (·.redirected p.outputFiles.length) := by
  induction k generalizing stage e e' with
  | zero => rfl
  | succ k ih =>
      rw [runWrites, runWrites, List.map_append, stepWrites_redirected stage hR]
      refine congrArg _ (sequel_redirected (likens_step_redirected h stage e e' hR) ?_)
      exact fun stage₁ _ _ hR₁ => ih stage₁ hR₁

/-- What is directed at a target is directed there by a command that names it. -/
lemma target_of_mem_sequel {α : Type} {m : Edit α} {next : α → Editor → List Directed}
    {d : Directed}
    {P : Target → Prop} (h : d ∈ sequel m next e) (hnext : ∀ a e₁, d ∈ next a e₁ → P d.target) :
    P d.target := by
  rw [sequel] at h
  split at h
  · exact hnext _ _ h
  · exact absurd h List.not_mem_nil

lemma target_of_mem_actionWrites {c : Command} {action : Action} {d : Directed}
    (h : d ∈ actionWrites c e action) : action.target? = some d.target := by
  cases action with
  | write | writeFirstLine => rw [List.mem_singleton.1 h]; rfl
  | substitute s =>
      refine @target_of_mem_sequel e _ _ _ _ (s.write = some ·) h fun regex e₁ h₁ => ?_
      split at h₁
      · exact absurd h₁ List.not_mem_nil
      refine @target_of_mem_sequel e₁ _ _ _ _ (s.write = some ·) h₁ fun found e₂ h₂ => ?_
      split at h₂
      · exact absurd h₂ List.not_mem_nil
      refine @target_of_mem_sequel e₂ _ _ _ _ (s.write = some ·) h₂ fun _ _ h₃ => ?_
      cases hs : s.write with
      | none =>
          rw [hs] at h₃
          exact absurd h₃ List.not_mem_nil
      | some target =>
          rw [hs] at h₃
          rw [List.mem_singleton.1 h₃]
  | _ => exact absurd h List.not_mem_nil

lemma target_of_mem_runWrites {k : ℕ} {stage : Stage} {d : Directed}
    (h : d ∈ runWrites p k stage e) : ∃ c ∈ p.commands, c.action.target? = some d.target := by
  induction k generalizing stage e with
  | zero => exact absurd h List.not_mem_nil
  | succ k ih =>
      rw [runWrites] at h
      obtain h | h := List.mem_append.1 h
      · cases stage with
        | running index =>
            rw [stepWrites] at h
            split at h
            · exact absurd h List.not_mem_nil
            rename_i c hc
            refine ⟨c, List.mem_of_getElem? hc, ?_⟩
            refine @target_of_mem_sequel e _ _ _ _ (c.action.target? = some ·) h
              fun selected e₁ h₁ => ?_
            cases selected with
            | false => exact absurd h₁ List.not_mem_nil
            | true => exact target_of_mem_actionWrites h₁
        | reading | finished _ => exact absurd h List.not_mem_nil
      · exact @target_of_mem_sequel e _ _ _ _ (fun target => ∃ c ∈ p.commands,
          c.action.target? = some target) h fun stage₁ e₁ h₁ => ih h₁

/-- The file receives what was directed at the standard error stream, if nothing else was directed
at it. -/
lemma writesAt_redirected {n : ℕ} {ds : List Directed} (h : ∀ d ∈ ds, d.target ≠ .file n) :
    writesAt (.file n) (ds.map (·.redirected n)) = writesAt .errors ds := by
  induction ds with
  | nil => rfl
  | cons d ds ih =>
      rw [List.forall_mem_cons] at h
      have hrest := ih h.2
      rw [List.map_cons, ← List.singleton_append, ← List.singleton_append (l := ds),
        writesAt_append, writesAt_append, hrest, writesAt_singleton, writesAt_singleton]
      refine congrArg (· ++ _) ?_
      obtain ⟨target, text, terminated⟩ := d
      cases target with
      | output => rfl
      | errors => simp [Directed.redirected, Target.redirected, Directed.write]
      | file i =>
          have hi : i ≠ n := fun hi => h.1 (congrArg _ hi)
          simp [Directed.redirected, Target.redirected, hi]

end Runs

end Editor

/-! ### The beginning -/

namespace Writer

/-- One more file that is opened after the others. -/
lemma openAll_concat {separator : UInt8} {s s' s'' : Storage} {files : List OutputFile}
    {f : OutputFile} {writers : List Writer} {node : Node}
    (h : openAll separator s files = (.ok writers, s')) (hf : s'.create? f.name = (.ok node, s'')) :
    openAll separator s (files ++ [f]) = (.ok (writers ++ [ofNode f separator node]), s'') := by
  induction files generalizing s writers with
  | nil =>
      cases h
      rw [List.nil_append, openAll, hf]
      rfl
  | cons g files ih =>
      obtain ⟨node', s₁, rest, hcreate, hrest, rfl⟩ := openAll_cons_eq_ok h
      rw [List.cons_append, openAll, hcreate]
      dsimp only
      rw [ih hrest]
      rfl

end Writer

/-- A file that is created makes no difference to the others. -/
lemma Storage.beside_create? {s s' : Storage} {name : Text} {q : Path} {data : Bytes}
    (h : s.create? name = (.ok (.file q data), s')) : s.Beside q s' := by
  obtain ⟨hdevice, -⟩ | ⟨way, hway, rfl⟩ := create?_eq_ok h
  · exact absurd rfl (hdevice q data)
  · cases hway
    exact Beside.set_right ⟨rfl, rfl, fun _ _ => rfl⟩ _

namespace Editor

open Output (Write)
open Writer (Brings)

/-- What is sent to the standard error stream in a number of steps. -/
def errorWrites (p : Program) (k : ℕ) (e : Editor) : List Write :=
  writesAt .errors (runWrites p k .reading e)

/-- The program with a file in place of the standard error stream begins with one more writer, to a
file that is empty. -/
lemma start?_redirected {p : Program} {o : Options} {input : Input} {sink : Sink}
    {env : Environment} {e₀ : Editor} {f : OutputFile} {q : Path} {s' : Storage}
    (hstart : (start? p o input sink env).1 = .ok e₀)
    (hcreate : e₀.environment.storage.create? f.name = (.ok (.file q []), s'))
    (hapart : ∀ w ∈ e₀.writers, w.path ≠ some q)
    (hinput : input.Away q e₀.environment.storage.folders) :
    ∃ e₀', (start? (p.redirected f) o input sink env).1 = .ok e₀' ∧
      Redirects q e₀.environment.storage.folders p.outputFiles.length e₀ e₀' ∧
      Brings p.outputFiles.length q o.separator [] e₀'.writers e₀'.environment.storage := by
  obtain ⟨writers, storage, hopen, rfl⟩ := start?_eq_ok hstart
  have hopen' : Writer.openAll o.separator env.storage (p.redirected f).outputFiles = _ :=
    Writer.openAll_concat hopen hcreate
  have hslots : openSlots (p.redirected f) = openSlots p := by
    rw [openSlots, openSlots, Program.redirected, List.filterMap_map]
    rfl
  have hcount : writers.length = p.outputFiles.length := Writer.length_of_openAll hopen
  refine ⟨_, ?_, ⟨⟨_, { env with storage := s' }, .ofNode f o.separator (.file q []), rfl,
    rfl, rfl⟩, .refl fun st hst r b hanswered => ?_, ⟨Storage.beside_create? hcreate, rfl⟩, hcount,
    hapart, hinput, ?_, ?_, rfl⟩, ?_⟩
  · rw [start?, hopen', hslots]
    rfl
  · obtain ⟨slot, -, rfl⟩ := List.mem_map.1 hst
    cases hanswered
  · exact fun _ hnone => absurd hnone List.not_mem_nil
  · exact fun _ hnone => absurd hnone List.not_mem_nil
  · refine Writer.brings_of_openAll (w := .ofNode f o.separator (.file q [])) hopen' ?_ rfl
      fun j v hj hv => ?_
    · rw [← hcount]
      exact List.getElem?_concat_length
    · -- The new writer has the last number, and no other one has its path.
      rw [← hcount]
      by_contra hne
      change (writers ++ [_])[j]? = some v at hj
      have hlength := (List.getElem?_eq_some_iff.1 hj).1
      rw [List.length_append, List.length_singleton] at hlength
      have hlt : j < writers.length := by omega
      rw [List.getElem?_append_left hlt] at hj
      exact hapart v (List.mem_of_getElem? hj) hv

/-- A file that nothing else reads or writes takes the place of the standard error stream: the
program does the same, with the same result and the same output. What was sent to the standard error
stream are the bytes of the records. What the file holds are the same records, but past the
separator where the one before lacks it. It is the same just if no record that lacks its separator
is followed by another one. -/
theorem errors_written [Regex.Library] {script : Script} {p : Program} {o : Options} {input : Input}
    {sink : Sink} {env : Environment} {e₀ e₁ : Editor} {f : OutputFile} {q : Path} {s' : Storage}
    {k : ℕ} {r : Except Failure ℕ} (hp : Program.parse script o = .ok p)
    (hstart : (start? p o input sink env).1 = .ok e₀)
    (hcreate : e₀.environment.storage.create? f.name = (.ok (.file q []), s'))
    (hapart : ∀ w ∈ e₀.writers, w.path ≠ some q)
    (hinput : input.Away q e₀.environment.storage.folders)
    (hreads : ∀ c ∈ p.commands, ∀ name, c.action = .appendFile name ∨
      c.action = .appendFileLine name →
      Misses q e₀.environment.storage.folders name)
    (hrun : advance p k .reading e₀ = (.finished r, e₁)) :
    ∃ e₀' e₁' r', (start? (p.redirected f) o input sink env).1 = .ok e₀' ∧
      advance (p.redirected f) k .reading e₀' = (.finished r', e₁') ∧
      r'.mapError Failure.anonymous = r.mapError Failure.anonymous ∧ e₁'.output = e₁.output ∧
      e₀.environment.Utters ((errorWrites p k e₀).map (·.bytes o.separator)) e₁.environment ∧
      (conclude r' e₁').2.close.storage.get? q =
        some (Write.joined o.separator none (errorWrites p k e₀)) ∧
      (Write.joined o.separator none (errorWrites p k e₀) =
          ((errorWrites p k e₀).map (·.bytes o.separator)).flatten ↔
        ∀ w ∈ (errorWrites p k e₀).dropLast, w.lacksSeparator = false) := by
  have hwell := Program.wellFormed_of_parse hp
  obtain ⟨e₀', hstart', hbegin, hb⟩ := start?_redirected hstart hcreate hapart hinput
  have hspares : ∀ c ∈ p.commands,
      Spares q e₀.environment.storage.folders p.outputFiles.length c :=
    fun c hc => ⟨hwell.targets c hc, hreads c hc⟩
  obtain ⟨hstage, hend⟩ := @likens_advance _ p (p.redirected f) k .reading _ _
    (fun _ _ e₁' => likens_step_redirected hspares _ _ e₁') hbegin
  have hdeals := deals_advance p k .reading e₀
  rw [hrun] at hstage hend hdeals
  obtain ⟨r', hstage', hr⟩ := eq_finished_of_anonymous hstage
  refine ⟨e₀', _, r', hstart', Prod.ext hstage' rfl, hr, ?_, ?_, ?_, ?_⟩
  · obtain ⟨_, _, _, hsame, -⟩ := hend.same
    exact (congrArg Editor.output hsame).trans rfl
  · have hseparator : e₀.options.separator = o.separator := by
      obtain ⟨_, _, -, he₀⟩ := start?_eq_ok hstart
      rw [he₀]
      rfl
    rw [← hseparator]
    exact hdeals.utters
  · have hothers : ∀ d ∈ runWrites p k .reading e₀, d.target ≠ .file p.outputFiles.length := by
      intro d hd hfile
      obtain ⟨c, hc, htarget⟩ := target_of_mem_runWrites hd
      exact absurd (hwell.targets c hc _ (htarget.trans (congrArg some hfile))) (lt_irrefl _)
    have hb' := (deals_advance (p.redirected f) k .reading e₀').brings hb
    rw [runWrites_redirected hspares k .reading hbegin, writesAt_redirected hothers,
      List.nil_append] at hb'
    rw [close, writers_conclude, storage_conclude]
    exact hb'.get?_closeAll
  · have hjoined := Write.joined_eq_flatten_iff o.separator none (errorWrites p k e₀)
    rwa [Option.toList_none, List.nil_append] at hjoined

/-- Lines of which only the last one that is written lacks its newline: the file holds what was sent
to the standard error stream. -/
theorem errors_written_lines :
    ∃ p e₀ e₁ s' e₀' e₁' r',
      Program.parse (.ofText (Text.ofString "W /dev/stderr\nw /dev/stderr")) .standard = .ok p ∧
      (start? p .standard (.ofFiles [['f']] 10 false) .unlimited
        (.start ⟨[([['f']], [97, 10, 98])], [], []⟩)).1 = .ok e₀ ∧
      e₀.environment.storage.create? ['g'] = (.ok (.file [['g']] []), s') ∧
      advance p 9 .reading e₀ = (.finished (.ok 0), e₁) ∧
      (start? (p.redirected ⟨['g'], default⟩) .standard (.ofFiles [['f']] 10 false) .unlimited
        (.start ⟨[([['f']], [97, 10, 98])], [], []⟩)).1 = .ok e₀' ∧
      advance (p.redirected ⟨['g'], default⟩) 9 .reading e₀' = (.finished r', e₁') ∧
      e₁.environment.said.reverse.flatten = [97, 10, 97, 10, 98, 10, 98] ∧
      (conclude r' e₁').2.close.storage.get? [['g']] = some [97, 10, 97, 10, 98, 10, 98] := by
  have hall : ending? (fun e₁ _ => e₁.environment.said.reverse.flatten)
      (Program.parse (.ofText (Text.ofString "W /dev/stderr\nw /dev/stderr")) .standard) .standard
      [['f']] ⟨[([['f']], [97, 10, 98])], [], []⟩ 9 =
      some (.ok 0, [97, 10, 97, 10, 98, 10, 98]) := by
    decide +kernel
  have hwrites : started? (fun p e₀ => errorWrites p 9 e₀)
      (Program.parse (.ofText (Text.ofString "W /dev/stderr\nw /dev/stderr")) .standard) .standard
      [['f']] ⟨[([['f']], [97, 10, 98])], [], []⟩ =
      some [.record ['a'] true, .record ['a'] true, .record ['b'] true, .record ['b'] false] := by
    decide +kernel
  obtain ⟨p, hp, hfiles, hreads⟩ : ∃ p,
      Program.parse (.ofText (Text.ofString "W /dev/stderr\nw /dev/stderr")) .standard = .ok p ∧
      p.outputFiles = [] ∧ ∀ c ∈ p.commands, ∀ name,
        ¬(c.action = .appendFile name ∨ c.action = .appendFileLine name) :=
    ⟨⟨[⟨'W', .all, false, .writeFirstLine .errors, _⟩, ⟨'w', .all, false, .write .errors, _⟩],
      [], [], 0, false⟩, by rfl, rfl, by simp⟩
  obtain ⟨p₁, e₀, e₁, hp₁, hstart, hrun, hsaid⟩ := advance_of_ending? hall
  obtain ⟨p₂, e₂, hp₂, hstart₂, herrors⟩ := start_of_started? hwrites
  obtain rfl : p = p₁ := Except.ok.inj (hp.symm.trans hp₁)
  obtain rfl : p = p₂ := Except.ok.inj (hp.symm.trans hp₂)
  obtain rfl : e₀ = e₂ := Except.ok.inj (hstart.symm.trans hstart₂)
  obtain ⟨hstorage, hwriters⟩ : e₀.environment.storage = ⟨[([['f']], [97, 10, 98])], [], []⟩ ∧
      e₀.writers = [] := by
    obtain ⟨writers, storage, hopen, rfl⟩ := start?_eq_ok hstart
    rw [hfiles] at hopen
    cases hopen
    exact ⟨rfl, rfl⟩
  have hcreate : e₀.environment.storage.create? ['g'] =
      (.ok (.file [['g']] []), ⟨[([['f']], [97, 10, 98]), ([['g']], [])], [], []⟩) := by
    rw [hstorage]
    rfl
  have hinput : (Input.ofFiles [['f']] 10 false).Away [['g']] e₀.environment.storage.folders := by
    rw [hstorage]
    refine ⟨nofun, fun name hname => ?_⟩
    obtain rfl := List.mem_singleton.1 hname
    exact fun b => by decide +revert
  have hapart : ∀ w ∈ e₀.writers, w.path ≠ some [['g']] := by
    rw [hwriters]
    exact fun _ hw => absurd hw List.not_mem_nil
  obtain ⟨e₀', e₁', r', hstart', hrun', -, -, -, hfile, -⟩ := errors_written
    (f := ⟨['g'], default⟩) hp hstart hcreate hapart hinput
    (fun c hc name h => absurd h (hreads c hc name)) hrun
  rw [herrors] at hfile
  exact ⟨p, e₀, e₁, _, e₀', e₁', r', hp, hstart, hcreate, hrun, hstart', hrun', hsaid, hfile⟩

/-- The last line of a file lacks its newline, and another file follows. The file of a command that
names one has the newline, the standard error stream does not. -/
theorem errors_written_unended :
    ∃ p p' e₀ e₁ e₀' e₁',
      Program.parse (.ofText (Text.ofString "w /dev/stderr"))
        { Options.standard with quiet := true } = .ok p ∧
      Program.parse (.ofText (Text.ofString "w out")) { Options.standard with quiet := true } =
        .ok p' ∧
      (start? p { Options.standard with quiet := true } (.ofFiles [['f'], ['g']] 10 false)
        .unlimited (.start ⟨[([['f']], [97]), ([['g']], [98, 10])], [], []⟩)).1 = .ok e₀ ∧
      (start? p' { Options.standard with quiet := true } (.ofFiles [['f'], ['g']] 10 false)
        .unlimited (.start ⟨[([['f']], [97]), ([['g']], [98, 10])], [], []⟩)).1 = .ok e₀' ∧
      advance p 9 .reading e₀ = (.finished (.ok 0), e₁) ∧
      advance p' 9 .reading e₀' = (.finished (.ok 0), e₁') ∧
      e₁.environment.said.reverse.flatten = [97, 98, 10] ∧
      (conclude (.ok 0) e₁').2.close.storage.get? [['o', 'u', 't']] = some [97, 10, 98, 10] := by
  have hall : ending? (fun e₁ _ => e₁.environment.said.reverse.flatten)
      (Program.parse (.ofText (Text.ofString "w /dev/stderr"))
        { Options.standard with quiet := true }) { Options.standard with quiet := true }
      [['f'], ['g']] ⟨[([['f']], [97]), ([['g']], [98, 10])], [], []⟩ 9 =
      some (.ok 0, [97, 98, 10]) := by
    decide +kernel
  have hall' : ending? (fun _ e => e.close.storage.get? [['o', 'u', 't']])
      (Program.parse (.ofText (Text.ofString "w out")) { Options.standard with quiet := true })
      { Options.standard with quiet := true }
      [['f'], ['g']] ⟨[([['f']], [97]), ([['g']], [98, 10])], [], []⟩ 9 =
      some (.ok 0, some [97, 10, 98, 10]) := by
    decide +kernel
  obtain ⟨p, e₀, e₁, hp, hstart, hrun, hsaid⟩ := advance_of_ending? hall
  obtain ⟨p', e₀', e₁', hp', hstart', hrun', hfile⟩ := advance_of_ending? hall'
  exact ⟨p, p', e₀, e₁, e₀', e₁', hp, hp', hstart, hstart', hrun, hrun', hsaid, hfile⟩

end Editor

end StreamEditor
