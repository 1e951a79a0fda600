import StreamEditor.Proofs.Input.Served
import StreamEditor.Proofs.Output.Stored

/-!
Two storages that differ in one file.

* `Storage.Beside`: all is the same but for one file. It remains so where both are written to in the
  same way (`Storage.Beside.overwrite`), and where that file is written to on one side
  (`Storage.Beside.overwrite_right`).
* `Storage.Misses`: a name does not lead to that file. Names lead to the same on both sides
  (`Storage.Beside.toOption_open?`).
* `Reader.Away`, `Input.Away`: that file is not read, nor will it be.
* `Input.read_beside`, `Input.hasNext_beside`: the same records are read on both sides.
-/

namespace StreamEditor

namespace Storage

variable {q : Path} {s s' : Storage} {name : Text}

/-! ### Names -/

section Folders

variable (h : s'.folders = s.folders)

include h

lemma isFolder_congr (p : Path) : s'.isFolder p = s.isFolder p := by
  rw [isFolder, isFolder, h]

/-- Where a name leads depends on the folders alone. Why it leads nowhere may depend on the
files. -/
lemma toOption_walk (here path : Path) :
    (s'.walk here path).toOption = (s.walk here path).toOption := by
  induction path generalizing here with
  | nil => rfl
  | cons part path ih =>
      rw [walk, walk, isFolder_congr h]
      by_cases hfolder : (!s.isFolder here) = true
      · rw [if_pos hfolder, if_pos hfolder]
        split <;> split <;> rfl
      · rw [if_neg hfolder, if_neg hfolder, apply_ite Except.toOption, apply_ite Except.toOption,
          apply_ite Except.toOption, apply_ite Except.toOption, ih, ih]

lemma toOption_locate (name : Text) : (s'.locate name).toOption = (s.locate name).toOption := by
  have hwalk := toOption_walk h [] (Path.ofText name)
  rw [locate, locate]
  split_ifs
  · rfl
  · rfl
  · rfl
  · dsimp only
    split_ifs
    · rfl
    · rcases hs' : s'.walk [] (Path.ofText name) with fault | way <;>
        rcases hs : s.walk [] (Path.ofText name) with fault' | way' <;> rw [hs, hs'] at hwalk <;>
        cases hwalk <;> rfl

end Folders

/-- With these folders a name does not lead to `q`. -/
def Misses (q : Path) (folders : List Path) (name : Text) : Prop :=
  ∀ b, (Storage.mk [] folders []).locate name ≠ .ok (q, b)

lemma Misses.ne (h : Misses q s.folders name) {way : Path} {b : Bool}
    (hl : s.locate name = .ok (way, b)) : way ≠ q := by
  rintro rfl
  have hsame := @toOption_locate s ⟨[], s.folders, []⟩ rfl name
  rw [hl] at hsame
  cases hl' : (Storage.mk [] s.folders []).locate name with
  | error fault =>
      rw [hl'] at hsame
      cases hsame
  | ok found =>
      rw [hl'] at hsame
      cases hsame
      exact h b hl'

/-! ### One file apart -/

lemma folders_set (s : Storage) (p : Path) (data : Bytes) : (s.set p data).folders = s.folders := by
  rw [set]
  split <;> rfl

lemma standardInput_set (s : Storage) (p : Path) (data : Bytes) :
    (s.set p data).standardInput = s.standardInput := by
  rw [set]
  split <;> rfl

lemma folders_overwrite (s : Storage) (p : Path) (offset : ℕ) (data : Bytes) :
    (s.overwrite p offset data).folders = s.folders := by
  cases data with
  | nil => rfl
  | cons b data =>
      rw [overwrite]
      · exact folders_set _ _ _
      · exact List.cons_ne_nil _ _

/-- All is the same but for the file `q`. -/
structure Beside (q : Path) (s s' : Storage) : Prop where
  folders : s'.folders = s.folders
  standardInput : s'.standardInput = s.standardInput
  files : ∀ p, p ≠ q → s'.get? p = s.get? p

namespace Beside

lemma drained (h : Beside q s s') (standardInput : Bytes) :
    Beside q { s with standardInput } { s' with standardInput } :=
  ⟨h.folders, rfl, h.files⟩

lemma set (h : Beside q s s') (p : Path) (data : Bytes) :
    Beside q (s.set p data) (s'.set p data) where
  folders := by rw [folders_set, folders_set, h.folders]
  standardInput := by rw [standardInput_set, standardInput_set, h.standardInput]
  files r hr := by rw [get?_set, get?_set, h.files r hr]

lemma set_right (h : Beside q s s') (data : Bytes) : Beside q s (s'.set q data) where
  folders := by rw [folders_set, h.folders]
  standardInput := by rw [standardInput_set, h.standardInput]
  files r hr := by rw [get?_set, if_neg hr, h.files r hr]

lemma overwrite (h : Beside q s s') {p : Path} (hp : p ≠ q) (offset : ℕ) (data : Bytes) :
    Beside q (s.overwrite p offset data) (s'.overwrite p offset data) := by
  cases data with
  | nil => exact h
  | cons b data =>
      rw [Storage.overwrite, Storage.overwrite, h.files p hp]
      · exact h.set p _
      all_goals exact List.cons_ne_nil _ _

lemma overwrite_right (h : Beside q s s') (offset : ℕ) (data : Bytes) :
    Beside q s (s'.overwrite q offset data) := by
  cases data with
  | nil => exact h
  | cons b data =>
      rw [Storage.overwrite]
      · exact h.set_right _
      · exact List.cons_ne_nil _ _

/-- A name that does not lead to the one file leads to the same on both sides. -/
lemma toOption_open? (h : Beside q s s') (hname : Misses q s.folders name) :
    (s'.open? name).toOption = (s.open? name).toOption := by
  have hlocate := toOption_locate h.folders name
  rw [open?, open?]
  rcases hs : s.locate name with fault | ⟨way, asFolder⟩ <;>
    rcases hs' : s'.locate name with fault' | ⟨way', asFolder'⟩ <;> rw [hs, hs'] at hlocate
  · rfl
  · cases hlocate
  · cases hlocate
  · cases hlocate
    dsimp only
    rw [h.files _ (hname.ne hs), isFolder_congr h.folders]

lemma read? (h : Beside q s s') (hname : Misses q s.folders name) :
    (s'.read? name).1.toOption = (s.read? name).1.toOption ∧
      Beside q (s.read? name).2 (s'.read? name).2 := by
  have hopen := h.toOption_open? hname
  rw [Storage.read?, Storage.read?]
  rcases hs : s.open? name with fault | node <;> rcases hs' : s'.open? name with fault' | node' <;>
    rw [hs, hs'] at hopen
  · exact ⟨rfl, h⟩
  · cases hopen
  · cases hopen
  · cases hopen
    cases node with
    | standardInput => exact ⟨congrArg some h.standardInput, h.drained []⟩
    | _ => exact ⟨rfl, h⟩

end Beside

/-- A file that is opened is where its name leads. -/
lemma locate_of_open?_file {path : Path} {data : Bytes} (h : s.open? name = .ok (.file path data)) :
    ∃ b, s.locate name = .ok (path, b) := by
  rw [open?] at h
  split at h
  · cases h
  · rename_i way asFolder hlocate
    split at h
    · rename_i node hdevice
      cases h
      unfold device? at hdevice
      split_ifs at hdevice <;> cases hdevice
    · split at h
      · split at h
        · cases h
        · cases h
          exact ⟨asFolder, hlocate⟩
      · split at h <;> cases h

end Storage

open Storage (Beside Misses)

/-! ### Readers -/

/-- The file `q` is not read here. -/
def Feed.Away (q : Path) : Feed → Prop
  | .file path _ => path ≠ q
  | .memory _ | .standardInput => True

/-- The file `q` is not read any further. -/
def Reader.Away (q : Path) : Reader → Prop
  | .pieces _ feed => feed.Away q
  | .whole _ | .folder => True

section Readers

variable {q : Path} {s s' : Storage} {name : Text}

lemma Feed.available_beside {feed : Feed} (hf : feed.Away q) (h : Beside q s s') :
    feed.available s' = feed.available s := by
  cases feed with
  | memory rest => rfl
  | file path offset => rw [available, available, h.files path hf]
  | standardInput => exact h.standardInput

lemma Feed.leave_beside {feed : Feed} (hf : feed.Away q) (h : Beside q s s') (rest : Bytes) :
    (feed.leave s' rest).1 = (feed.leave s rest).1 ∧
      Beside q (feed.leave s rest).2 (feed.leave s' rest).2 ∧ (feed.leave s rest).1.Away q := by
  cases feed with
  | memory _ => exact ⟨rfl, h, trivial⟩
  | file path offset =>
      refine ⟨?_, h, hf⟩
      rw [leave, leave, h.files path hf]
  | standardInput => exact ⟨rfl, h.drained rest, trivial⟩

lemma Reader.read_beside {reader : Reader} (hr : reader.Away q) (h : Beside q s s')
    (separator : UInt8) :
    (reader.read separator s').1 = (reader.read separator s).1 ∧
      (reader.read separator s').2.1 = (reader.read separator s).2.1 ∧
      Beside q (reader.read separator s).2.2 (reader.read separator s').2.2 ∧
      (reader.read separator s).2.1.Away q := by
  cases reader with
  | whole rest =>
      cases rest with
      | nil => exact ⟨rfl, rfl, h, trivial⟩
      | cons b rest =>
          simp only [read]
          cases Record.split separator (b :: rest) <;> exact ⟨rfl, rfl, h, trivial⟩
  | pieces waiting feed =>
      have hfeed' : feed.Away q := hr
      rw [read, read, Feed.available_beside hfeed' h]
      obtain ⟨hfeed, hstorage, haway⟩ := Feed.leave_beside hfeed' h
        (takeRecord separator waiting (feed.available s)).2.2
      exact ⟨rfl, congrArg (pieces _) hfeed, hstorage, haway⟩
  | folder => exact ⟨rfl, rfl, h, trivial⟩

lemma Reader.hasNext_beside {reader : Reader} (hr : reader.Away q) (h : Beside q s s') :
    (reader.hasNext s').1 = (reader.hasNext s).1 ∧
      (reader.hasNext s').2.1 = (reader.hasNext s).2.1 ∧
      Beside q (reader.hasNext s).2.2 (reader.hasNext s').2.2 ∧
      (reader.hasNext s).2.1.Away q := by
  cases reader with
  | whole rest => exact ⟨rfl, rfl, h, trivial⟩
  | pieces waiting feed =>
      cases waiting with
      | nil =>
          have hfeed' : feed.Away q := hr
          rw [hasNext, hasNext, Feed.available_beside hfeed' h]
          obtain ⟨hfeed, hstorage, haway⟩ :=
            Feed.leave_beside hfeed' h ((feed.available s).drop pieceSize)
          exact ⟨rfl, congrArg (pieces _) hfeed, hstorage, haway⟩
      | cons b waiting => exact ⟨rfl, rfl, h, hr⟩
  | folder => exact ⟨rfl, rfl, h, trivial⟩

lemma Reader.toOption_open? (h : Beside q s s') (hname : Misses q s.folders name) :
    (Reader.open? s' name).toOption = (Reader.open? s name).toOption ∧
      ∀ reader, Reader.open? s name = .ok reader → reader.Away q := by
  have hopen := h.toOption_open? hname
  rw [Reader.open?, Reader.open?]
  split_ifs with hdash
  · exact ⟨rfl, fun reader hreader => by cases hreader; trivial⟩
  · rcases hs : s.open? name with fault | node <;>
      rcases hs' : s'.open? name with fault' | node' <;>
      rw [hs, hs'] at hopen
    · exact ⟨rfl, nofun⟩
    · cases hopen
    · cases hopen
    · cases hopen
      refine ⟨by cases node <;> rfl, fun reader hreader => ?_⟩
      cases node with
      | file path data =>
          obtain ⟨b, hlocate⟩ := Storage.locate_of_open?_file hs
          cases hreader
          split
          · exact hname.ne hlocate
          · trivial
      | fullDevice => cases hreader
      | _ =>
          cases hreader
          trivial

end Readers

/-! ### The input -/

/-- Environments of which the storages differ in one file. What was sent to the standard error
stream may differ. -/
structure Environment.Beside (q : Path) (env env' : Environment) : Prop where
  storage : Storage.Beside q env.storage env'.storage
  status : env'.status = env.status

lemma Environment.Beside.report {q : Path} {env env' : Environment} (h : env.Beside q env')
    (message message' : Text) : (env.report message).Beside q (env'.report message') :=
  ⟨h.storage, rfl⟩

namespace Input

/-- With these folders the file `q` is not read any further. -/
structure Away (q : Path) (folders : List Path) (i : Input) : Prop where
  reader : ∀ r, i.reader = some r → r.Away q
  pending : ∀ name ∈ i.pending, Misses q folders name

/-- On both sides the same was found and the same input is left, which is away from `q`. -/
structure Tracks {α : Type} (q : Path) (folders : List Path) (x x' : α × Input × Environment) :
    Prop where
  found : x'.1 = x.1
  input : x'.2.1 = x.2.1
  environment : x.2.2.Beside q x'.2.2
  away : x.2.1.Away q folders
  folders : x.2.2.storage.folders = folders

section Beside

variable {q : Path} {folders : List Path} {i : Input} {env env' : Environment}

lemma Away.setPending (h : i.Away q folders) {names : List Text}
    (hnames : ∀ name ∈ names, Misses q folders name) : { i with pending := names }.Away q folders :=
  ⟨h.reader, hnames⟩

/-- What is being read is given up on both sides. -/
lemma abandon_beside (hi : i.Away q folders) (h : env.Beside q env')
    (hf : env.storage.folders = folders) (fault fault' : Fault) :
    (i.abandon env' fault').1 = (i.abandon env fault).1 ∧
      (i.abandon env fault).2.Beside q (i.abandon env' fault').2 ∧
      (i.abandon env fault).2.storage.folders = folders ∧ (i.abandon env fault).1.Away q folders :=
  ⟨rfl, h.report _ _, hf, nofun, hi.pending⟩

lemma readCurrent_beside (hi : i.Away q folders) (h : env.Beside q env')
    (hf : env.storage.folders = folders) :
    Tracks q folders (i.readCurrent env) (i.readCurrent env') := by
  rw [readCurrent, readCurrent]
  cases hr : i.reader with
  | none => exact ⟨rfl, rfl, h, hi, hf⟩
  | some reader =>
      obtain ⟨hfound, hreader, hstorage, haway⟩ :=
        Reader.read_beside (hi.reader reader hr) h.storage i.separator
      have hfolders : (reader.read i.separator env.storage).2.2.folders = folders := by
        obtain ⟨standardInput, hs⟩ := reader.drains_read i.separator env.storage
        rw [hs]
        exact hf
      dsimp only
      rcases hread : reader.read i.separator env.storage with ⟨fault | _ | record, reader₁, s⟩ <;>
        rcases hread' : reader.read i.separator env'.storage with
          ⟨fault' | _ | record', reader₁', s'⟩ <;>
        rw [hread, hread'] at hfound hreader hstorage <;> rw [hread] at haway hfolders <;>
        cases hfound <;> cases hreader
      · obtain ⟨hinput, henv, hf', haway'⟩ :=
          @abandon_beside q folders i { env with storage := s } { env' with storage := s' } hi
            ⟨hstorage, h.status⟩ hfolders fault fault
        exact ⟨rfl, hinput, henv, haway', hf'⟩
      · exact ⟨rfl, rfl, ⟨hstorage, h.status⟩,
          ⟨fun _ hr => (Option.some_ne_none _ hr.symm).elim, hi.pending⟩, hfolders⟩
      · exact ⟨rfl, rfl, ⟨hstorage, h.status⟩,
          ⟨fun r hr => by cases hr; exact haway, hi.pending⟩, hfolders⟩

lemma enter_beside (hi : i.Away q folders) (h : env.Beside q env')
    (hf : env.storage.folders = folders) {name : Text} (hname : Misses q folders name) :
    (i.enter env' name).1 = (i.enter env name).1 ∧
      (i.enter env name).2.Beside q (i.enter env' name).2 ∧
      (i.enter env name).2.storage.folders = folders ∧ (i.enter env name).1.Away q folders := by
  rw [← hf] at hname
  obtain ⟨hopen, haway⟩ := Reader.toOption_open? h.storage hname
  rw [enter, enter]
  rcases hr : Reader.open? env.storage name with fault | reader <;>
    rcases hr' : Reader.open? env'.storage name with fault' | reader' <;> rw [hr, hr'] at hopen
  · exact ⟨rfl, h.report _ _, hf, hi⟩
  · cases hopen
  · cases hopen
  · cases hopen
    exact ⟨rfl, h, hf, ⟨fun r hr' => by cases hr'; exact haway reader hr, hi.pending⟩⟩

lemma readFrom_beside {names : List Text} (hnames : ∀ name ∈ names, Misses q folders name)
    (hi : i.Away q folders) (h : env.Beside q env') (hf : env.storage.folders = folders) :
    Tracks q folders (i.readFrom env names) (i.readFrom env' names) := by
  induction names generalizing i env env' with
  | nil =>
      have hcurrent := readCurrent_beside hi h hf
      exact ⟨hcurrent.found, congrArg (fun i : Input => { i with pending := [] }) hcurrent.input,
        hcurrent.environment, hcurrent.away.setPending hnames, hcurrent.folders⟩
  | cons name names ih =>
      obtain ⟨hfound, hinput, henv, haway, hfolders⟩ := readCurrent_beside hi h hf
      rw [readFrom, readFrom]
      rcases hread : i.readCurrent env with ⟨_ | record, i₁, env₁⟩ <;>
        rcases hread' : i.readCurrent env' with ⟨_ | record', i₁', env₁'⟩ <;>
        rw [hread, hread'] at hfound hinput henv <;> rw [hread] at hfolders haway <;>
        cases hfound <;> cases hinput
      · rw [List.forall_mem_cons] at hnames
        obtain ⟨hentered, henv', hf', haway'⟩ := enter_beside haway henv hfolders hnames.1
        dsimp only at hentered henv' hf' haway' ⊢
        rw [hentered]
        exact ih hnames.2 haway' henv' hf'
      · exact ⟨rfl, rfl, henv, haway.setPending hnames, hfolders⟩

/-- The same records are read on both sides. -/
lemma read_beside (hi : i.Away q folders) (h : env.Beside q env')
    (hf : env.storage.folders = folders) : Tracks q folders (i.read env) (i.read env') :=
  readFrom_beside hi.pending hi h hf

lemma hasNextCurrent_beside (hi : i.Away q folders) (h : env.Beside q env')
    (hf : env.storage.folders = folders) :
    Tracks q folders (i.hasNextCurrent env) (i.hasNextCurrent env') := by
  rw [hasNextCurrent, hasNextCurrent]
  cases hr : i.reader with
  | none => exact ⟨rfl, rfl, h, hi, hf⟩
  | some reader =>
      obtain ⟨hfound, hreader, hstorage, haway⟩ :=
        Reader.hasNext_beside (hi.reader reader hr) h.storage
      have hfolders : (reader.hasNext env.storage).2.2.folders = folders := by
        obtain ⟨standardInput, hs⟩ := reader.drains_hasNext env.storage
        rw [hs]
        exact hf
      dsimp only
      rcases hread : reader.hasNext env.storage with ⟨fault | _ | _, reader₁, s⟩ <;>
        rcases hread' : reader.hasNext env'.storage with ⟨fault' | _ | _, reader₁', s'⟩ <;>
        rw [hread, hread'] at hfound hreader hstorage <;> rw [hread] at haway hfolders <;>
        cases hfound <;> cases hreader
      · obtain ⟨hinput, henv, hf', haway'⟩ :=
          @abandon_beside q folders i { env with storage := s } { env' with storage := s' } hi
            ⟨hstorage, h.status⟩ hfolders fault fault
        exact ⟨rfl, hinput, henv, haway', hf'⟩
      · exact ⟨rfl, rfl, ⟨hstorage, h.status⟩,
          ⟨fun _ hr => (Option.some_ne_none _ hr.symm).elim, hi.pending⟩, hfolders⟩
      · exact ⟨rfl, rfl, ⟨hstorage, h.status⟩,
          ⟨fun r hr => by cases hr; exact haway, hi.pending⟩, hfolders⟩

lemma hasNextFrom_beside {names : List Text} (hnames : ∀ name ∈ names, Misses q folders name)
    (hi : i.Away q folders) (h : env.Beside q env') (hf : env.storage.folders = folders) :
    Tracks q folders (i.hasNextFrom env names) (i.hasNextFrom env' names) := by
  induction names generalizing i env env' with
  | nil =>
      have hcurrent := hasNextCurrent_beside hi h hf
      exact ⟨hcurrent.found, congrArg (fun i : Input => { i with pending := [] }) hcurrent.input,
        hcurrent.environment, hcurrent.away.setPending hnames, hcurrent.folders⟩
  | cons name names ih =>
      obtain ⟨hfound, hinput, henv, haway, hfolders⟩ := hasNextCurrent_beside hi h hf
      rw [hasNextFrom, hasNextFrom]
      rcases hnext : i.hasNextCurrent env with ⟨_ | _, i₁, env₁⟩ <;>
        rcases hnext' : i.hasNextCurrent env' with ⟨_ | _, i₁', env₁'⟩ <;>
        rw [hnext, hnext'] at hfound hinput henv <;> rw [hnext] at hfolders haway <;>
        cases hfound <;> cases hinput
      · dsimp only
        by_cases hseparate : i₁.separate = true
        · rw [if_pos hseparate, if_pos hseparate]
          exact ⟨rfl, rfl, henv, haway.setPending hnames, hfolders⟩
        · rw [if_neg hseparate, if_neg hseparate]
          rw [List.forall_mem_cons] at hnames
          obtain ⟨hentered, henv', hf', haway'⟩ := enter_beside haway henv hfolders hnames.1
          dsimp only at hentered henv' hf' haway' ⊢
          rw [hentered]
          exact ih hnames.2 haway' henv' hf'
      · exact ⟨rfl, rfl, henv, haway.setPending hnames, hfolders⟩

/-- On both sides another record follows or none. -/
lemma hasNext_beside (hi : i.Away q folders) (h : env.Beside q env')
    (hf : env.storage.folders = folders) : Tracks q folders (i.hasNext env) (i.hasNext env') :=
  hasNextFrom_beside hi.pending hi h hf

end Beside

end Input

end StreamEditor
