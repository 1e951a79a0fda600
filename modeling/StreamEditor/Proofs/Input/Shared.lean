import StreamEditor.Proofs.Input.Served
import StreamEditor.Proofs.Input.Contents

/-!
Input that is read among other files.

* `Storage.among`: the same standard input, and other files.
* `Input.Shared`: the files that are read, and those still to be opened, are found there too.
* `Input.Shared.read`, `Input.Shared.hasNext`: then the input is read in the same way, whatever else
  the files hold.
-/

namespace StreamEditor

open Storage (Drains)

namespace Storage

variable {s s' : Storage} {t : Storage}

/-- The same standard input among other files. -/
def among (s t : Storage) : Storage := { t with standardInput := s.standardInput }

/-- The way to a file does not depend on the standard input. -/
lemma walk_standardInput (s : Storage) (standardInput : Bytes) (here path : Path) :
    walk { s with standardInput } here path = s.walk here path := by
  induction path generalizing here with
  | nil => rfl
  | cons name path ih =>
      rw [walk, walk, ih, ih]
      rfl

lemma open?_standardInput (s : Storage) (standardInput : Bytes) (name : Text) :
    open? { s with standardInput } name = s.open? name := by
  simp only [open?, locate, walk_standardInput]
  rfl

lemma Drains.open? (h : Drains s s') (name : Text) : s'.open? name = s.open? name := by
  obtain ⟨standardInput, rfl⟩ := h
  exact open?_standardInput s standardInput name

lemma Drains.get? (h : Drains s s') (path : Path) : s'.get? path = s.get? path := by
  obtain ⟨standardInput, rfl⟩ := h
  rfl

end Storage

lemma Reader.open?_drains {s s' : Storage} (h : Drains s s') (name : Text) :
    Reader.open? s' name = Reader.open? s name := by
  rw [Reader.open?, Reader.open?, h.open?]

lemma Storage.drains_among (s t : Storage) : Drains t (s.among t) := ⟨s.standardInput, rfl⟩

/-- The same surroundings among other files. -/
def Environment.among (env : Environment) (t : Storage) : Environment :=
  { env with storage := env.storage.among t }

/-! ### Readers -/

/-- An open file that may still grow is found among the other files too. -/
def Feed.Shared (s t : Storage) : Feed → Prop
  | .file path _ => t.get? path = s.get? path
  | _ => True

def Reader.Shared (s t : Storage) : Reader → Prop
  | .pieces _ feed => feed.Shared s t
  | _ => True

section Reader

variable {s s' t : Storage}

lemma Feed.Shared.available {feed : Feed} (h : feed.Shared s t) :
    feed.available (s.among t) = feed.available s := by
  cases feed with
  | file path offset => exact congrArg (fun contents => (contents.getD []).drop offset) h
  | _ => rfl

lemma Feed.Shared.leave {feed : Feed} (h : feed.Shared s t) (rest : Bytes) :
    feed.leave (s.among t) rest = ((feed.leave s rest).1, (feed.leave s rest).2.among t) := by
  cases feed with
  | file path offset =>
      have hget : (s.among t).get? path = s.get? path := h
      simp only [Feed.leave, hget]
  | _ => rfl

lemma Feed.Shared.left {feed : Feed} (h : feed.Shared s t) (rest : Bytes) :
    (feed.leave s rest).1.Shared (feed.leave s rest).2 t := by
  cases feed with
  | file path offset => exact h
  | _ => trivial

lemma Reader.Shared.read {r : Reader} (h : r.Shared s t) (separator : UInt8) :
    r.read separator (s.among t) = ((r.read separator s).1, (r.read separator s).2.1,
        (r.read separator s).2.2.among t) ∧
      (r.read separator s).2.1.Shared (r.read separator s).2.2 t := by
  cases r with
  | whole rest =>
      cases rest with
      | nil => exact ⟨rfl, trivial⟩
      | cons b rest =>
          simp only [Reader.read]
          cases Record.split separator (b :: rest) <;> exact ⟨rfl, trivial⟩
  | pieces waiting feed =>
      have hfeed : feed.Shared s t := h
      refine ⟨?_, hfeed.left _⟩
      rw [Reader.read, Reader.read, hfeed.available]
      simp only [hfeed.leave]
  | folder => exact ⟨rfl, trivial⟩

lemma Reader.Shared.hasNext {r : Reader} (h : r.Shared s t) :
    r.hasNext (s.among t) = ((r.hasNext s).1, (r.hasNext s).2.1, (r.hasNext s).2.2.among t) ∧
      (r.hasNext s).2.1.Shared (r.hasNext s).2.2 t := by
  cases r with
  | whole rest => exact ⟨rfl, trivial⟩
  | pieces waiting feed =>
      have hfeed : feed.Shared s t := h
      cases waiting with
      | nil =>
          refine ⟨?_, hfeed.left _⟩
          rw [Reader.hasNext, Reader.hasNext, hfeed.available]
          simp only [hfeed.leave]
      | cons b waiting => exact ⟨rfl, h⟩
  | folder => exact ⟨rfl, trivial⟩

/-- A file from which pieces are read is empty when it is opened. -/
lemma Reader.eq_nil_of_open? {name : Text} {waiting : Bytes} {feed : Feed}
    (h : Reader.open? s name = .ok (.pieces waiting feed)) :
    waiting = [] ∧ ∀ path offset, feed = .file path offset → s.get? path = some [] := by
  rw [Reader.open?] at h
  split at h
  · cases h
    exact ⟨rfl, fun path offset hfeed => by cases hfeed⟩
  split at h
  · cases h
  · rename_i path' contents hopen
    split at h
    · rename_i hempty
      cases h
      refine ⟨rfl, fun path offset hfeed => ?_⟩
      cases hfeed
      rw [Input.get?_of_open? hopen, List.isEmpty_iff.1 hempty]
    · cases h
  all_goals cases h
  all_goals exact ⟨rfl, fun path offset hfeed => by cases hfeed⟩

/-- A file that opens alike gives a reader that both share. -/
lemma Reader.Shared.of_open? {name : Text} {r : Reader} (h : Reader.open? s name = .ok r)
    (ht : Reader.open? t name = .ok r) : r.Shared s t := by
  cases r with
  | pieces waiting feed =>
      cases feed with
      | file path offset =>
          obtain ⟨rfl, hs⟩ := Reader.eq_nil_of_open? h
          obtain ⟨-, ht⟩ := Reader.eq_nil_of_open? ht
          exact (ht path offset rfl).trans (hs path offset rfl).symm
      | _ => trivial
  | _ => trivial

end Reader

/-! ### The input -/

namespace Input

/-- What is read is found among the other files too, and so are the files `pending`. -/
structure SharedWith (i : Input) (s t : Storage) (pending : List Text) : Prop where
  reader : ∀ r, i.reader = some r → r.Shared s t
  opens : ∀ name ∈ pending, Reader.open? t name = Reader.open? s name

/-- The input is found among the other files. -/
def Shared (i : Input) (s t : Storage) : Prop := i.SharedWith s t i.pending

variable {i : Input} {env : Environment} {t : Storage} {pending : List Text}

lemma SharedWith.tail {name : Text} (h : i.SharedWith env.storage t (name :: pending)) :
    i.SharedWith env.storage t pending :=
  ⟨h.reader, fun name hname => h.opens name (List.mem_cons_of_mem _ hname)⟩

/-- Reading goes on with another reader, or with none. -/
lemma SharedWith.drains {i' : Input} {s s' : Storage} (h : i.SharedWith s t pending)
    (hs : Drains s s') (hreader : ∀ r, i'.reader = some r → r.Shared s' t) :
    i'.SharedWith s' t pending :=
  ⟨hreader, fun name hname => (h.opens name hname).trans (Reader.open?_drains hs name).symm⟩

lemma SharedWith.drained {i' : Input} {s s' : Storage} (h : i.SharedWith s t pending)
    (hs : Drains s s') (hnone : i'.reader = none) : i'.SharedWith s' t pending := by
  refine h.drains hs fun r hr => ?_
  rw [hnone] at hr
  cases hr

lemma SharedWith.readCurrent (h : i.SharedWith env.storage t pending) :
    i.readCurrent (env.among t) = ((i.readCurrent env).1, (i.readCurrent env).2.1,
        (i.readCurrent env).2.2.among t) ∧
      (i.readCurrent env).2.1.SharedWith (i.readCurrent env).2.2.storage t pending := by
  rw [Input.readCurrent, Input.readCurrent]
  cases hr : i.reader with
  | none => exact ⟨rfl, h⟩
  | some reader =>
      obtain ⟨hread, hshared⟩ := (h.reader reader hr).read i.separator
      have hdrains := reader.drains_read i.separator env.storage
      have hread' : reader.read i.separator (env.among t).storage = _ := hread
      simp only [hread']
      rcases hresult : reader.read i.separator env.storage with ⟨fault | _ | record, reader', s⟩ <;>
        rw [hresult] at hdrains hshared
      · exact ⟨rfl, h.drained hdrains rfl⟩
      · exact ⟨rfl, h.drained hdrains rfl⟩
      · refine ⟨rfl, h.drains hdrains fun r hr => ?_⟩
        cases hr
        exact hshared

lemma SharedWith.hasNextCurrent (h : i.SharedWith env.storage t pending) :
    i.hasNextCurrent (env.among t) = ((i.hasNextCurrent env).1, (i.hasNextCurrent env).2.1,
        (i.hasNextCurrent env).2.2.among t) ∧
      (i.hasNextCurrent env).2.1.SharedWith (i.hasNextCurrent env).2.2.storage t pending := by
  rw [Input.hasNextCurrent, Input.hasNextCurrent]
  cases hr : i.reader with
  | none => exact ⟨rfl, h⟩
  | some reader =>
      obtain ⟨hnext, hshared⟩ := (h.reader reader hr).hasNext
      have hdrains := reader.drains_hasNext env.storage
      have hnext' : reader.hasNext (env.among t).storage = _ := hnext
      simp only [hnext']
      rcases hresult : reader.hasNext env.storage with ⟨fault | _ | _, reader', s⟩ <;>
        rw [hresult] at hdrains hshared
      · exact ⟨rfl, h.drained hdrains rfl⟩
      · exact ⟨rfl, h.drained hdrains rfl⟩
      · refine ⟨rfl, h.drains hdrains fun r hr => ?_⟩
        cases hr
        exact hshared

/-- A file is opened among the others, or cannot be opened there either. -/
lemma SharedWith.enter {name : Text} (h : i.SharedWith env.storage t (name :: pending)) :
    i.enter (env.among t) name = ((i.enter env name).1, (i.enter env name).2.among t) ∧
      (i.enter env name).1.SharedWith (i.enter env name).2.storage t pending := by
  have hopens : Reader.open? t name = Reader.open? env.storage name := h.opens name (by simp)
  have hamong : Reader.open? (env.among t).storage name = Reader.open? env.storage name :=
    (Reader.open?_drains (Storage.drains_among _ _) name).trans hopens
  rw [Input.enter, Input.enter, hamong]
  cases hr : Reader.open? env.storage name with
  | error fault => exact ⟨rfl, h.tail⟩
  | ok reader =>
      refine ⟨rfl, fun r hr' => ?_, h.tail.opens⟩
      cases hr'
      exact .of_open? hr (hopens.trans hr)

lemma SharedWith.readFrom (h : i.SharedWith env.storage t pending) :
    i.readFrom (env.among t) pending = ((i.readFrom env pending).1, (i.readFrom env pending).2.1,
        (i.readFrom env pending).2.2.among t) ∧
      (i.readFrom env pending).2.1.Shared (i.readFrom env pending).2.2.storage t := by
  induction pending generalizing i env with
  | nil =>
      obtain ⟨hread, hshared⟩ := h.readCurrent
      rw [Input.readFrom, Input.readFrom, hread]
      exact ⟨rfl, hshared.reader, List.forall_mem_nil _⟩
  | cons name pending ih =>
      obtain ⟨hread, hshared⟩ := h.readCurrent
      rw [Input.readFrom, Input.readFrom, hread]
      rcases hcurrent : i.readCurrent env with ⟨_ | record, i', env'⟩ <;> rw [hcurrent] at hshared
      · obtain ⟨henter, hentered⟩ := hshared.enter
        simp only [henter]
        exact ih hentered
      · exact ⟨rfl, hshared.reader, hshared.opens⟩

lemma SharedWith.hasNextFrom (h : i.SharedWith env.storage t pending) :
    i.hasNextFrom (env.among t) pending = ((i.hasNextFrom env pending).1,
        (i.hasNextFrom env pending).2.1, (i.hasNextFrom env pending).2.2.among t) ∧
      (i.hasNextFrom env pending).2.1.Shared (i.hasNextFrom env pending).2.2.storage t := by
  induction pending generalizing i env with
  | nil =>
      obtain ⟨hnext, hshared⟩ := h.hasNextCurrent
      rw [Input.hasNextFrom, Input.hasNextFrom, hnext]
      exact ⟨rfl, hshared.reader, List.forall_mem_nil _⟩
  | cons name pending ih =>
      obtain ⟨hnext, hshared⟩ := h.hasNextCurrent
      rw [Input.hasNextFrom, Input.hasNextFrom, hnext]
      rcases hcurrent : i.hasNextCurrent env with ⟨_ | _, i', env'⟩ <;> rw [hcurrent] at hshared
      · dsimp only
        split
        · exact ⟨rfl, hshared.reader, hshared.opens⟩
        · obtain ⟨henter, hentered⟩ := hshared.enter
          simp only [henter]
          exact ih hentered
      · exact ⟨rfl, hshared.reader, hshared.opens⟩

/-- The next record is the same. -/
lemma Shared.read (h : i.Shared env.storage t) :
    i.read (env.among t) = ((i.read env).1, (i.read env).2.1, (i.read env).2.2.among t) ∧
      (i.read env).2.1.Shared (i.read env).2.2.storage t := SharedWith.readFrom h

/-- Whether another record follows is the same. -/
lemma Shared.hasNext (h : i.Shared env.storage t) :
    i.hasNext (env.among t) =
        ((i.hasNext env).1, (i.hasNext env).2.1, (i.hasNext env).2.2.among t) ∧
      (i.hasNext env).2.1.Shared (i.hasNext env).2.2.storage t := SharedWith.hasNextFrom h

end Input

end StreamEditor
