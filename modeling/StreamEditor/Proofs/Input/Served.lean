import Mathlib.Tactic
import StreamEditor.Input

/-!
What reading the input does with the files and with the standard error stream.

* `Storage.Drains`: reading uses up the standard input and leaves the files as they are.
* `Environment.Served`: besides this, problems are reported, and nothing else is done.
* `Input.served_readFrom`, `Input.served_hasNextFrom`: so it is when a record is read, and when one
  is looked for.
-/

namespace StreamEditor

/-! ### Files -/

namespace Storage

/-- Only the standard input may have changed. -/
def Drains (s s' : Storage) : Prop := ∃ standardInput, s' = { s with standardInput }

variable {s s' s'' : Storage}

lemma Drains.refl (s : Storage) : Drains s s := ⟨s.standardInput, rfl⟩

lemma Drains.trans (h : Drains s s') (h' : Drains s' s'') : Drains s s'' := by
  obtain ⟨_, rfl⟩ := h
  obtain ⟨standardInput, rfl⟩ := h'
  exact ⟨standardInput, rfl⟩

lemma drains_read? (s : Storage) (name : Text) : Drains s (s.read? name).2 := by
  rw [read?]
  rcases s.open? name with fault | node
  · exact .refl s
  · cases node with
    | standardInput => exact ⟨[], rfl⟩
    | _ => exact .refl s

end Storage

open Storage (Drains)

lemma Feed.drains_leave (s : Storage) (rest : Bytes) (feed : Feed) :
    Drains s (feed.leave s rest).2 := by
  cases feed with
  | standardInput => exact ⟨rest, rfl⟩
  | _ => exact .refl s

lemma Reader.drains_read (separator : UInt8) (s : Storage) (reader : Reader) :
    Drains s (reader.read separator s).2.2 := by
  unfold Reader.read
  split
  · exact .refl s
  · split <;> exact .refl s
  · exact Feed.drains_leave s _ _
  · exact .refl s

lemma Reader.drains_hasNext (s : Storage) (reader : Reader) : Drains s (reader.hasNext s).2.2 := by
  unfold Reader.hasNext
  split
  · exact .refl s
  · exact Feed.drains_leave s _ _
  · exact .refl s
  · exact .refl s

/-! ### Environments -/

/-- From the first environment to the second the standard input was used up at most, and problems
were reported. -/
inductive Environment.Served (env : Environment) : Environment → Prop
  | refl : env.Served env
  | drained {env' : Environment} {s : Storage} (h : env.Served env')
      (hs : Drains env'.storage s) : env.Served { env' with storage := s }
  | reported {env' : Environment} (h : env.Served env') (message : Text) :
      env.Served (env'.report message)

namespace Environment.Served

variable {env env' env'' : Environment}

lemma trans (h : env.Served env') (h' : env'.Served env'') : env.Served env'' := by
  induction h' with
  | refl => exact h
  | drained _ hs ih => exact ih.drained hs
  | reported _ message ih => exact ih.reported message

lemma drains (h : env.Served env') : Drains env.storage env'.storage := by
  induction h with
  | refl => exact .refl _
  | drained _ hs ih => exact ih.trans hs
  | reported _ _ ih => exact ih

/-- No report is taken back. -/
lemma notes (h : env.Served env') : env.notes <:+ env'.notes := by
  induction h with
  | refl => exact List.suffix_rfl
  | drained _ _ ih => exact ih
  | reported _ _ ih => exact ih.trans (List.suffix_cons _ _)

end Environment.Served

open Environment (Served)

namespace Input

variable (i : Input) (env : Environment)

lemma served_enter (name : Text) : env.Served (i.enter env name).2 := by
  rw [enter]
  split
  · exact .refl
  · exact .reported .refl _

lemma served_readCurrent : env.Served (i.readCurrent env).2.2 := by
  rw [readCurrent]
  cases i.reader with
  | none => exact .refl
  | some reader =>
      have hdrained := Served.refl.drained (reader.drains_read i.separator env.storage)
      dsimp only
      rcases hr : reader.read i.separator env.storage with ⟨fault | _ | record, reader', s⟩ <;>
        rw [hr] at hdrained
      · exact hdrained.reported _
      · exact hdrained
      · exact hdrained

lemma served_hasNextCurrent : env.Served (i.hasNextCurrent env).2.2 := by
  rw [hasNextCurrent]
  cases i.reader with
  | none => exact .refl
  | some reader =>
      have hdrained := Served.refl.drained (reader.drains_hasNext env.storage)
      dsimp only
      rcases hr : reader.hasNext env.storage with ⟨fault | _ | _, reader', s⟩ <;>
        rw [hr] at hdrained
      · exact hdrained.reported _
      · exact hdrained
      · exact hdrained

variable (names : List Text)

lemma served_readFrom : env.Served (i.readFrom env names).2.2 := by
  induction names generalizing i env with
  | nil => exact i.served_readCurrent env
  | cons name names ih =>
      have hcurrent := i.served_readCurrent env
      rw [readFrom]
      rcases hread : i.readCurrent env with ⟨_ | record, i', env'⟩ <;> rw [hread] at hcurrent
      · exact (hcurrent.trans (i'.served_enter env' name)).trans (ih _ _)
      · exact hcurrent

lemma served_hasNextFrom : env.Served (i.hasNextFrom env names).2.2 := by
  induction names generalizing i env with
  | nil => exact i.served_hasNextCurrent env
  | cons name names ih =>
      have hcurrent := i.served_hasNextCurrent env
      rw [hasNextFrom]
      rcases hnext : i.hasNextCurrent env with ⟨_ | _, i', env'⟩ <;> rw [hnext] at hcurrent
      · dsimp only
        split
        · exact hcurrent
        · exact (hcurrent.trans (i'.served_enter env' name)).trans (ih _ _)
      · exact hcurrent

end Input

end StreamEditor
