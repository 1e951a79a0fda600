import StreamEditor.Proofs.Editor.Outcome
import StreamEditor.Proofs.Input.Lookahead

/-!
The input from a single file.

* `Environment.Alike`: surroundings that differ in the events told at most.
* `Input.apart`: the same input, its files taken as streams of their own. Records are read in the
  same way (`Input.apart_read`), and without further files so is what follows
  (`Input.apart_hasNext`).
* `Input.Single`: one file at most is opened and still to be opened together.
-/

namespace StreamEditor

namespace Environment

/-- Two environments are alike if they differ in the events told at most. -/
structure Alike (env env' : Environment) : Prop where
  storage : env'.storage = env.storage
  status : env'.status = env.status
  said : env'.said = env.said

variable {env env' : Environment}

lemma Alike.setStorage {s s' : Storage} (h : env.Alike env') (hs : s' = s) :
    { env with storage := s }.Alike { env' with storage := s' } :=
  { h with storage := hs }

lemma Alike.say (h : env.Alike env') (b : Bytes) :
    (env.note (.bytes b)).Alike (env'.note (.bytes b)) :=
  { h with said := congrArg (b :: ·) h.said }

lemma Alike.report (h : env.Alike env') (message : Text) :
    (env.report message).Alike (env'.report message) :=
  { h.say _ with status := rfl }

lemma Alike.tell_left (h : env.Alike env') (event : Event) :
    (env.note (.event event)).Alike env' :=
  { h with said := h.said }

lemma Alike.tell_right (h : env.Alike env') (event : Event) :
    env.Alike (env'.note (.event event)) :=
  { h with said := h.said }

end Environment

namespace Input

/-- The same input, its files taken as streams of their own. -/
def apart (i : Input) : Input := { i with separate := true }

section Apart

variable {env env' : Environment}

/-! ### Separate streams -/

lemma apart_readCurrent (i : Input) (h : env.Alike env') :
    ∃ env₁, i.apart.readCurrent env'
        = ((i.readCurrent env).1, (i.readCurrent env).2.1.apart, env₁) ∧
      (i.readCurrent env).2.2.Alike env₁ := by
  rw [readCurrent, readCurrent]
  cases hr : i.reader with
  | none => exact ⟨env', by simp only [apart, hr], h⟩
  | some reader =>
      simp only [apart, hr, h.storage]
      rcases reader.read i.separator env.storage with ⟨fault | _ | record, reader', storage⟩
      · exact ⟨_, rfl, (h.setStorage rfl).report _⟩
      · exact ⟨_, rfl, h.setStorage rfl⟩
      · exact ⟨_, rfl, h.setStorage rfl⟩

lemma apart_enter (i : Input) (h : env.Alike env') (name : Text) :
    ∃ env₁, i.apart.enter env' name = ((i.enter env name).1.apart, env₁) ∧
      (i.enter env name).2.Alike env₁ := by
  rw [enter, enter, h.storage]
  cases Reader.open? env.storage name with
  | error fault => exact ⟨_, rfl, h.report _⟩
  | ok reader => exact ⟨_, rfl, h⟩

lemma apart_readFrom (i : Input) (h : env.Alike env') (pending : List Text) :
    ∃ env₁, i.apart.readFrom env' pending
        = ((i.readFrom env pending).1, (i.readFrom env pending).2.1.apart, env₁) ∧
      (i.readFrom env pending).2.2.Alike env₁ := by
  induction pending generalizing i env env' with
  | nil =>
      obtain ⟨env₁, hread, hA⟩ := apart_readCurrent i h
      rw [readFrom, readFrom, hread]
      exact ⟨env₁, rfl, hA⟩
  | cons name rest ih =>
      obtain ⟨env₁, hread, hA⟩ := apart_readCurrent i h
      rw [readFrom, readFrom, hread]
      rcases hcurrent : i.readCurrent env with ⟨_ | record, i₁, env₂⟩ <;> rw [hcurrent] at hA
      · obtain ⟨env₃, henter, hB⟩ := apart_enter i₁ hA name
        dsimp only
        rw [henter]
        exact ih _ hB
      · exact ⟨env₁, rfl, hA⟩

/-- Records are read in the same way. -/
lemma apart_read (i : Input) (h : env.Alike env') :
    ∃ env₁, i.apart.read env' = ((i.read env).1, (i.read env).2.1.apart, env₁) ∧
      (i.read env).2.2.Alike env₁ :=
  apart_readFrom i h i.pending

/-- Without further files it is looked into the same file whether a record follows. -/
lemma apart_hasNext (i : Input) (h : env.Alike env') (hp : i.pending = []) :
    ∃ env₁, i.apart.hasNext env' = ((i.hasNext env).1, (i.hasNext env).2.1.apart, env₁) ∧
      (i.hasNext env).2.2.Alike env₁ := by
  have hp' : i.apart.pending = [] := hp
  rw [hasNext, hasNext, hp, hp', hasNextFrom, hasNextFrom, hasNextCurrent, hasNextCurrent]
  cases hr : i.reader with
  | none => exact ⟨env', by simp only [apart, hr], h⟩
  | some reader =>
      simp only [apart, hr, h.storage]
      rcases reader.hasNext env.storage with ⟨fault | _ | _, reader', storage⟩
      · exact ⟨_, rfl, (h.setStorage rfl).report _⟩
      · exact ⟨_, rfl, h.setStorage rfl⟩
      · exact ⟨_, rfl, h.setStorage rfl⟩

end Apart

/-! ### One file -/

/-- One file at most is opened and still to be opened together. -/
structure Single (i : Input) : Prop where
  files : i.pending.length + i.readerIndex ≤ 1
  opened : ∀ r, i.reader = some r → i.readerIndex = 1

/-- A record that is read now comes from a file that is open. -/
lemma readCurrent_spec (i : Input) (env : Environment) :
    (i.readCurrent env).2.1.pending = i.pending ∧
      (i.readCurrent env).2.1.readerIndex = i.readerIndex ∧
      (∀ r, (i.readCurrent env).2.1.reader = some r → ∃ r', i.reader = some r') ∧
      ∀ record, (i.readCurrent env).1 = some record →
        (∃ r, i.reader = some r) ∧ (i.readCurrent env).2.1.recordIndex = i.readerIndex := by
  rw [readCurrent]
  cases hr : i.reader with
  | none => exact ⟨rfl, rfl, by simp [hr], by simp⟩
  | some reader =>
      dsimp only
      rcases reader.read i.separator env.storage with ⟨fault | _ | record, reader', storage⟩
      · exact ⟨rfl, rfl, by simp [abandon], by simp⟩
      · exact ⟨rfl, rfl, by simp, by simp⟩
      · exact ⟨rfl, rfl, by simp, by simp⟩

/-- Reading goes through the only file. -/
lemma Single.read {i : Input} (h : i.Single) (env : Environment) :
    (i.read env).2.1.Single ∧ (i.read env).2.1.pending = [] ∧
      ∀ record, (i.read env).1 = some record → (i.read env).2.1.recordIndex = 1 := by
  have last {j : Input} (hj : j.readerIndex ≤ 1) (hopened : ∀ r, j.reader = some r →
      j.readerIndex = 1) (env : Environment) :
      (j.readFrom env []).2.1.Single ∧ (j.readFrom env []).2.1.pending = [] ∧
        ∀ record, (j.readFrom env []).1 = some record →
          (j.readFrom env []).2.1.recordIndex = 1 := by
    obtain ⟨-, hindex, hreader, hrecord⟩ := j.readCurrent_spec env
    refine ⟨⟨?_, fun r hr => ?_⟩, rfl, fun record hr => ?_⟩
    · exact (Nat.zero_add _).trans_le (hindex.trans_le hj)
    · obtain ⟨r', hr'⟩ := hreader r hr
      exact hindex.trans (hopened r' hr')
    · obtain ⟨⟨r', hr'⟩, hat⟩ := hrecord record hr
      exact hat.trans (hopened r' hr')
  rw [Input.read]
  have hfiles := h.files
  cases hp : i.pending with
  | nil =>
      rw [hp, List.length_nil] at hfiles
      exact last (by omega) h.opened env
  | cons name rest =>
      rw [hp, List.length_cons] at hfiles
      have hrest : rest = [] := List.length_eq_zero_iff.1 (by omega)
      -- Before the only file is opened there is no reader.
      have hnone : i.reader = none := by
        cases hr : i.reader with
        | none => rfl
        | some r =>
            have := h.opened r hr
            omega
      have hcurrent : i.readCurrent env = (none, i, env) := by
        rw [readCurrent, hnone]
      rw [hrest, readFrom, hcurrent]
      dsimp only
      rw [enter]
      cases Reader.open? env.storage name with
      | error fault => exact last (by omega) h.opened _
      | ok reader => exact last (by dsimp only; omega) (fun _ _ => by dsimp only; omega) _

/-- Looking on stays in the only file. -/
lemma Single.hasNext {i : Input} (h : i.Single) (hp : i.pending = []) (env : Environment) :
    (i.hasNext env).2.1.Single ∧ (i.hasNext env).2.1.pending = [] := by
  have hfiles := h.files
  rw [hp] at hfiles
  rw [Input.hasNext, hp, hasNextFrom]
  rw [hasNextCurrent]
  cases hr : i.reader with
  | none => exact ⟨⟨hfiles, h.opened⟩, rfl⟩
  | some reader =>
      have hindex := h.opened reader hr
      dsimp only
      rcases reader.hasNext env.storage with ⟨fault | _ | _, reader', storage⟩ <;>
        exact ⟨⟨hfiles, fun _ _ => hindex⟩, rfl⟩

/-- Where nothing is read any more there is no record. -/
lemma read_of_spent {i : Input} (hr : i.reader = none) (hp : i.pending = [])
    (env : Environment) : i.read env = (none, i, env) := by
  rw [Input.read, hp, readFrom, readCurrent, hr]
  dsimp only
  rw [← hp]

end Input

end StreamEditor
