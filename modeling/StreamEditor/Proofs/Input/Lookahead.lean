import StreamEditor.Input
import StreamEditor.Proofs.Input.Records

/-!
Looking whether another record follows.

* `Input.hasNext_again`: asked again, the input gives the same answer.
* `Input.Looked.read`: a record that was found can be read.
-/

namespace StreamEditor

/-- A reader that has found another record still has one. -/
lemma Reader.hasNext_again {r r' : Reader} {s s' : Storage}
    (h : r.hasNext s = (.ok true, r', s')) (s'' : Storage) : (r'.hasNext s'').1 = .ok true := by
  cases r with
  | whole rest =>
      rw [Reader.hasNext, Prod.mk.injEq, Prod.mk.injEq] at h
      obtain ⟨hrest, rfl, -⟩ := h
      exact hrest
  | pieces waiting feed =>
      cases waiting with
      | nil =>
          rw [Reader.hasNext, Prod.mk.injEq, Prod.mk.injEq] at h
          obtain ⟨hsource, rfl, -⟩ := h
          cases hs : feed.available s with
          | nil => simp [hs] at hsource
          | cons b source => rfl
      | cons b waiting =>
          cases h
          rfl
  | folder => cases h

namespace Input

/-- What looking on leaves behind: a reader that has another record, or no reader, and no other
file to look into. -/
def Looked (found : Bool) (i : Input) : Prop :=
  (found = true → ∃ r, i.reader = some r ∧ ∀ s, (r.hasNext s).1 = .ok true) ∧
    (found = false → i.reader = none ∧ (i.pending = [] ∨ i.separate = true))

/-- What looking on in the present reader leaves behind. -/
lemma hasNextCurrent_spec (i : Input) (env : Environment) :
    ((i.hasNextCurrent env).1 = true →
      ∃ r, (i.hasNextCurrent env).2.1.reader = some r ∧ ∀ s, (r.hasNext s).1 = .ok true) ∧
    ((i.hasNextCurrent env).1 = false → (i.hasNextCurrent env).2.1.reader = none) ∧
    (i.hasNextCurrent env).2.1.separate = i.separate := by
  rw [hasNextCurrent]
  cases hr : i.reader with
  | none => exact ⟨by simp, fun _ => hr, rfl⟩
  | some r =>
      dsimp only
      rcases hnext : r.hasNext env.storage with ⟨fault | found, r', s⟩
      · exact ⟨by simp, fun _ => rfl, rfl⟩
      · cases found with
        | false => exact ⟨by simp, fun _ => rfl, rfl⟩
        | true => exact ⟨fun _ => ⟨r', rfl, Reader.hasNext_again hnext⟩, by simp, rfl⟩

lemma looked_hasNextFrom (i : Input) (env : Environment) (pending : List Text) :
    Looked (i.hasNextFrom env pending).1 (i.hasNextFrom env pending).2.1 := by
  induction pending generalizing i env with
  | nil =>
      obtain ⟨htrue, hfalse, -⟩ := i.hasNextCurrent_spec env
      exact ⟨htrue, fun h => ⟨hfalse h, .inl rfl⟩⟩
  | cons name rest ih =>
      obtain ⟨htrue, hfalse, hseparate⟩ := i.hasNextCurrent_spec env
      rw [hasNextFrom]
      rcases hcurrent : i.hasNextCurrent env with ⟨_ | _, i', env'⟩ <;>
        rw [hcurrent] at htrue hfalse hseparate
      · dsimp only
        split
        · rename_i hs
          exact ⟨by simp, fun _ => ⟨hfalse rfl, .inr hs⟩⟩
        · exact ih _ _
      · exact ⟨fun _ => htrue rfl, by simp⟩

lemma hasNextCurrent_of_none {i : Input} (hr : i.reader = none) (env : Environment) :
    i.hasNextCurrent env = (false, i, env) := by
  rw [hasNextCurrent, hr]

lemma hasNextCurrent_of_some {i : Input} {r : Reader} {env : Environment} (hr : i.reader = some r)
    (h : (r.hasNext env.storage).1 = .ok true) : (i.hasNextCurrent env).1 = true := by
  rw [hasNextCurrent, hr]
  dsimp only
  rcases hnext : r.hasNext env.storage with ⟨found, r', s⟩
  rw [hnext] at h
  dsimp only at h
  subst h
  rfl

/-- After looking on the answer is known. -/
lemma Looked.hasNext {found : Bool} {i : Input} (h : Looked found i) (env : Environment) :
    (i.hasNext env).1 = found := by
  obtain ⟨htrue, hfalse⟩ := h
  rw [Input.hasNext]
  cases found with
  | true =>
      obtain ⟨r, hr, hagain⟩ := htrue rfl
      have hcurrent := hasNextCurrent_of_some hr (hagain env.storage)
      cases i.pending with
      | nil => exact hcurrent
      | cons name rest =>
          rw [hasNextFrom]
          rcases hc : i.hasNextCurrent env with ⟨found, i', env'⟩
          rw [hc] at hcurrent
          dsimp only at hcurrent
          subst hcurrent
          rfl
  | false =>
      obtain ⟨hr, hpending⟩ := hfalse rfl
      cases hp : i.pending with
      | nil => rw [hasNextFrom, hasNextCurrent_of_none hr]
      | cons name rest =>
          rw [hp] at hpending
          have hs : i.separate = true := hpending.resolve_left (by simp)
          rw [hasNextFrom, hasNextCurrent_of_none hr]
          simp [hs]

/-- A record that was found can be read, whatever happens to the files before. -/
lemma Looked.read {i : Input} (h : Looked true i) (env : Environment) :
    ∃ record, (i.read env).1 = some record := by
  obtain ⟨r, hr, hnext⟩ := h.1 rfl
  have hleft : r.left env.storage ≠ [] := by
    obtain ⟨-, -, -, hleft, -⟩ | ⟨hnone, -⟩ := r.hasNext_spec env.storage
    · exact hleft
    · rw [hnext] at hnone
      obtain hfalse | ⟨fault, hfault⟩ := hnone
      · cases hfalse
      · cases hfault
  obtain ⟨record, r', s', hread, -⟩ | ⟨-, hspent, -⟩ := r.read_spec i.separator env.storage
  · refine ⟨record, ?_⟩
    have hcurrent : (i.readCurrent env).1 = some record := by
      rw [readCurrent, hr]
      dsimp only
      rw [hread]
    rw [Input.read]
    cases i.pending with
    | nil => exact hcurrent
    | cons name rest =>
        rw [readFrom]
        rcases hc : i.readCurrent env with ⟨found, i', env'⟩
        rw [hc] at hcurrent
        dsimp only at hcurrent
        subst hcurrent
        rfl
  · exact absurd hspent hleft

/-- Asked again, the input gives the same answer, whatever happened to the files. -/
theorem hasNext_again (i : Input) (env env' : Environment) :
    ((i.hasNext env).2.1.hasNext env').1 = (i.hasNext env).1 :=
  (looked_hasNextFrom i env i.pending).hasNext env'

end Input

end StreamEditor
