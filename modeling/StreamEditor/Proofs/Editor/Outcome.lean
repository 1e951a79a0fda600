import StreamEditor.Proofs.Editor.Edits

/-!
How whole runs end.

* `Editor.Concludes`: a run ends, and its output is delivered. It ends in one way only
  (`Editor.Concludes.unique`), from wherever on its way it is looked at
  (`Editor.concludes_iff_of_advance`).
* `Editor.SameOutcome`: two runs leave the same behind.
* `Editor.outcome?`: the end of a run, computed; `Editor.concludes_of_outcome?` says what it means.
-/

namespace StreamEditor

/-- What was sent to the standard error stream, the events left out. -/
def Environment.said (env : Environment) : List Bytes :=
  env.notes.filterMap fun
    | .bytes b => some b
    | .event _ => none

namespace Editor

/-- A run from `e₀` ends, and after its output is delivered it has the given result and leaves
`e`. -/
def Concludes (p : Program) (e₀ : Editor) (result : Except Failure ℕ) (e : Editor) : Prop :=
  ∃ k r e₁, advance p k .reading e₀ = (.finished r, e₁) ∧ conclude r e₁ = (result, e)

section Concludes

variable {p : Program} {e₀ e₁ e e' : Editor} {result result' : Except Failure ℕ} {k : ℕ}

/-- A run that goes through `e₁` ends as it does from there. -/
lemma concludes_iff_of_advance (h : advance p k .reading e₀ = (.reading, e₁)) :
    Concludes p e₀ result e ↔ Concludes p e₁ result e := by
  constructor
  · rintro ⟨n, r, e₂, hrun, hend⟩
    obtain hle | hlt := le_or_gt n k
    · obtain ⟨d, rfl⟩ := Nat.exists_eq_add_of_le hle
      rw [advance_add, hrun, advance_finished] at h
      cases h
    · obtain ⟨d, rfl⟩ := Nat.exists_eq_add_of_le hlt.le
      rw [advance_add, h] at hrun
      exact ⟨d, r, e₂, hrun, hend⟩
  · rintro ⟨n, r, e₂, hrun, hend⟩
    refine ⟨k + n, r, e₂, ?_, hend⟩
    rw [advance_add, h]
    exact hrun

/-- How the run ended does not matter for what is flushed. -/
lemma conclude_snd (r : Except Failure ℕ) (e : Editor) : (conclude r e).2 = (flush.run e).2 := by
  rw [conclude]
  rcases flush.run e with ⟨_ | _, _⟩ <;> rfl

/-- A failure of the run counts before one to deliver, and this before the exit code. -/
lemma conclude_fst (r : Except Failure ℕ) (e : Editor) :
    (conclude r e).1 = r.bind fun code => (flush.run e).1.map fun _ => code := by
  rw [conclude]
  rcases flush.run e with ⟨_ | _, _⟩ <;> cases r <;> rfl

lemma conclude_error (failure : Failure) (e : Editor) :
    (conclude (.error failure) e).1 = .error failure := conclude_fst _ e

/-- Two runs end alike if flushing is alike. -/
lemma AgreesAt.conclude {R : Editor → Editor → Prop} (h : AgreesAt R flush flush e e')
    (r : Except Failure ℕ) : (conclude r e').1 = (conclude r e).1 ∧
      R (conclude r e).2 (conclude r e').2 := by
  rw [conclude_fst, conclude_fst, conclude_snd, conclude_snd, h.1]
  exact ⟨rfl, h.2⟩

lemma Concludes.unique (h : Concludes p e₀ result e) (h' : Concludes p e₀ result' e') :
    result' = result ∧ e' = e := by
  obtain ⟨n, r, e₁, hrun, hend⟩ := h
  obtain ⟨n', r', e₁', hrun', hend'⟩ := h'
  have hsame : (Stage.finished r', e₁') = (.finished r, e₁) := by
    obtain hle | hle := le_total n n'
    · obtain ⟨d, rfl⟩ := Nat.exists_eq_add_of_le hle
      rw [← hrun', advance_add, hrun, advance_finished]
    · obtain ⟨d, rfl⟩ := Nat.exists_eq_add_of_le hle
      rw [← hrun, advance_add, hrun', advance_finished]
  cases hsame
  rw [hend] at hend'
  cases hend'
  exact ⟨rfl, rfl⟩

end Concludes

/-- What two runs leave behind is the same; the events told are left out. -/
structure SameOutcome (e e' : Editor) : Prop where
  delivered : e'.output.sink.delivered = e.output.sink.delivered
  storage : e'.close.storage = e.close.storage
  status : e'.environment.status = e.environment.status
  said : e'.environment.said = e.environment.said

/-- What is observed of a program and of the editor that starts it on some files. -/
def started? {α : Type} (observe : Program → Editor → α) (parsed : Except Failure Program)
    (o : Options) (names : List Text) (storage : Storage) : Option α :=
  match parsed with
  | .error _ => none
  | .ok p =>
      match (start? p o (.ofFiles names o.separator o.separate) .unlimited (.start storage)).1 with
      | .error _ => none
      | .ok e₀ => some (observe p e₀)

lemma start_of_started? {α : Type} {observe : Program → Editor → α}
    {parsed : Except Failure Program} {o : Options} {names : List Text} {storage : Storage}
    {seen : α} (h : started? observe parsed o names storage = some seen) :
    ∃ p e₀, parsed = .ok p ∧
      (start? p o (.ofFiles names o.separator o.separate) .unlimited (.start storage)).1 = .ok e₀ ∧
      observe p e₀ = seen := by
  unfold started? at h
  split at h
  · cases h
  · split at h
    · cases h
    · rename_i p _ e₀ he
      exact ⟨p, e₀, rfl, he, Option.some.inj h⟩

/-- How a program ends on some files within so many steps, with what is observed of the editor
then. -/
def outcome? {α : Type} (observe : Editor → α) (parsed : Except Failure Program) (o : Options)
    (names : List Text) (storage : Storage) (count : ℕ) : Option (Except Failure ℕ × α) :=
  match parsed with
  | .error _ => none
  | .ok p =>
      match (start? p o (.ofFiles names o.separator o.separate) .unlimited (.start storage)).1 with
      | .error _ => none
      | .ok e₀ =>
          match advance p count .reading e₀ with
          | (.finished r, e) => some ((conclude r e).1, observe (conclude r e).2)
          | _ => none

lemma concludes_of_outcome? {α : Type} {observe : Editor → α} {parsed : Except Failure Program}
    {o : Options} {names : List Text} {storage : Storage} {count : ℕ} {result : Except Failure ℕ}
    {seen : α} (h : outcome? observe parsed o names storage count = some (result, seen)) :
    ∃ p e₀ e, parsed = .ok p ∧
      (start? p o (.ofFiles names o.separator o.separate) .unlimited (.start storage)).1 = .ok e₀ ∧
      Concludes p e₀ result e ∧ observe e = seen := by
  unfold outcome? at h
  split at h
  · cases h
  · rename_i p
    split at h
    · cases h
    · rename_i e₀ he
      split at h
      · rename_i r e hrun
        cases h
        exact ⟨p, e₀, _, rfl, he, ⟨count, r, e, hrun, rfl⟩, rfl⟩
      · cases h

end Editor

end StreamEditor
