import Mathlib.Tactic
import StreamEditor.Writer

/-!
How the files of a program are opened, one after the other.

* `Storage.create?_eq_ok`: a name leads to a device, or to a file that is emptied.
* `Writer.openAll_cons_eq_ok`: the first file is opened, and then the others.
* `Writer.forall₂_of_openAll`: each file gets one writer, to what its name leads to.
* `Writer.paths_of_openAll`: what emptying a file brings about, and does not undo for others, is so
  of all files that were opened.
-/

namespace StreamEditor

namespace Storage

variable {s s' : Storage} {name : Text} {node : Node}

lemma device?_ne_file (p q : Path) (data : Bytes) : device? p ≠ some (.file q data) := by
  unfold device?
  split_ifs <;> exact fun h => nomatch h

/-- A name leads to a device, or to a file that is emptied. -/
lemma create?_eq_ok (h : s.create? name = (.ok node, s')) :
    ((∀ path data, node ≠ .file path data) ∧ s' = s) ∨
      ∃ way, node = .file way [] ∧ s' = s.set way [] := by
  rw [create?] at h
  split at h
  · cases h
  split at h
  · rename_i hdevice
    cases h
    exact .inl ⟨fun path data he => device?_ne_file _ path data (he ▸ hdevice), rfl⟩
  split at h
  · cases h
  · cases h
    exact .inr ⟨_, rfl, rfl⟩

end Storage

namespace Writer

variable {files : List OutputFile} {writers : List Writer} {s s' : Storage} {f : OutputFile}
  {separator : UInt8}

/-- Only a writer to a file has a path. -/
lemma eq_file_of_path_ofNode {node : Node} {path : Path}
    (h : (ofNode f separator node).path = some path) : ∃ data, node = .file path data := by
  cases node with
  | file q data =>
      cases h
      exact ⟨data, rfl⟩
  | _ => cases h

/-- The first file is opened, and then the others. -/
lemma openAll_cons_eq_ok (h : openAll separator s (f :: files) = (.ok writers, s')) :
    ∃ node s₁ rest, s.create? f.name = (.ok node, s₁) ∧
      openAll separator s₁ files = (.ok rest, s') ∧ writers = ofNode f separator node :: rest := by
  rw [openAll] at h
  rcases hcreate : s.create? f.name with ⟨fault | node, s₁⟩ <;> rw [hcreate] at h
  · cases h
  dsimp only at h
  rcases hrest : openAll separator s₁ files with ⟨failure | rest, s₂⟩ <;> rw [hrest] at h
  · cases h
  cases h
  exact ⟨node, s₁, rest, rfl, hrest, rfl⟩

/-- Each file gets one writer, to what its name leads to. -/
lemma forall₂_of_openAll (h : openAll separator s files = (.ok writers, s')) :
    List.Forall₂ (fun f w => ∃ node, w = ofNode f separator node) files writers := by
  induction files generalizing s writers with
  | nil =>
      cases h
      exact .nil
  | cons f files ih =>
      obtain ⟨node, s₁, rest, -, hrest, rfl⟩ := openAll_cons_eq_ok h
      exact .cons ⟨node, rfl⟩ (ih hrest)

lemma length_of_openAll (h : openAll separator s files = (.ok writers, s')) :
    writers.length = files.length :=
  (forall₂_of_openAll h).length_eq.symm

lemma names_of_openAll (h : openAll separator s files = (.ok writers, s')) :
    writers.map (·.name) = files.map (·.name) := by
  rw [← List.forall₂_eq_eq_eq, List.forall₂_map_left_iff, List.forall₂_map_right_iff]
  refine (forall₂_of_openAll h).flip.imp fun w f hw => ?_
  obtain ⟨node, rfl⟩ := hw
  cases node <;> rfl

/-- What is so of every writer before it is used. -/
lemma forall_of_openAll {P : Writer → Prop} (hnew : ∀ f node, P (ofNode f separator node))
    (h : openAll separator s files = (.ok writers, s')) : ∀ w ∈ writers, P w := by
  have hall := forall₂_of_openAll h
  clear h
  induction hall with
  | nil => exact fun _ hw => absurd hw List.not_mem_nil
  | cons hfirst _ ih =>
      obtain ⟨node, rfl⟩ := hfirst
      exact List.forall_mem_cons.2 ⟨hnew _ node, ih⟩

/-- What emptying a file brings about, and does not undo for others, is so of all files that were
opened. -/
lemma paths_of_openAll {P : Storage → Path → Prop}
    (hset : ∀ s way path, path = way ∨ P s path → P (s.set way []) path)
    (h : openAll separator s files = (.ok writers, s')) :
    (∀ path, P s path → P s' path) ∧
      ∀ w ∈ writers, ∀ path, w.path = some path → P s' path := by
  induction files generalizing s writers with
  | nil =>
      cases h
      exact ⟨fun _ => id, fun _ hw => absurd hw List.not_mem_nil⟩
  | cons f files ih =>
      obtain ⟨node, s₁, rest, hcreate, hrest, rfl⟩ := openAll_cons_eq_ok h
      obtain ⟨hkept, hwriters⟩ := ih hrest
      obtain ⟨hdevice, rfl⟩ | ⟨way, rfl, rfl⟩ := Storage.create?_eq_ok hcreate
      · refine ⟨hkept, List.forall_mem_cons.2 ⟨fun path hpath => ?_, hwriters⟩⟩
        obtain ⟨data, hfile⟩ := eq_file_of_path_ofNode hpath
        exact absurd hfile (hdevice path data)
      · refine ⟨fun path hpath => hkept path (hset _ _ _ (.inr hpath)),
          List.forall_mem_cons.2 ⟨fun path hpath => hkept path (hset _ _ _ (.inl ?_)), hwriters⟩⟩
        exact (Option.some.inj hpath).symm

end Writer

end StreamEditor
