import Mathlib.Tactic
import StreamEditor.Cursor
import StreamEditor.Script

/-!
Sources, one after the other.

* `Cursor.lineColumnAfter_append`: behind whole lines, lines and columns are counted as before.
* `Script.Part`, `Source.Gives`: the name and the contents of a source as it is read.
* `Script.load_eq_ok_iff`: a script is loaded just if all of its sources can be read, and is made up
  of what they give.
* `Script.location_append`: the lines of a source are counted from where it was added.
-/

namespace StreamEditor

/-! ### Lines and columns -/

namespace Cursor

lemma lineColumnAfter_concat (t : Text) (c : Char) :
    lineColumnAfter (t ++ [c]) =
      if c = '\n' then ((lineColumnAfter t).1 + 1, 1)
      else ((lineColumnAfter t).1, (lineColumnAfter t).2 + 1) := by
  rw [lineColumnAfter, List.foldl_append, ← lineColumnAfter]
  rfl

/-- The line is the number of newlines before. -/
lemma lineColumnAfter_fst (t : Text) : (lineColumnAfter t).1 = t.count '\n' := by
  induction t using List.reverseRecOn with
  | nil => rfl
  | append_singleton t c ih =>
      rw [lineColumnAfter_concat, List.count_append]
      by_cases hc : c = '\n' <;> simp [hc, ih]

/-- Behind whole lines, lines and columns are counted as in a text by itself. -/
lemma lineColumnAfter_append {before : Text} (h : before.getLast? = some '\n') (t : Text) :
    lineColumnAfter (before ++ t) =
      (before.count '\n' + (lineColumnAfter t).1, (lineColumnAfter t).2) := by
  induction t using List.reverseRecOn with
  | nil =>
      obtain ⟨init, rfl⟩ := List.getLast?_eq_some_iff.1 h
      rw [List.append_nil]
      refine Prod.ext (lineColumnAfter_fst _) ?_
      rw [lineColumnAfter_concat, if_pos rfl]
      rfl
  | append_singleton t c ih =>
      rw [← List.append_assoc, lineColumnAfter_concat, lineColumnAfter_concat, ih]
      split <;> rfl

end Cursor

/-! ### What sources give -/

/-- The name and the contents of a source. -/
structure Script.Part where
  name : Text
  contents : Text
  deriving DecidableEq, Repr

open Script (Part)

/-- What a source gives when it is read. -/
inductive Source.Gives : Storage → Source → Part → Storage → Prop
  | text (storage : Storage) (script : Text) :
      Gives storage (.text script) ⟨Script.nameOf script, script⟩ storage
  | standardInput {storage : Storage} {contents : Text}
      (hcontents : Text.decode? storage.standardInput = some contents) :
      Gives storage (.file ['-']) ⟨Text.ofString "<stdin>", contents⟩
        { storage with standardInput := [] }
  | file {storage storage' : Storage} {name contents : Text} {bytes : Bytes} (hname : name ≠ ['-'])
      (hread : storage.read? name = (.ok bytes, storage'))
      (hcontents : Text.decode? bytes = some contents) :
      Gives storage (.file name) ⟨name, contents⟩ storage'

/-- What sources give when they are read in order. -/
inductive Source.GiveAll : Storage → List Source → List Part → Storage → Prop
  | nil (storage : Storage) : GiveAll storage [] [] storage
  | cons {s s' s'' : Storage} {source : Source} {part : Part} {sources : List Source}
      {parts : List Part} (first : Gives s source part s') (rest : GiveAll s' sources parts s'') :
      GiveAll s (source :: sources) (part :: parts) s''

namespace Script

/-- Adds the contents of several sources. -/
def appendParts (s : Script) (parts : List Part) : Script :=
  parts.foldl (fun s part => s.append part.name part.contents) s

section Read

variable {s s' : Script} {storage storage' : Storage}

/-- A source is added just if it can be read. -/
lemma appendSource_eq_ok_iff {source : Source} :
    s.appendSource storage source = (.ok s', storage') ↔
      ∃ part : Part, source.Gives storage part storage' ∧
      s' = s.append part.name part.contents := by
  constructor
  · intro h
    cases source with
    | text script =>
        cases h
        exact ⟨_, .text storage script, rfl⟩
    | file name =>
        rw [appendSource] at h
        split at h
        · rename_i hinput
          subst hinput
          split at h
          · rename_i contents hcontents
            cases h
            exact ⟨_, .standardInput hcontents, rfl⟩
          · cases h
        · rename_i hname
          split at h
          · cases h
          · rename_i bytes rest hread
            split at h
            · rename_i contents hcontents
              cases h
              exact ⟨_, .file hname hread hcontents, rfl⟩
            · cases h
  · rintro ⟨part, hgives, rfl⟩
    cases hgives with
    | text => rfl
    | standardInput hcontents => simp only [appendSource, if_pos, hcontents]
    | file hname hread hcontents => simp only [appendSource, if_neg hname, hread, hcontents]

lemma appendSources_eq_ok_iff {sources : List Source} :
    s.appendSources storage sources = (.ok s', storage') ↔
      ∃ parts, Source.GiveAll storage sources parts storage' ∧ s' = s.appendParts parts := by
  induction sources generalizing s storage with
  | nil =>
      rw [appendSources]
      constructor
      · rintro ⟨⟩
        exact ⟨[], .nil _, rfl⟩
      · rintro ⟨parts, ⟨⟩, rfl⟩
        rfl
  | cons source sources ih =>
      rw [appendSources]
      constructor
      · intro h
        split at h
        · rename_i s₁ storage₁ hfirst
          obtain ⟨part, hgives, rfl⟩ := appendSource_eq_ok_iff.1 hfirst
          obtain ⟨parts, hrest, rfl⟩ := ih.1 h
          exact ⟨part :: parts, .cons hgives hrest, rfl⟩
        · cases h
      · rintro ⟨parts, hall, rfl⟩
        cases hall with
        | cons first rest =>
            rw [appendSource_eq_ok_iff.2 ⟨_, first, rfl⟩]
            exact ih.2 ⟨_, rest, rfl⟩

/-- A script is loaded just if all of its sources can be read, and is made up of what they give. -/
lemma load_eq_ok_iff {sources : List Source} :
    load storage sources = (.ok s, storage') ↔
      ∃ parts, Source.GiveAll storage sources parts storage' ∧ s = empty.appendParts parts :=
  appendSources_eq_ok_iff

end Read

/-! ### Places -/

section Places

variable (name contents : Text)

lemma getLast?_terminated : (terminated contents).getLast? = some '\n' := by
  rw [terminated]
  split
  · assumption
  · exact List.getLast?_concat

@[simp] lemma text_append (s : Script) : (s.append name contents).text =
    s.text ++ terminated contents := rfl

/-- The lines of a source are counted from where it was added. -/
lemma location_append (s : Script) (line column : ℕ) :
    (s.append name contents).location line column =
      if s.text.count '\n' ≤ line then ⟨name, line - s.text.count '\n' + 1, column⟩
      else s.location line column := by
  by_cases h : s.text.count '\n' ≤ line <;> simp [location, append, h]

/-- Before the last character there are fewer newlines. -/
lemma count_take_lt {position : ℕ} (h : position < (terminated contents).length) :
    ((terminated contents).take position).count '\n' < (terminated contents).count '\n' := by
  obtain ⟨init, hinit⟩ := List.getLast?_eq_some_iff.1 (getLast?_terminated contents)
  rw [hinit] at h ⊢
  rw [List.length_append, List.length_singleton] at h
  rw [List.take_append_of_le_length (Nat.le_of_lt_succ h), List.count_append]
  have hle := (List.take_sublist position init).count_le '\n'
  simp only [List.count_singleton_self]
  omega

end Places

end Script

end StreamEditor
