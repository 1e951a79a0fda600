import Mathlib.Data.List.DropRight
import StreamEditor.Proofs.Program.Sources

/-!
Where the characters of a script come from.

* `Cursor.lineColumnAfter_eq`: lines are counted by newlines, columns from the last of them.
* `Cursor.lineColumn_injOn`: line and column grow with the position, so no two positions share them.
* `Script.location_part`: a character of a part is found at its own line and column in this part.
* `Script.load_locates`: so is every character of the sources of a script that was loaded.
-/

namespace StreamEditor

/-! ### Lines and columns -/

/-- The line of a character, counted from one, in a text that begins with `before`. -/
def Text.lineAfter (before : Text) : ℕ := before.count '\n' + 1

/-- The column of a character, counted from one, in a text that begins with `before`. -/
def Text.columnAfter (before : Text) : ℕ := (before.rtakeWhile (· ≠ '\n')).length + 1

namespace Cursor

/-- The column is counted from the last newline. -/
lemma lineColumnAfter_snd (t : Text) : (lineColumnAfter t).2 = Text.columnAfter t := by
  induction t using List.reverseRecOn with
  | nil => rfl
  | append_singleton t c ih =>
      rw [lineColumnAfter_concat, Text.columnAfter, List.rtakeWhile_concat]
      by_cases hc : c = '\n'
      · simp [hc]
      · simp [hc, ih, Text.columnAfter]

lemma lineColumnAfter_eq (t : Text) :
    lineColumnAfter t = (t.count '\n', Text.columnAfter t) :=
  Prod.ext (lineColumnAfter_fst t) (lineColumnAfter_snd t)

/-- Whatever is passed, the line or else the column grows. -/
lemma lineColumnAfter_lt (t : Text) {more : Text} (hmore : more ≠ []) :
    toLex (lineColumnAfter t) < toLex (lineColumnAfter (t ++ more)) := by
  have hstep (u : Text) (c : Char) :
      toLex (lineColumnAfter u) < toLex (lineColumnAfter (u ++ [c])) := by
    rw [lineColumnAfter_concat]
    split
    · exact Prod.Lex.toLex_lt_toLex.2 (.inl (Nat.lt_succ_self _))
    · exact Prod.Lex.toLex_lt_toLex.2 (.inr ⟨rfl, Nat.lt_succ_self _⟩)
  induction more using List.reverseRecOn with
  | nil => exact absurd rfl hmore
  | append_singleton more c ih =>
      rw [← List.append_assoc]
      obtain rfl | hne := eq_or_ne more []
      · rw [List.append_nil]
        exact hstep t c
      · exact (ih hne).trans (hstep _ c)

/-- Before different characters of a text there are different lines or columns. -/
lemma lineColumnAfter_take_injOn (t : Text) :
    Set.InjOn (fun n => lineColumnAfter (t.take n)) {n | n ≤ t.length} := by
  have hlt : StrictMonoOn (fun n => toLex (lineColumnAfter (t.take n))) {n | n ≤ t.length} := by
    intro m _ n (hn : n ≤ t.length) hmn
    obtain ⟨k, rfl⟩ := Nat.exists_eq_add_of_lt hmn
    dsimp only
    rw [Nat.add_assoc, List.take_add]
    refine lineColumnAfter_lt _ (List.ne_nil_of_length_pos ?_)
    rw [List.length_take, List.length_drop]
    omega
  intro m hm n hn he
  exact hlt.injOn hm hn (congrArg toLex he)

/-- No two positions have the same line and column. -/
lemma lineColumn_injOn (c : Cursor) : Set.InjOn c.lineColumn {p | p ≤ c.text.length} :=
  lineColumnAfter_take_injOn c.text

end Cursor

namespace Script

/-! ### Parts of a script -/

/-- The text that parts make up. -/
def joined (parts : List Part) : Text := parts.flatMap fun part => terminated part.contents

section Parts

variable (s : Script) (parts : List Part)

@[simp] lemma text_appendParts : (s.appendParts parts).text = s.text ++ joined parts := by
  induction parts generalizing s with
  | nil => exact (List.append_nil _).symm
  | cons part parts ih =>
      rw [appendParts, List.foldl_cons, ← appendParts, ih, text_append, List.append_assoc]
      rfl

/-- What is added behind a line makes no difference to its place. -/
lemma location_appendParts {line : ℕ} (h : line < s.text.count '\n') (column : ℕ) :
    (s.appendParts parts).location line column = s.location line column := by
  induction parts generalizing s with
  | nil => rfl
  | cons part parts ih =>
      have hmore : line < (s.append part.name part.contents).text.count '\n' := by
        rw [text_append, List.count_append]
        exact Nat.lt_add_right _ h
      rw [appendParts, List.foldl_cons, ← appendParts, ih _ hmore, location_append,
        if_neg (Nat.not_le.2 h)]

lemma getLast?_joined (hne : parts ≠ []) : (joined parts).getLast? = some '\n' := by
  obtain ⟨front, part, rfl⟩ := (List.eq_nil_or_concat' parts).resolve_left hne
  rw [joined, List.flatMap_append, List.flatMap_singleton, List.getLast?_append,
    getLast?_terminated]
  rfl

/-- The last line of a text is ended behind its characters. -/
lemma prefix_terminated (contents : Text) : contents <+: terminated contents := by
  rw [terminated]
  split
  · exact List.prefix_rfl
  · exact List.prefix_append _ _

end Parts

section Part

variable {before after : List Part} {part : Part} {i : ℕ}

/-- The characters of a part stand in the text behind those of the parts before it. -/
lemma text_part (before after : List Part) (part : Part) :
    ∃ rest, (empty.appendParts (before ++ part :: after)).text =
      joined before ++ (part.contents ++ rest) := by
  obtain ⟨ending, hending⟩ := prefix_terminated part.contents
  refine ⟨ending ++ joined after, ?_⟩
  rw [text_appendParts, joined, List.flatMap_append, List.flatMap_cons, ← hending]
  simp [empty, joined]

/-- A character of a part is found at its own line and column in this part. -/
lemma location_part (hi : i < part.contents.length) :
    let script := empty.appendParts (before ++ part :: after)
    let (line, column) :=
      Cursor.lineColumnAfter (script.text.take ((joined before).length + i))
    script.location line column = ⟨part.name, Text.lineAfter (part.contents.take i),
      Text.columnAfter (part.contents.take i)⟩ := by
  intro script
  obtain ⟨rest, htext⟩ := text_part before after part
  have hplace : Cursor.lineColumnAfter (script.text.take ((joined before).length + i)) =
      ((joined before).count '\n' + (part.contents.take i).count '\n',
        Text.columnAfter (part.contents.take i)) := by
    have hown := Cursor.lineColumnAfter_eq (part.contents.take i)
    rw [show script.text = _ from htext, List.take_length_add_append,
      List.take_append_of_le_length hi.le]
    obtain rfl | hne := eq_or_ne before []
    · simpa [joined] using hown
    · rw [Cursor.lineColumnAfter_append (getLast?_joined before hne), hown]
  -- in all of the part there is another newline, behind the character
  have hline : (part.contents.take i).count '\n' < (terminated part.contents).count '\n' := by
    obtain ⟨ending, hending⟩ := prefix_terminated part.contents
    have hlt := count_take_lt part.contents
      (hi.trans_le (prefix_terminated part.contents).length_le)
    rwa [← hending, List.take_append_of_le_length hi.le, hending] at hlt
  rw [hplace]
  dsimp only
  have hscript : script =
      ((empty.appendParts before).append part.name part.contents).appendParts after :=
    List.foldl_append
  have hcount : (empty.appendParts before).text.count '\n' = (joined before).count '\n' := by
    rw [text_appendParts]
    rfl
  rw [hscript, location_appendParts, location_append, hcount, if_pos (Nat.le_add_right _ _),
    Nat.add_sub_cancel_left]
  · rfl
  · rw [text_append, List.count_append, hcount]
    exact Nat.add_lt_add_left hline _

end Part

/-- A script that was loaded is made up of what its sources gave. From its text every character of a
source is found again under the name of the source, at its own line and column there; no two
characters of a source have the same place, and no two positions of the text the same line and
column. -/
theorem load_locates {storage storage' : Storage} {sources : List Source} {script : Script}
    (h : load storage sources = (.ok script, storage')) {cursor : Cursor}
    (hcursor : cursor.text = script.text) :
    ∃ parts, Source.GiveAll storage sources parts storage' ∧
      (∀ before part after, parts = before ++ part :: after →
        let place (i : ℕ) : Location :=
          let (line, column) := cursor.lineColumn ((joined before).length + i)
          script.location line column
        (∀ i < part.contents.length,
          script.text[(joined before).length + i]? = part.contents[i]? ∧
          place i = ⟨part.name, Text.lineAfter (part.contents.take i),
            Text.columnAfter (part.contents.take i)⟩) ∧
        Set.InjOn place {i | i < part.contents.length}) ∧
      Set.InjOn cursor.lineColumn {p | p ≤ script.text.length} := by
  obtain ⟨parts, hgive, rfl⟩ := load_eq_ok_iff.1 h
  refine ⟨parts, hgive, ?_, hcursor ▸ cursor.lineColumn_injOn⟩
  rintro before part after rfl place
  have hplace : ∀ i < part.contents.length,
      place i = ⟨part.name, Text.lineAfter (part.contents.take i),
        Text.columnAfter (part.contents.take i)⟩ := by
    intro i hi
    dsimp only [place, Cursor.lineColumn]
    rw [hcursor]
    exact location_part hi
  refine ⟨fun i hi => ⟨?_, hplace i hi⟩, fun i hi j hj he => ?_⟩
  · obtain ⟨rest, htext⟩ := text_part before after part
    rw [htext, List.getElem?_append_right (Nat.le_add_right _ _), Nat.add_sub_cancel_left,
      List.getElem?_append_left hi]
  · rw [hplace i hi, hplace j hj, Location.mk.injEq] at he
    refine Cursor.lineColumnAfter_take_injOn part.contents (Nat.le_of_lt hi) (Nat.le_of_lt hj) ?_
    dsimp only
    rw [Cursor.lineColumnAfter_eq, Cursor.lineColumnAfter_eq, he.2.2,
      Nat.add_right_cancel he.2.1]

/-- The last character of the third source, which is read behind an empty one. -/
theorem load_locates_third :
    let storage : Storage := { Storage.empty with standardInput := Text.utf8 ['\n', 'q'] }
    let sources : List Source := [.text ['p', '\n', 'p'], .text [], .file ['-']]
    let input := Text.ofString "<stdin>"
    let script : Script := ⟨['p', '\n', 'p', '\n', '\n', '\n', 'q', '\n'],
      [⟨['p', '.', '.', '.'], 0⟩, ⟨[], 2⟩, ⟨input, 3⟩]⟩
    let cursor := Cursor.start script.text
    load storage sources = (.ok script, Storage.empty) ∧ cursor.text = script.text ∧
      script.location (cursor.lineColumn 6).1 (cursor.lineColumn 6).2 = ⟨input, 2, 1⟩ := by
  intro storage sources input script cursor
  have hload : load storage sources = (.ok script, Storage.empty) := by decide
  have hcursor : cursor.text = script.text := rfl
  obtain ⟨parts, hgive, hplaces, -⟩ := load_locates hload hcursor
  have hparts :
      parts = [⟨['p', '.', '.', '.'], ['p', '\n', 'p']⟩, ⟨[], []⟩, ⟨input, ['\n', 'q']⟩] := by
    dsimp only [sources] at hgive
    obtain ⟨⟩ | ⟨⟨⟩, ⟨⟩ | ⟨⟨⟩, ⟨⟩ | ⟨third, ⟨⟩⟩⟩⟩ := hgive
    cases third with
    | standardInput hcontents =>
        have hdecode : Text.decode? storage.standardInput = some ['\n', 'q'] := by decide
        obtain rfl := Option.some.inj (hdecode.symm.trans hcontents)
        rfl
    | file hname => exact absurd rfl hname
  exact ⟨hload, rfl, ((hplaces [_, _] _ [] hparts).1 1 (by decide)).2⟩

end Script

end StreamEditor
