import StreamEditor.Proofs.Editor.Edits
import StreamEditor.Proofs.Parser.Reread
import StreamEditor.Regex.Builtin

/-!
Transliterating one set of characters into another.

* `Transliteration.Becomes`: a character becomes the one at its last position in the source;
  `becomes_lookup` says that the table and the entries behind it do just that.
* `Quoted.transliteration`: the script that transliterates one text into another, both quoted.
* `parse_quoted_transliterates`: it is read as one command, which replaces character by character;
  if the texts are not of the same length, the script is refused.
-/

namespace StreamEditor

/-! ### Characters -/

namespace Transliteration

/-- A character that is not in the source stays; others become what stands in the target at their
last position. -/
inductive Becomes (source target : Text) (c : Char) : Char → Prop
  | kept (h : c ∉ source) : Becomes source target c c
  | replaced {i : ℕ} {d : Char} (hsource : source[i]? = some c) (htarget : target[i]? = some d)
      (hlast : ∀ j > i, source[j]? ≠ some c) : Becomes source target c d

/-- There is one last position. -/
lemma rightUnique_becomes (source target : Text) :
    Relator.RightUnique (Becomes source target) := by
  rintro c d d' (hnot | @⟨i, d, hi, hd, hlast⟩) (hnot' | @⟨i', d', hi', hd', hlast'⟩)
  · rfl
  · exact absurd (List.mem_of_getElem? hi') hnot
  · exact absurd (List.mem_of_getElem? hi) hnot'
  · obtain rfl : i = i' := by
      rcases lt_trichotomy i i' with hlt | rfl | hlt
      · exact absurd hi' (hlast i' hlt)
      · rfl
      · exact absurd hi (hlast' i hlt)
    rw [hd] at hd'
    exact Option.some.inj hd'

/-- Of the pairs of a character the last is the one that is found. -/
lemma becomes_lookup {y : Transliteration} (h : y.source.length = y.target.length) (c : Char) :
    Becomes y.source y.target c (y.lookup c) := by
  have hsource : y.pairs.map Prod.fst = y.source := List.map_fst_zip h.le
  have htarget : y.pairs.map Prod.snd = y.target := List.map_snd_zip h.ge
  rw [lookup_eq, ← hsource, ← htarget]
  cases hfound : y.pairs.reverse.lookup c with
  | none =>
      refine .kept fun hmem => ?_
      obtain ⟨pair, hpair, rfl⟩ := List.mem_map.1 hmem
      have hne := List.lookup_eq_none_iff.1 hfound pair (List.mem_reverse.2 hpair)
      simp at hne
  | some d =>
      obtain ⟨later, earlier, hpairs, hlater⟩ := List.lookup_eq_some_iff.1 hfound
      have hsplit : y.pairs = earlier.reverse ++ (c, d) :: later.reverse := by
        rw [← y.pairs.reverse_reverse, hpairs]
        simp
      rw [hsplit]
      refine .replaced (i := earlier.length) (by simp) (by simp) fun j hj hc => ?_
      rw [List.getElem?_map, List.getElem?_append_right (by simpa using hj.le),
        List.length_reverse] at hc
      obtain ⟨k, rfl⟩ := Nat.exists_eq_add_of_lt hj
      have hmem : ∃ pair ∈ later, pair.1 = c := by
        rw [show earlier.length + k + 1 - earlier.length = k + 1 by omega,
          List.getElem?_cons_succ, Option.map_eq_some_iff] at hc
        obtain ⟨pair, hpair, rfl⟩ := hc
        exact ⟨pair, List.mem_reverse.1 (List.mem_of_getElem? hpair), rfl⟩
      obtain ⟨pair, hpair, rfl⟩ := hmem
      simpa using hlater pair hpair

/-- A text is replaced character by character. -/
lemma forall₂_becomes_apply (y : Transliteration) (h : y.source.length = y.target.length)
    (text : Text) : List.Forall₂ (Becomes y.source y.target) text (y.apply text) := by
  change List.Forall₂ _ text (text.map y.lookup)
  rw [List.forall₂_map_right_iff]
  exact List.forall₂_same.2 fun c _ => becomes_lookup h c

end Transliteration

/-! ### Scripts -/

namespace Quoted

open Regex.BasicNotation (escapeIf)

/-- A character of a quoted set. -/
def setChar (c : Char) : Text :=
  if c = '\n' then ['\\', 'n'] else escapeIf (fun c => c = '\\' || c = '/') c

/-- A text as a set of a transliteration between slashes. -/
def set (t : Text) : Text := t.flatMap setChar

/-- A quoted set without the quotes of slashes. -/
def scannedSet (t : Text) : Text :=
  t.flatMap fun c => if c = '\n' then ['\\', 'n'] else escapeIf (fun c => c = '\\') c

lemma fieldReads_set (t : Text) : Scanner.FieldReads (set t) (scannedSet t) := fun passed rest =>
  readUntil_flatMap (readUntil_char (fun c => c = '\\') rfl rfl) t passed rest

/-- Each character is read as itself. -/
lemma unescapeSet_scanned (t : Text) : unescapeSet (scannedSet t) = t := by
  induction t with
  | nil => rfl
  | cons c t ih =>
      rw [scannedSet, List.flatMap_cons, ← scannedSet]
      by_cases hnewline : c = '\n'
      · subst hnewline
        exact congrArg ('\n' :: ·) ih
      by_cases hbackslash : c = '\\'
      · subst hbackslash
        exact congrArg ('\\' :: ·) ih
      have hbare : escapeIf (fun c => c = '\\') c = [c] := by simp [escapeIf, hbackslash]
      rw [if_neg hnewline, hbare, List.singleton_append, unescapeSet, unescapeWith, expand,
        if_neg hbackslash]
      exact congrArg (c :: ·) ih

/-- The script that transliterates one text into another. -/
def transliteration (source target : Text) : Text :=
  'y' :: '/' :: (set source ++ '/' :: (set target ++ ['/']))

lemma text_transliteration (source target : Text) :
    (Script.ofText (transliteration source target)).text =
      'y' :: '/' :: (set source ++ '/' :: (set target ++ ['/', '\n'])) := by
  have hscript : transliteration source target =
      'y' :: '/' :: (set source ++ '/' :: set target) ++ ['/'] := by simp [transliteration]
  rw [hscript, Script.text_ofText_concat _ (by decide)]
  simp

end Quoted

namespace Parser

open Scanner (fieldsTokens Feeds)
open Token (lineEnd)

lemma ahead_transliteration (source target : Text) (o : Options) :
    Ahead (.start (.ofText (Quoted.transliteration source target)) o)
      (⟨.command, ['y']⟩ :: (fieldsTokens (Quoted.scannedSet source) (Quoted.scannedSet target) ++
        [lineEnd, .endOfScript])) := by
  have hfeeds := Scanner.lexes_sets (Quoted.fieldReads_set source) (Quoted.fieldReads_set target)
    Scanner.lexesAfter_end [] 0 none false 0
  rw [← Quoted.text_transliteration] at hfeeds
  exact hfeeds

/-- Behind the letter the sets are scanned at once. -/
lemma ended_transliteration (source target : Text) (o : Options) :
    (start (.ofText (Quoted.transliteration source target)) o).advanced.Ended := by
  have hscanner : (start (.ofText (Quoted.transliteration source target)) o).scanner =
      ⟨⟨['y'], '/' :: (Quoted.set source ++ '/' :: (Quoted.set target ++ ['/', '\n']))⟩,
        .transliteration, [], 0, some .command, false, 0⟩ := by
    change (Scanner.next (.start (Script.ofText _).text)).2 = _
    rw [Quoted.text_transliteration]
    rfl
  change ((start _ o).scanner.next).2.mode = .ending
  rw [hscanner]
  exact Scanner.mode_fields_ending ⟨⟨['y'], '/' :: (Quoted.set source ++ '/' ::
    (Quoted.set target ++ ['/', '\n']))⟩, .transliteration, [], 0, some .command, false, 0⟩

end Parser

open Transliteration (Becomes)

/-- The script that transliterates one text into another is one command if they have the same
length, and that replaces each character of the pattern space, whatever its code point, by what
stands in the second text where the character stands last in the first. Otherwise the script is
refused. -/
theorem Editor.parse_quoted_transliterates [Regex.Library] (o : Options) (source target : Text) :
    (source.length = target.length → ∃ p place,
      Program.parse (.ofText (Quoted.transliteration source target)) o = .ok p ∧
      p.commands = [⟨'y', .all, false, .transliterate ⟨source, target⟩, place⟩] ∧
      ∀ e, ∃ text, List.Forall₂ (Becomes source target) e.pattern text ∧
        (step p (.running 0)).run e = (.ok (.running 1), { e with pattern := text })) ∧
    (source.length ≠ target.length → ∃ place,
      Program.parse (.ofText (Quoted.transliteration source target)) o =
        .error (.script place Complaint.unequalSets.message)) := by
  have hahead := Parser.ahead_transliteration source target o
  have hended := Parser.ended_transliteration source target o
  constructor
  · intro hlength
    obtain ⟨q, hargument, honward, hq⟩ := Parser.reads_transliteration (y := ⟨source, target⟩)
      (Quoted.unescapeSet_scanned source) (Quoted.unescapeSet_scanned target) hlength hended hahead
    have hparse := Program.parse_one hahead.1 rfl hargument honward.draft hq nofun nofun
    refine ⟨_, _, hparse, rfl, fun e => ?_⟩
    let y : Transliteration := ⟨source, target⟩
    refine ⟨y.apply e.pattern, y.forall₂_becomes_apply hlength e.pattern, ?_⟩
    rw [step_of_some rfl]
    rfl
  · intro hlength
    have hsets : (unescapeSet (Quoted.scannedSet source)).length ≠
        (unescapeSet (Quoted.scannedSet target)).length := by
      rwa [Quoted.unescapeSet_scanned, Quoted.unescapeSet_scanned]
    obtain ⟨place, hargument⟩ := Parser.run_transliteration_of_ne hsets hended hahead
    exact ⟨place, Program.parse_one_error hahead.1 rfl hargument⟩

/-- A letter that occurs twice, a character behind the table, and all that is quoted; and a set that
is too long. -/
theorem Editor.parse_quoted_transliterates_signs :
    (Text.ofString "a\\/\nĀa").length = (Text.ofString "xyzwv\n").length ∧
      (Text.ofString "ab").length ≠ (Text.ofString "x").length ∧
      (∃ p, Program.parse (.ofText (Text.ofString "y/a\\\\\\/\\nĀa/xyzwv\\n/")) .standard = .ok p ∧
        ∀ e, e.pattern = Text.ofString "a/\\\nĀbÿ" →
          (step p (.running 0)).run e =
            (.ok (.running 1), { e with pattern := Text.ofString "\nzywvbÿ" })) ∧
      ∃ place, Program.parse (.ofText (Text.ofString "y/ab/x/")) .standard =
        .error (.script place Complaint.unequalSets.message) := by
  have hlength : (Text.ofString "a\\/\nĀa").length = (Text.ofString "xyzwv\n").length := by decide
  have hne : (Text.ofString "ab").length ≠ (Text.ofString "x").length := by decide
  obtain ⟨p, place, hparse, -, hrun⟩ := (Editor.parse_quoted_transliterates .standard
    (Text.ofString "a\\/\nĀa") (Text.ofString "xyzwv\n")).1 hlength
  refine ⟨hlength, hne, ⟨p, hparse, fun e he => ?_⟩,
    (Editor.parse_quoted_transliterates .standard (Text.ofString "ab") (Text.ofString "x")).2 hne⟩
  obtain ⟨text, hbecomes, hstep⟩ := hrun e
  rw [he] at hbecomes
  have happly := Transliteration.forall₂_becomes_apply
    ⟨Text.ofString "a\\/\nĀa", Text.ofString "xyzwv\n"⟩ hlength (Text.ofString "a/\\\nĀbÿ")
  have htext : Transliteration.apply ⟨Text.ofString "a\\/\nĀa", Text.ofString "xyzwv\n"⟩
      (Text.ofString "a/\\\nĀbÿ") = Text.ofString "\nzywvbÿ" := by decide +kernel
  rw [htext] at happly
  rw [hstep, List.right_unique_forall₂' (Transliteration.rightUnique_becomes _ _) hbecomes happly]

end StreamEditor
