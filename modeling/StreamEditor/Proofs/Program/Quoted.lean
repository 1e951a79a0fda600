import StreamEditor.Proofs.Regex.Conversion
import StreamEditor.Proofs.Regex.Signs
import StreamEditor.Scanner

/-!
Texts that a script quotes, so that they stand for themselves in a substitution.

* `Quoted.pattern`, `Quoted.replacement`: a text as the pattern, or as the replacement, of a
  substitution between slashes.
* `readUntil_pattern`, `readUntil_replacement`: what is read of them up to the slash.
* `unescapePattern_scanned`, `toExtended_basic`: what the pattern reader makes of the former;
  `compile_scanned`: what the template reader makes of the latter.
-/

namespace StreamEditor.Quoted

variable {library : Regex.Library}

open Regex Regex.BasicNotation

/-- True for the characters with a meaning of their own in a pattern. -/
def isSign (extended : Bool) (c : Char) : Bool :=
  if extended then isExtendedSign c else isBasicSign c

/-- A character of a quoted pattern. -/
def patternChar (extended : Bool) (c : Char) : Text :=
  if c = '\n' then ['\\', 'n'] else escapeIf (fun c => isSign extended c || c = '/') c

/-- A text as the pattern of a substitution between slashes. -/
def pattern (extended : Bool) (t : Text) : Text := t.flatMap (patternChar extended)

/-- A text as the replacement of a substitution between slashes. -/
def replacement (t : Text) : Text := t.flatMap (escapeIf ['\\', '&', '/', '\n'].contains)

/-! ### What is read up to the slash -/

/-- A quoted pattern without the quotes of slashes. -/
def scannedPattern (extended : Bool) (t : Text) : Text :=
  t.flatMap fun c => if c = '\n' then ['\\', 'n'] else escapeIf (isSign extended) c

/-- A quoted replacement without the quotes of slashes and newlines. -/
def scannedReplacement (t : Text) : Text := t.flatMap (escapeIf ['\\', '&'].contains)

lemma scannedPattern_ne_nil {extended : Bool} {t : Text} (ht : t ≠ []) :
    scannedPattern extended t ≠ [] := by
  obtain ⟨c, rest, rfl⟩ := List.exists_cons_of_ne_nil ht
  rw [scannedPattern, List.flatMap_cons, escapeIf]
  split
  · exact List.cons_ne_nil _ _
  · split <;> exact List.cons_ne_nil _ _

/-- Reads on behind a piece of text. -/
def readOn (written piece passed rest : Text) : Text × Bool × Cursor :=
  let (text, found, after) := Cursor.readUntil (· = '/') (piece.reverse ++ passed) rest
  (written ++ text, found, after)

lemma readUntil_bare {c : Char} (hbackslash : c ≠ '\\') (hslash : c ≠ '/') (passed rest : Text) :
    Cursor.readUntil (· = '/') passed (c :: rest) = readOn [c] [c] passed rest := by
  rw [Cursor.readUntil]
  · rw [if_neg (by simpa using hslash)]
    rfl
  · exact fun h => absurd h hbackslash
  · exact fun _ _ h => absurd h hbackslash

lemma readUntil_escaped (c : Char) (passed rest : Text) :
    Cursor.readUntil (· = '/') passed ('\\' :: c :: rest) =
      readOn (if c = '/' ∨ c = '\n' then [c] else ['\\', c]) ['\\', c] passed rest := by
  rw [Cursor.readUntil, readOn]
  by_cases hc : c = '/' ∨ c = '\n'
  · have hremoved : (decide (c = '/') || decide (c = '\n')) = true := by simpa using hc
    simp only [if_pos hc, if_pos hremoved]
    rfl
  · have hkept : ¬(decide (c = '/') || decide (c = '\n')) = true := by simpa using hc
    simp only [if_neg hc, if_neg hkept]
    rfl

/-- What is read of quoted characters up to the slash, if each is read by itself. -/
lemma readUntil_flatMap {quoted scanned : Char → Text}
    (h : ∀ c passed rest, Cursor.readUntil (· = '/') passed (quoted c ++ rest) =
      readOn (scanned c) (quoted c) passed rest) (t passed rest : Text) :
    Cursor.readUntil (· = '/') passed (t.flatMap quoted ++ '/' :: rest) =
      (t.flatMap scanned, true, ⟨(t.flatMap quoted).reverse ++ passed, '/' :: rest⟩) := by
  induction t generalizing passed with
  | nil =>
      rw [List.flatMap_nil, List.nil_append, Cursor.readUntil]
      · rfl
      · exact fun h => absurd h (by decide)
      · exact fun _ _ h => absurd h (by decide)
  | cons c t ih =>
      rw [List.flatMap_cons, List.append_assoc, h, readOn, ih]
      simp

/-- Behind a backslash a sign is read with it, and a slash without; a newline is read as its
escape. -/
lemma readUntil_char (sign : Char → Bool) (hbackslash : sign '\\' = true)
    (hslash : sign '/' = false) (c : Char) (passed rest : Text) :
    Cursor.readUntil (· = '/') passed
        ((if c = '\n' then ['\\', 'n'] else escapeIf (fun c => sign c || c = '/') c) ++ rest) =
      readOn (if c = '\n' then ['\\', 'n'] else escapeIf sign c)
        (if c = '\n' then ['\\', 'n'] else escapeIf (fun c => sign c || c = '/') c) passed
          rest := by
  by_cases hnewline : c = '\n'
  · rw [if_pos hnewline, if_pos hnewline]
    exact readUntil_escaped 'n' passed rest
  rw [if_neg hnewline, if_neg hnewline]
  by_cases hc : c = '/'
  · subst hc
    simpa [escapeIf, hslash] using readUntil_escaped '/' passed rest
  cases hsign : sign c with
  | true =>
      have h := readUntil_escaped c passed rest
      rw [if_neg (not_or.2 ⟨hc, hnewline⟩)] at h
      simpa [escapeIf, hsign] using h
  | false =>
      have hne : c ≠ '\\' := by
        rintro rfl
        rw [hbackslash] at hsign
        cases hsign
      simpa [escapeIf, hsign, hc] using readUntil_bare hne hc passed rest

lemma readUntil_pattern (extended : Bool) (t passed rest : Text) :
    Cursor.readUntil (· = '/') passed (pattern extended t ++ '/' :: rest) =
      (scannedPattern extended t, true,
        ⟨(pattern extended t).reverse ++ passed, '/' :: rest⟩) := by
  have hbackslash : isSign extended '\\' = true := by cases extended <;> rfl
  have hslash : isSign extended '/' = false := by cases extended <;> rfl
  exact readUntil_flatMap (readUntil_char _ hbackslash hslash) t passed rest

lemma readUntil_replacement (t passed rest : Text) :
    Cursor.readUntil (· = '/') passed (replacement t ++ '/' :: rest) =
      (scannedReplacement t, true, ⟨(replacement t).reverse ++ passed, '/' :: rest⟩) := by
  refine readUntil_flatMap (fun c passed rest => ?_) t passed rest
  by_cases hc : ['\\', '&', '/', '\n'].contains c = true
  · have hmem : c ∈ ['\\', '&', '/', '\n'] := by simpa using hc
    fin_cases hmem <;> exact readUntil_escaped _ passed rest
  · have hne : c ≠ '\\' ∧ c ≠ '&' ∧ c ≠ '/' ∧ c ≠ '\n' := by simpa using hc
    have hscanned : ¬['\\', '&'].contains c = true := by simp [hne]
    rw [escapeIf, if_neg hc, escapeIf, if_neg hscanned]
    exact readUntil_bare hne.1 hne.2.2.1 passed rest

/-! ### What the pattern reader makes of it -/

lemma unescapePattern_bare {c : Char} (hc : c ≠ '\\') (rest : Text) :
    unescapePattern (c :: rest) = c :: unescapePattern rest := by
  rw [unescapePattern, unescapeWith, expand, if_neg hc]
  rfl

lemma unescapePattern_escaped {c : Char} (hn : c ≠ 'n') (ht : c ≠ 't') (rest : Text) :
    unescapePattern ('\\' :: c :: rest) = '\\' :: c :: unescapePattern rest := by
  rw [unescapePattern, unescapeWith, expand, if_pos rfl]
  split
  · exact absurd (List.cons.inj ‹_›).1 hn
  · exact absurd (List.cons.inj ‹_›).1 ht
  · rename_i d _ _ _ h
    rw [(List.cons.inj h).1]
    rfl
  · cases ‹c :: rest = []›

/-- Newlines are found, and all other escapes kept. -/
lemma unescapePattern_scanned (extended : Bool) (t : Text) :
    unescapePattern (scannedPattern extended t) = t.flatMap (escapeIf (isSign extended)) := by
  have hletter : isSign extended 'n' = false ∧ isSign extended 't' = false := by
    cases extended <;> exact ⟨rfl, rfl⟩
  have hbackslash : isSign extended '\\' = true := by cases extended <;> rfl
  have hnewline : isSign extended '\n' = false := by cases extended <;> rfl
  induction t with
  | nil => rfl
  | cons c t ih =>
      rw [scannedPattern, List.flatMap_cons, List.flatMap_cons, ← ih, scannedPattern]
      by_cases hc : c = '\n'
      · rw [if_pos hc, hc, escapeIf, if_neg (by rw [hnewline]; decide)]
        rfl
      rw [if_neg hc, escapeIf]
      by_cases hsign : isSign extended c = true
      · rw [if_pos hsign]
        exact unescapePattern_escaped (ne_of_apply_ne (isSign extended) (by simp [hsign, hletter]))
          (ne_of_apply_ne (isSign extended) (by simp [hsign, hletter])) _
      · rw [if_neg hsign]
        exact unescapePattern_bare
          (ne_of_apply_ne (isSign extended) (by simp [hsign, hbackslash])) _

/-- In the basic notation the same text is quoted with fewer backslashes. -/
lemma toExtended_escaped (t : Text) :
    toExtended (t.flatMap (escapeIf isBasicSign)) = t.flatMap (escapeIf isExtendedSign) := by
  have h : ∀ spot, convertAll 0 spot (t.flatMap (escapeIf isBasicSign)) =
      t.flatMap (escapeIf isExtendedSign) := fun spot => by
    induction t generalizing spot with
    | nil => rfl
    | cons c t ih =>
        rw [List.flatMap_cons, convertAll_literal, ih]
        rfl
  exact h .start

/-- The pattern that stands for a text. -/
def plain (t : Text) : PlainPattern where
  atStart := false
  letters := t.map Letter.ofChar
  atEnd := false

lemma text_plain (t : Text) : (plain t).text = t.flatMap (escapeIf isExtendedSign) := by
  simp only [plain, PlainPattern.text, anchor, Bool.false_eq_true, if_false, List.nil_append,
    List.append_nil, List.flatMap_map]
  rfl

lemma literal_plain (t : Text) : (plain t).literal = ⟨t, false, false⟩ := by
  simp [plain, PlainPattern.literal, Letter.ofChar, Function.comp_def]

lemma signs_plain (t : Text) : (plain t).signs = (plain t).letters.map .letter :=
  List.append_nil _

/-- A quoted pattern is read, and its matches are those of the text. -/
lemma exists_compile (hlibrary : library.MatchesLetters) (extended : Bool) {t : Text}
    (ht : t ≠ []) :
    ∃ re, compile? ⟨extended, false, false⟩ (unescapePattern (scannedPattern extended t)) =
        some re ∧ re.groupCount = 1 ∧
      ∀ text, re.allMatches none text = (literalMatches ⟨t, false, false⟩ text, none) := by
  have htext : (plain t).text = (plain t).letters.flatMap Letter.text := List.append_nil _
  have hne : (plain t).text ≠ [] := by
    obtain ⟨c, rest, rfl⟩ := List.exists_cons_of_ne_nil ht
    rw [text_plain, List.flatMap_cons, escapeIf]
    split <;> exact List.cons_ne_nil _ _
  have hextended : (if extended then t.flatMap (escapeIf (isSign extended))
      else toExtended (t.flatMap (escapeIf (isSign extended)))) = (plain t).text := by
    rw [text_plain]
    cases extended with
    | true => rfl
    | false => exact toExtended_escaped t
  have hfound (text : Text) : (Sign.finder ((plain t).letters.map .letter)).all text =
      (literalMatches ⟨t, false, false⟩ text, none) := by
    rw [← signs_plain, PlainPattern.all_finder hne, literal_plain]
  -- Whatever searches for the pattern finds the same.
  obtain ⟨engine, hengine, hsource⟩ : ∃ engine,
      Engine.ofText? ⟨extended, false, false⟩ (plain t).text = some engine ∧ ∀ source,
        (⟨source, engine⟩ : Regex).groupCount = 1 ∧
          ∀ text, (⟨source, engine⟩ : Regex).allMatches none text =
            (literalMatches ⟨t, false, false⟩ text, none) := by
    rw [Engine.ofText?]
    split
    · refine ⟨_, rfl, fun source => ⟨rfl, fun text => ?_⟩⟩
      rw [(plain t).literal_ofText, literal_plain]
      rfl
    · rw [Options.flags_bare, htext]
      split
      · obtain ⟨m, hm, hgroups, hcaptures⟩ := hlibrary.fancy (plain t).letters
        exact ⟨.fancy m, by rw [hm]; rfl,
          fun source => ⟨hgroups, fun text => (hcaptures text).trans (hfound text)⟩⟩
      · obtain ⟨m, hm, hgroups, hcaptures⟩ := hlibrary.standard (plain t).letters
        refine ⟨.standard m, by rw [hm]; rfl, fun source => ⟨hgroups, fun text => ?_⟩⟩
        exact congrArg (·, none) ((hcaptures text).trans (congrArg Prod.fst (hfound text)))
  obtain ⟨hgroups, hall⟩ := hsource (t.flatMap (escapeIf (isSign extended)))
  refine ⟨⟨_, engine⟩, ?_, hgroups, hall⟩
  rw [compile?, unescapePattern_scanned]
  simp only [hextended, hengine]
  rfl

/-! ### What the template reader makes of it -/

lemma pieces_bare {c : Char} (hbackslash : c ≠ '\\') (hwhole : c ≠ '&') (rest : Text) :
    Template.pieces (c :: rest) = .literal [c] :: Template.pieces rest := by
  rw [Template.pieces, expand, if_neg hwhole, if_neg hbackslash]
  rfl

/-- Each character is read as itself. -/
lemma pieces_scanned (t : Text) :
    Template.pieces (scannedReplacement t) = t.map fun c => .literal [c] := by
  induction t with
  | nil => rfl
  | cons c t ih =>
      rw [scannedReplacement, List.flatMap_cons, List.map_cons, ← ih, scannedReplacement]
      by_cases hc : ['\\', '&'].contains c = true
      · have hmem : c ∈ ['\\', '&'] := by simpa using hc
        fin_cases hmem <;> rfl
      · have hne : c ≠ '\\' ∧ c ≠ '&' := by simpa using hc
        rw [escapeIf, if_neg hc]
        exact pieces_bare hne.1 hne.2 _

/-- A quoted replacement is the template that consists of the text. -/
lemma compile_scanned (t : Text) :
    Template.compile (scannedReplacement t) = ⟨if t = [] then [] else [.literal t]⟩ := by
  rw [Template.compile, pieces_scanned]
  congr 1
  induction t with
  | nil => rfl
  | cons c t ih =>
      rw [List.map_cons, List.foldr_cons, ih]
      cases t with
      | nil => rfl
      | cons d t => rfl

end StreamEditor.Quoted
