import StreamEditor.Proofs.Regex.Letters
import StreamEditor.Regex.Builtin

/-!
Patterns of letters and anchors, and what the libraries of regular expressions make of them.

* `Sign`: a letter or an anchor; `Sign.finder` finds the first place at which signs fit.
* `Library.ReadsSigns`: what is documented of the library for patterns without references. A
  pattern of signs that it accepts has the leftmost matches of the signs, one after the other, and a
  backslash stands only before what it may stand before.
* `Library.MatchesLetters`: letters are accepted by both libraries, and matched as they are;
  `Library.letters` is one that does so.
* `PlainPattern.finds_finder`: the signs of a plain pattern fit where the text that it writes
  occurs.
-/

namespace StreamEditor.Regex

open BasicNotation (anchor isExtendedSign)

/-- A part of a pattern that takes a character as it is, or none. -/
inductive Sign where
  | letter (w : Letter)
  /-- An anchor at the start of the text. -/
  | start
  /-- An anchor at the end of the text. -/
  | stop

namespace Sign

/-- The form of a sign. -/
def text : Sign → Text
  | letter w => w.text
  | start => ['^']
  | stop => ['$']

/-- The number of characters that a sign takes. -/
def width : Sign → ℕ
  | letter _ => 1
  | start | stop => 0

/-- Signs fit at a place, between the character before it and the text behind it. -/
def fit : List Sign → Option Char → Text → Bool
  | [], _, _ => true
  | letter _ :: _, _, [] => false
  | letter w :: signs, _, c :: rest => c = w.char && fit signs (some c) rest
  | start :: signs, before, rest => before.isNone && fit signs before rest
  | stop :: signs, before, rest => rest.isEmpty && fit signs before rest

/-- The first place at which signs fit. -/
def firstFit (signs : List Sign) (before : Option Char) (position : ℕ) : Text → Option ℕ
  | [] => if fit signs before [] then some position else none
  | c :: rest =>
      if fit signs before (c :: rest) then some position
      else firstFit signs (some c) (position + 1) rest

/-- The match of signs at a place. -/
def matchAt (signs : List Sign) (position : ℕ) : Match :=
  let stop := position + (signs.map width).sum
  ⟨position, stop, [some (position, stop)]⟩

/-- What finds the first match of signs. -/
def finder (signs : List Sign) : Finder := fun before position rest =>
  .ok ((firstFit signs before position rest).map (matchAt signs))

/-- Signs that fit nowhere match nothing. -/
lemma all_finder_of_not_fit {signs : List Sign} (h : ∀ before rest, fit signs before rest = false)
    (t : Text) : (finder signs).all t = ([], none) := by
  have hfirst (before : Option Char) (position : ℕ) (rest : Text) :
      firstFit signs before position rest = none := by
    induction rest generalizing before position with
    | nil => rw [firstFit, h]; rfl
    | cons c rest ih => rw [firstFit, h, ih]; rfl
  exact successive_absent (by rw [finder, hfirst]; rfl)

end Sign

/-! ### The libraries -/

/-- The flag that a dot matches a newline too stands before all patterns. -/
lemma Options.flags_bare (extended : Bool) :
    Options.flags ⟨extended, false, false⟩ = Text.ofString "(?s)" := rfl

/-- What is documented of the library for patterns without references, as far as it concerns signs.
It need not accept all of them. -/
structure Library.ReadsSigns (library : Library) : Prop where
  /-- A letter takes the character that it stands for, and an anchor holds at its end of the text.
  There are no groups. The matches are the leftmost ones, none overlapping another, and no empty
  match follows right on another one. -/
  captures {signs : List Sign} {m : Standard}
    (h : library.standard? (Text.ofString "(?s)" ++ signs.flatMap Sign.text) = some m) :
    m.groupCount = 1 ∧ ∀ t, m.captures t = ((Sign.finder signs).all t).1
  /-- An expression matches if and only if it has a first match. -/
  isMatch {signs : List Sign} {m : Standard}
    (h : library.standard? (Text.ofString "(?s)" ++ signs.flatMap Sign.text) = some m) :
    ∀ t, m.isMatch t = !(m.captures t).isEmpty
  /-- A backslash stands neither at the end of a pattern nor before other characters than those of
  ASCII. -/
  refuses (signs : List Sign) {rest : Text} (h : ∀ c ∈ rest.head?, 0x80 ≤ c.toNat) :
    library.standard? (Text.ofString "(?s)" ++ (signs.flatMap Sign.text ++ '\\' :: rest)) = none

/-- Both libraries accept letters one after the other. They match exactly what the letters stand
for, leftmost first. -/
structure Library.MatchesLetters (library : Library) : Prop where
  standard (letters : List Letter) :
    ∃ m, library.standard? (Text.ofString "(?s)" ++ letters.flatMap Letter.text) = some m ∧
      m.groupCount = 1 ∧ ∀ t, m.captures t = ((Sign.finder (letters.map .letter)).all t).1
  fancy (letters : List Letter) :
    ∃ m, library.fancy? (Text.ofString "(?s)" ++ letters.flatMap Letter.text) = some m ∧
      m.groupCount = 1 ∧ ∀ t, m.captures t = (Sign.finder (letters.map .letter)).all t

/-- The letters that a text writes, if it consists of letters. -/
def Letter.ofText? : Text → Option (List Letter)
  | [] => some []
  | '\\' :: c :: rest =>
      if h : isEscapable c = true then (ofText? rest).map (⟨c, true, h⟩ :: ·) else none
  | c :: rest =>
      if h : isExtendedSign c = false then (ofText? rest).map (⟨c, false, h⟩ :: ·) else none

lemma Letter.ofText?_flatMap (letters : List Letter) :
    ofText? (letters.flatMap Letter.text) = some letters := by
  induction letters with
  | nil => rfl
  | cons w letters ih =>
      obtain ⟨c, escaped, sound⟩ := w
      cases escaped with
      | true =>
          have hc : isEscapable c = true := sound
          change ofText? ('\\' :: c :: letters.flatMap Letter.text) = _
          rw [ofText?, dif_pos hc, ih]
          rfl
      | false =>
          have hc : isExtendedSign c = false := sound
          have hne : c ≠ '\\' := ne_of_apply_ne isExtendedSign (by rw [hc]; decide)
          change ofText? (c :: letters.flatMap Letter.text) = _
          rw [ofText?]
          · rw [dif_pos hc, ih]
            rfl
          · exact fun _ _ h _ => hne h

/-- A library that accepts letters and nothing else. -/
@[reducible] def Library.letters : Library where
  standard? pattern :=
    (Letter.ofText? (pattern.drop (Text.ofString "(?s)").length)).map fun letters =>
      let find := Sign.finder (letters.map .letter)
      ⟨1, fun t => !(find.all t).1.isEmpty, fun t => (find.all t).1⟩
  fancy? pattern :=
    (Letter.ofText? (pattern.drop (Text.ofString "(?s)").length)).map fun letters =>
      .ofFinder 1 (Sign.finder (letters.map .letter))

lemma Library.matchesLetters_letters : Library.letters.MatchesLetters where
  standard letters := by
    change ∃ m, (Letter.ofText? _).map _ = some m ∧ _
    rw [List.drop_left, Letter.ofText?_flatMap]
    exact ⟨_, rfl, rfl, fun t => rfl⟩
  fancy letters := by
    change ∃ m, (Letter.ofText? _).map _ = some m ∧ _
    rw [List.drop_left, Letter.ofText?_flatMap]
    exact ⟨_, rfl, rfl, fun t => rfl⟩

/-! ### Plain patterns -/

/-- The signs of an anchor, if there is one. -/
def Sign.edge (present : Bool) (s : Sign) : List Sign := if present then [s] else []

namespace PlainPattern

/-- The signs of a plain pattern. -/
def signs (p : PlainPattern) : List Sign :=
  Sign.edge p.atStart .start ++ p.letters.map Sign.letter ++ Sign.edge p.atEnd .stop

lemma text_signs (p : PlainPattern) : p.signs.flatMap Sign.text = p.text := by
  obtain ⟨atStart, letters, atEnd⟩ := p
  have hletters : (letters.map Sign.letter).flatMap Sign.text = letters.flatMap Letter.text := by
    rw [List.flatMap_map]
    rfl
  rw [signs, List.flatMap_append, List.flatMap_append, hletters, text]
  cases atStart <;> cases atEnd <;> rfl

lemma width_signs (p : PlainPattern) : (p.signs.map Sign.width).sum = p.literal.needle.length := by
  obtain ⟨atStart, letters, atEnd⟩ := p
  have hletters : ((letters.map Sign.letter).map Sign.width).sum = letters.length := by
    simp [Sign.width, Function.comp_def]
  rw [signs, List.map_append, List.map_append, List.sum_append, List.sum_append, hletters]
  cases atStart <;> cases atEnd <;> simp [Sign.edge, Sign.width, literal]

/-- Letters fit where they are, and the end of the text where it ends. -/
lemma fit_letters (letters : List Letter) (atEnd : Bool) (before : Option Char) (rest : Text) :
    Sign.fit (letters.map Sign.letter ++ Sign.edge atEnd .stop) before rest =
      ((letters.map Letter.char).isPrefixOf rest && (!atEnd || rest.length = letters.length)) := by
  induction letters generalizing before rest with
  | nil => cases atEnd <;> cases rest <;> rfl
  | cons w letters ih =>
      cases rest with
      | nil => rfl
      | cons c rest =>
          rw [List.map_cons, List.cons_append, Sign.fit, ih]
          simp [List.isPrefixOf, beq_eq_decide, eq_comm, Bool.and_assoc]

/-- The signs of a plain pattern fit where the text that it writes occurs. -/
lemma fit_signs (p : PlainPattern) (before : Option Char) (rest : Text) :
    Sign.fit p.signs before rest = p.literal.fits before rest := by
  obtain ⟨atStart, letters, atEnd⟩ := p
  have hfit := fit_letters letters atEnd before rest
  rw [signs, List.append_assoc, Literal.fits]
  cases atStart with
  | false => simpa [Sign.edge, literal] using hfit
  | true =>
      change (before.isNone && Sign.fit _ before rest) = _
      simp [hfit, literal, Bool.and_assoc]

/-- The first place at which the signs of a plain pattern fit is the first one of its text. -/
lemma finds_finder (p : PlainPattern) : p.literal.Finds (Sign.finder p.signs) := by
  have hfirst (before : Option Char) (position : ℕ) (rest : Text) :
      Sign.firstFit p.signs before position rest = p.literal.firstFit before position rest := by
    induction rest generalizing before position with
    | nil => rw [Sign.firstFit, Literal.firstFit, p.fit_signs]
    | cons c rest ih => rw [Sign.firstFit, Literal.firstFit, p.fit_signs, ih]
  have hmatch : Sign.matchAt p.signs = p.literal.matchAt :=
    funext fun position => by rw [Sign.matchAt, Literal.matchAt, p.width_signs]
  intro before position rest
  rw [Sign.finder, hfirst, hmatch]

/-- The matches of a plain pattern are those that the search for plain text finds. -/
lemma all_finder {p : PlainPattern} (hp : p.text ≠ []) (t : Text) :
    (Sign.finder p.signs).all t = (literalMatches p.literal t, none) :=
  p.finds_finder.all (of_text_ne_nil hp) t

end PlainPattern

end StreamEditor.Regex
