import StreamEditor.Proofs.Regex.Plain
import StreamEditor.Proofs.Regex.Spelling

/-!
Patterns that write plain text in the extended notation.

* `Letter`: a character, bare or after a backslash, where it stands for itself.
* `PlainPattern`: letters between optional anchors; `PlainPattern.literal` is what they write.
* `PlainPattern.literal_ofText`: the reader of plain text takes a plain pattern for what it writes.
-/

namespace StreamEditor.Regex

open BasicNotation (isBasicSign isExtendedSign anchor)

/-- True for the characters that stand for themselves after a backslash. -/
def isEscapable (c : Char) : Bool := c.toNat < 0x80 && !c.isAlphanum && c ≠ '<' && c ≠ '>'

/-- A character as a pattern writes it, where it stands for itself. -/
structure Letter where
  char : Char
  escaped : Bool
  sound : if escaped then isEscapable char = true else isExtendedSign char = false

namespace Letter

/-- The form of a letter. -/
def text (w : Letter) : Text := if w.escaped then ['\\', w.char] else [w.char]

/-- A letter is bare and no sign, or stands after a backslash. -/
lemma cases (w : Letter) :
    (w.text = [w.char] ∧ isExtendedSign w.char = false) ∨
      (w.text = ['\\', w.char] ∧ isEscapable w.char = true) := by
  obtain ⟨c, escaped, sound⟩ := w
  cases escaped with
  | false => exact .inl ⟨rfl, sound⟩
  | true => exact .inr ⟨rfl, sound⟩

/-- The letter that writes a character. -/
def ofChar (c : Char) : Letter where
  char := c
  escaped := isExtendedSign c
  sound := by
    cases hc : isExtendedSign c with
    | false => rfl
    | true =>
        have hmem : c ∈ ['\\', '.', '*', '[', '^', '$', '+', '?', '{', '}', '|', '(', ')'] := by
          simpa [isExtendedSign, isBasicSign, or_assoc] using hc
        fin_cases hmem <;> rfl

end Letter

/-- Letters between optional anchors. -/
structure PlainPattern where
  atStart : Bool
  letters : List Letter
  atEnd : Bool

namespace PlainPattern

/-- The form of a pattern. -/
def text (p : PlainPattern) : Text :=
  anchor p.atStart '^' ++ p.letters.flatMap Letter.text ++ anchor p.atEnd '$'

/-- The text that a pattern writes. -/
def literal (p : PlainPattern) : Literal := ⟨p.letters.map Letter.char, p.atStart, p.atEnd⟩

/-- A pattern that is not empty writes something, or has an anchor. -/
lemma of_text_ne_nil {p : PlainPattern} (h : p.text ≠ []) :
    p.literal.needle ≠ [] ∨ p.literal.atStart = true ∨ p.literal.atEnd = true := by
  obtain ⟨atStart, letters, atEnd⟩ := p
  cases letters with
  | cons w letters => exact .inl (List.cons_ne_nil _ _)
  | nil =>
      cases atStart with
      | true => exact .inr (.inl rfl)
      | false =>
          cases atEnd with
          | true => exact .inr (.inr rfl)
          | false => exact absurd rfl h

end PlainPattern

/-! ### As plain text -/

lemma unescape_bare {c : Char} (hc : c ≠ '\\') (rest : Text) :
    Literal.unescape (c :: rest) = c :: Literal.unescape rest := by
  rw [Literal.unescape]
  · exact fun h => absurd h hc
  · exact fun _ _ h => absurd h hc

lemma unescape_letters (letters : List Letter) :
    Literal.unescape (letters.flatMap Letter.text) = letters.map Letter.char := by
  induction letters with
  | nil => rfl
  | cons w letters ih =>
      rw [List.flatMap_cons, List.map_cons, ← ih]
      obtain ⟨htext, hsound⟩ | ⟨htext, -⟩ := w.cases
      · rw [htext]
        exact unescape_bare (ne_of_apply_ne isExtendedSign (by rw [hsound]; decide)) _
      · rw [htext]
        rfl

/-- The backslashes at the end of letters come in pairs. -/
lemma even_backslashes (letters : List Letter) :
    ((letters.flatMap Letter.text).reverse.takeWhile (· = '\\')).length % 2 = 0 := by
  induction letters using List.reverseRecOn with
  | nil => rfl
  | append_singleton letters w ih =>
      rw [List.flatMap_append, List.flatMap_singleton, List.reverse_append]
      obtain ⟨htext, hsound⟩ | ⟨htext, -⟩ := w.cases
      · have hne : w.char ≠ '\\' := ne_of_apply_ne isExtendedSign (by rw [hsound]; decide)
        simp [htext, hne]
      · by_cases hc : w.char = '\\'
        · simpa [htext, hc, List.takeWhile_cons, Nat.add_assoc] using ih
        · simp [htext, hc]

/-- A dollar sign among letters is no anchor. -/
lemma beforeEndAnchor_letters (letters : List Letter) :
    Literal.beforeEndAnchor (letters.flatMap Letter.text) = none := by
  rw [Literal.beforeEndAnchor]
  split
  · rename_i before hbefore
    rw [if_neg]
    obtain rfl | ⟨letters, w, rfl⟩ := List.eq_nil_or_concat letters
    · cases hbefore
    rw [List.concat_eq_append, List.flatMap_append, List.flatMap_singleton,
      List.reverse_append] at hbefore
    obtain ⟨htext, hsound⟩ | ⟨htext, -⟩ := w.cases
    · rw [htext] at hbefore
      obtain ⟨hdollar, -⟩ := List.cons.inj hbefore
      rw [hdollar] at hsound
      cases hsound
    · rw [htext] at hbefore
      obtain ⟨-, rfl⟩ := List.cons.inj hbefore
      have heven := even_backslashes letters
      change ¬(('\\' :: (letters.flatMap Letter.text).reverse).takeWhile
        (· = '\\')).length % 2 = 0
      rw [List.takeWhile_cons_of_pos (by simp), List.length_cons]
      omega
  · rfl

lemma beforeEndAnchor_dollar (letters : List Letter) :
    Literal.beforeEndAnchor (letters.flatMap Letter.text ++ ['$']) =
      some (letters.flatMap Letter.text) := by
  simp [Literal.beforeEndAnchor, even_backslashes]

/-- Letters do not begin with an anchor. -/
lemma head_letters (letters : List Letter) (present : Bool) :
    (letters.flatMap Letter.text ++ anchor present '$').head? ≠ some '^' := by
  cases letters with
  | nil => cases present <;> simp [anchor]
  | cons w letters =>
      rw [List.flatMap_cons]
      obtain ⟨htext, hsound⟩ | ⟨htext, -⟩ := w.cases
      · have hne : w.char ≠ '^' := ne_of_apply_ne isExtendedSign (by rw [hsound]; decide)
        simpa [htext] using hne
      · simp [htext]

/-- What a pattern writes behind its first anchor, if it has one. -/
def behindAnchor (atStart : Bool) (rest : Text) : Literal :=
  match Literal.beforeEndAnchor rest with
  | some inner => ⟨Literal.unescape inner, atStart, true⟩
  | none => ⟨Literal.unescape rest, atStart, false⟩

lemma literal_ofText_circumflex (rest : Text) :
    Literal.ofText ('^' :: rest) = behindAnchor true rest := rfl

lemma literal_ofText_of_head {t : Text} (ht : t.head? ≠ some '^') :
    Literal.ofText t = behindAnchor false t := by
  cases t with
  | nil => rfl
  | cons c t =>
      rw [Literal.ofText]
      · rfl
      · rintro rest h
        exact ht (congrArg List.head? h)

lemma behindAnchor_letters (atStart : Bool) (letters : List Letter) (atEnd : Bool) :
    behindAnchor atStart (letters.flatMap Letter.text ++ anchor atEnd '$') =
      ⟨letters.map Letter.char, atStart, atEnd⟩ := by
  cases atEnd with
  | true => simp [behindAnchor, anchor, beforeEndAnchor_dollar, unescape_letters]
  | false => simp [behindAnchor, anchor, beforeEndAnchor_letters, unescape_letters]

/-- The reader of plain text takes a plain pattern for what it writes. -/
lemma PlainPattern.literal_ofText (p : PlainPattern) : Literal.ofText p.text = p.literal := by
  obtain ⟨atStart, letters, atEnd⟩ := p
  have hletters := behindAnchor_letters atStart letters atEnd
  cases atStart with
  | true => exact (literal_ofText_circumflex _).trans hletters
  | false => exact (literal_ofText_of_head (head_letters letters atEnd)).trans hletters

end StreamEditor.Regex
