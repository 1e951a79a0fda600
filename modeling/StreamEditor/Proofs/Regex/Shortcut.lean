import StreamEditor.Proofs.Regex.Conversion
import StreamEditor.Proofs.Regex.Lettered

/-!
The search for plain text in place of an expression in the basic notation.

* `BasicNotation.convert_step`: what one step of the passage to the extended notation writes.
* `EscapesAscii`: behind signs a backslash stands before ASCII only, as in all patterns that the
  library accepts (`Library.ReadsSigns.escapesAscii`).
* `exists_letters`: a pattern in which no sign is seen consists of letters.
* `allMatches_literal_eq`: for such patterns the search for plain text finds the matches that the
  library finds.
-/

namespace StreamEditor.Regex

namespace BasicNotation

/-- The signs that mean more than plain text wherever they are not escaped. -/
def isOperator (c : Char) : Bool :=
  ['.', '?', '|', '+', '(', ')', '[', ']', '{', '}', '*'].contains c

/-- What a step of the passage to the extended notation writes, but for an anchor at the start. -/
inductive Step (c : Char) (rest : Text) : Text × ℕ × Spot → Prop
  /-- A character that is no sign. -/
  | bare (h : isExtendedSign c = false) : Step c rest ([c], 0, .inside)
  /-- A character after a backslash. -/
  | escape (d : Char) (used : ℕ) : Step c rest (['\\', d], used, .inside)
  /-- An anchor at the end. -/
  | anchor (hc : c = '$') (h : atEnd rest = true) : Step c rest (['$'], 0, .inside)
  /-- Something that begins with an operator. -/
  | operator (d : Char) (written : Text) (used : ℕ) (spot : Spot) (h : isOperator d = true) :
      Step c rest (d :: written, used, spot)

lemma step_escaped (c : Char) (rest : Text) : Step c rest (escaped rest) := by
  rw [escaped.eq_def]
  split
  · exact .escape '\\' 0
  · exact .operator _ _ _ _ rfl
  · exact .operator _ _ _ _ rfl
  · exact .escape 'A' 1
  · exact .escape 'z' 1
  · rename_i d rest _ _ _ _
    split
    · rename_i hd
      refine .operator _ _ _ _ ?_
      have hmem : d ∈ [')', '{', '}', '+', '?'] := by simpa using hd
      fin_cases hmem <;> rfl
    · split
      · exact .operator _ _ _ _ rfl
      · exact .escape _ 1

lemma convert_step {spot : Spot} {c : Char} (hstart : spot = .start → c ≠ '^') (rest : Text) :
    Step c rest (convert spot c rest) := by
  -- The cases follow the tests of the conversion, in their order.
  rw [convert]
  by_cases hbackslash : c = '\\'
  · rw [if_pos hbackslash]
    exact step_escaped c rest
  rw [if_neg hbackslash]
  by_cases hbracket : c = '['
  · obtain ⟨written, hwritten⟩ : ∃ written, (bracket rest).1 = '[' :: written := ⟨_, rfl⟩
    rw [if_pos hbracket]
    change Step c rest ((bracket rest).1, (bracket rest).2, .inside)
    rw [hwritten]
    exact .operator _ _ _ _ rfl
  rw [if_neg hbracket]
  by_cases hother : ['+', '?', '{', '}', '|', '(', ')'].contains c = true
  · rw [if_pos hother]
    exact .escape c 0
  rw [if_neg hother]
  by_cases hstar : c = '*'
  · subst hstar
    split
    · exact .escape '*' 0
    · exact .operator _ _ _ _ rfl
  rw [if_neg (by simp [hstar])]
  by_cases hcircumflex : c = '^'
  · rw [if_pos hcircumflex, if_neg fun h => hstart h hcircumflex]
    exact .escape '^' 0
  rw [if_neg hcircumflex]
  by_cases hdollar : c = '$'
  · cases hend : atEnd rest with
    | true =>
        rw [hdollar]
        exact .anchor rfl hend
    | false =>
        rw [if_pos (by simp [hdollar])]
        exact .escape '$' 0
  rw [if_neg (by simp [hdollar])]
  by_cases hdot : c = '.'
  · exact .operator _ _ _ _ (by rw [hdot]; rfl)
  refine .bare ?_
  rw [isExtendedSign, Bool.or_eq_false_iff, Bool.eq_false_iff.2 hother]
  simpa [isBasicSign] using ⟨hbackslash, hdot, hstar, hbracket, hcircumflex, hdollar⟩

end BasicNotation

/-! ### Signs -/

/-- No sign is seen at a place where one may stand, nor behind it. -/
lemma not_beginsSign {before t : Text} (hplace : unescapedAfter before = true)
    (h : anywhereUnescaped beginsSign before t = false) : beginsSign t = false := by
  cases t with
  | nil => rfl
  | cons c t =>
      rw [anywhereUnescaped, Bool.or_eq_false_iff, hplace, Bool.true_and] at h
      exact h.1

lemma anywhere_append {before t : Text} (written : Text)
    (h : anywhereUnescaped beginsSign before (written ++ t) = false) :
    anywhereUnescaped beginsSign (written.reverse ++ before) t = false := by
  induction written generalizing before with
  | nil => exact h
  | cons c written ih =>
      rw [List.cons_append, anywhereUnescaped, Bool.or_eq_false_iff] at h
      simpa using ih h.2

lemma beginsSign_operator {d : Char} (hd : BasicNotation.isOperator d = true) (t : Text) :
    beginsSign (d :: t) = true := by
  change (BasicNotation.isOperator d || _) = true
  rw [hd, Bool.true_or]

/-- After a backslash in which no sign is seen there is no letter, no digit and no edge of a
word. -/
lemma of_beginsSign_backslash {d : Char} {t : Text} (h : beginsSign ('\\' :: d :: t) = false) :
    d.isAlphanum = false ∧ d ≠ '<' ∧ d ≠ '>' := by
  have h' : (d.isAlphanum || ['<', '>', '`', '\''].contains d) = false := by
    rw [beginsSign] at h
    simp only [Bool.or_eq_false_iff] at h
    simpa using h.2.1.1
  rw [Bool.or_eq_false_iff] at h'
  have hnot : d ∉ ['<', '>', '`', '\''] := by simpa using h'.2
  exact ⟨h'.1, fun h => hnot (by simp [h]), fun h => hnot (by simp [h])⟩

/-- In what stands behind signs, a backslash that another sign can begin with has a character of
ASCII after it. -/
def EscapesAscii (t : Text) : Prop :=
  ∀ (signs : List Sign) (rest : Text), t = signs.flatMap Sign.text ++ '\\' :: rest →
    ∃ c ∈ rest.head?, c.toNat < 0x80

/-- So it is in a pattern that the library accepts. -/
lemma Library.ReadsSigns.escapesAscii {library : Library} (h : library.ReadsSigns) {t : Text}
    {m : Standard} (hm : library.standard? (Text.ofString "(?s)" ++ t) = some m) :
    EscapesAscii t := by
  rintro signs rest rfl
  by_contra hnone
  have hall : ∀ c ∈ rest.head?, 0x80 ≤ c.toNat := fun c hc =>
    not_lt.1 fun hlt => hnone ⟨c, hc, hlt⟩
  rw [h.refuses signs hall] at hm
  cases hm

namespace EscapesAscii

lemma tail {s : Sign} {t : Text} (h : EscapesAscii (s.text ++ t)) : EscapesAscii t := by
  rintro signs rest rfl
  exact h (s :: signs) rest (by rw [List.flatMap_cons, List.append_assoc])

/-- A character after a backslash in which no sign is seen stands for itself. -/
lemma isEscapable {d : Char} {t : Text} (h : EscapesAscii ('\\' :: d :: t))
    (hsign : beginsSign ('\\' :: d :: t) = false) : isEscapable d = true := by
  obtain ⟨c, hc, hascii⟩ := h [] (d :: t) rfl
  obtain rfl : d = c := Option.some.inj hc
  obtain ⟨hletter, hless, hgreater⟩ := of_beginsSign_backslash hsign
  simp [Regex.isEscapable, hascii, hletter, hless, hgreater]

end EscapesAscii

/-! ### Letters -/

open BasicNotation (convertAll Spot convert anchor)

/-- No anchor at the end stands before what ends a part of an expression. -/
lemma eq_nil_of_atEnd {rest : Text} (hend : BasicNotation.atEnd rest = true)
    (hsign : beginsSign ('$' :: convertAll 0 .inside rest) = false) : rest = [] := by
  rw [BasicNotation.atEnd.eq_def] at hend
  split at hend
  · rfl
  · rename_i c rest
    have hc : c = ')' ∨ c = '|' := by simpa using hend
    obtain rfl | rfl := hc
    · cases hsign
    · cases hsign
  · cases hend

lemma unescapedAfter_of_ne {c : Char} (hc : c ≠ '\\') (before : Text) :
    unescapedAfter (c :: before) = true := by
  rw [unescapedAfter.eq_def]
  split
  · rfl
  · exact absurd (List.cons.inj ‹_›).1 hc
  · rfl

/-- Behind a letter a sign may stand. -/
lemma unescapedAfter_letter (w : Letter) (before : Text) :
    unescapedAfter (w.text.reverse ++ before) = true := by
  obtain ⟨htext, hsound⟩ | ⟨htext, -⟩ := w.cases
  · rw [htext]
    exact unescapedAfter_of_ne
      (ne_of_apply_ne BasicNotation.isExtendedSign (by rw [hsound]; decide)) before
  · rw [htext]
    change unescapedAfter (w.char :: '\\' :: before) = true
    by_cases hc : w.char = '\\'
    · rw [hc]
      rfl
    · exact unescapedAfter_of_ne hc _

/-- A pattern in which no sign is seen and that escapes nothing else consists of letters up to an
anchor at its end. -/
lemma exists_letters {spot : Spot} {t before : Text}
    (hstart : spot = .start → t.head? ≠ some '^') (hplace : unescapedAfter before = true)
    (hsigns : anywhereUnescaped beginsSign before (convertAll 0 spot t) = false)
    (hescapes : EscapesAscii (convertAll 0 spot t)) :
    ∃ letters atEnd, convertAll 0 spot t = List.flatMap Letter.text letters ++
      anchor atEnd '$' := by
  induction hlength : t.length using Nat.strong_induction_on generalizing spot t before with
  | _ n ih =>
  cases t with
  | nil => exact ⟨[], false, rfl⟩
  | cons c rest =>
      have hstep : BasicNotation.Step c rest (convert spot c rest) :=
        BasicNotation.convert_step (fun h hc => hstart h (congrArg some hc)) rest
      rw [BasicNotation.convertAll_cons] at hsigns hescapes ⊢
      -- A letter is written, and the rest follows inside.
      have hletter : ∀ (w : Letter) (used : ℕ), convert spot c rest = (w.text, used, .inside) →
          ∃ letters atEnd, (convert spot c rest).1 ++ convertAll 0 (convert spot c rest).2.2
            (rest.drop (convert spot c rest).2.1) =
              List.flatMap Letter.text letters ++ anchor atEnd '$' := fun w used hconvert => by
        rw [hconvert] at hsigns hescapes ⊢
        obtain ⟨letters, atEnd, hrest⟩ := ih (rest.drop used).length
          (by simp [← hlength]) (fun h => by cases h)
          (unescapedAfter_letter w before) (anywhere_append w.text hsigns)
          (EscapesAscii.tail (s := .letter w) hescapes) rfl
        refine ⟨w :: letters, atEnd, ?_⟩
        rw [hrest, List.flatMap_cons, List.append_assoc]
      have hnone := not_beginsSign hplace hsigns
      generalize hconvert : convert spot c rest = step at hstep
      cases hstep with
      | bare h => exact hconvert ▸ hletter ⟨c, false, h⟩ 0 hconvert
      | escape d used =>
          rw [hconvert] at hnone hescapes
          exact hconvert ▸ hletter ⟨d, true, hescapes.isEscapable hnone⟩ used hconvert
      | anchor hc h =>
          rw [hconvert] at hnone
          obtain rfl := eq_nil_of_atEnd h hnone
          exact ⟨[], true, rfl⟩
      | operator d written used spot' h =>
          rw [hconvert] at hnone
          exact absurd hnone (by rw [List.cons_append, beginsSign_operator h]; decide)

/-- A pattern in the basic notation in which no sign is seen and that escapes nothing else is
plain. -/
lemma exists_plain {t : Text} (hsigns : needsTree (BasicNotation.toExtended t) = false)
    (hescapes : EscapesAscii (BasicNotation.toExtended t)) :
    ∃ p : PlainPattern, BasicNotation.toExtended t = p.text := by
  by_cases hstart : t.head? = some '^'
  · obtain ⟨rest, rfl⟩ := List.head?_eq_some_iff.1 hstart
    have hconverted : BasicNotation.toExtended ('^' :: rest) =
        '^' :: convertAll 0 .afterAnchor rest := rfl
    rw [hconverted] at hescapes
    rw [needsTree, hconverted] at hsigns
    have hbehind : anywhereUnescaped beginsSign ['^'] (convertAll 0 .afterAnchor rest) = false :=
      anywhere_append ['^'] hsigns
    obtain ⟨letters, atEnd, h⟩ := exists_letters (fun h => by cases h) rfl hbehind
      (EscapesAscii.tail (s := .start) hescapes)
    exact ⟨⟨true, letters, atEnd⟩, by rw [hconverted, h]; rfl⟩
  · have hnone : anywhereUnescaped beginsSign [] (convertAll 0 .start t) = false := hsigns
    obtain ⟨letters, atEnd, h⟩ := exists_letters (fun _ => hstart) rfl hnone hescapes
    exact ⟨⟨false, letters, atEnd⟩, h⟩

/-! ### The choice of plain text -/

/-- Each step of the passage to the extended notation writes something. -/
lemma toExtended_ne_nil {t : Text} (ht : t ≠ []) : BasicNotation.toExtended t ≠ [] := by
  cases t with
  | nil => exact absurd rfl ht
  | cons c rest =>
      by_cases hc : c = '^'
      · rw [hc]
        exact List.cons_ne_nil _ _
      · have hstep : BasicNotation.Step c rest (convert .start c rest) :=
          BasicNotation.convert_step (fun _ => hc) rest
        rw [BasicNotation.toExtended, BasicNotation.convertAll_cons]
        generalize convert .start c rest = step at hstep
        cases hstep with
        | _ => exact List.cons_ne_nil _ _

/-- The search for plain text finds what the library finds for a plain pattern. -/
lemma captures_plain {library : Library} (hlibrary : library.ReadsSigns) {p : PlainPattern}
    (hp : p.text ≠ []) {m : Standard}
    (hm : library.standard? (Text.ofString "(?s)" ++ p.text) = some m) (t : Text) :
    m.groupCount = 1 ∧ m.captures t = literalMatches (.ofText p.text) t ∧
      m.isMatch t = ((Literal.ofText p.text).find? t).isSome := by
  rw [← p.text_signs] at hm
  obtain ⟨hgroups, hcaptures⟩ := hlibrary.captures hm
  have hmatches : m.captures t = literalMatches (.ofText p.text) t := by
    rw [hcaptures, PlainPattern.all_finder hp, p.literal_ofText]
  refine ⟨hgroups, hmatches, ?_⟩
  rw [hlibrary.isMatch hm, hmatches, ← Literal.isSome_find?]

/-- Matches found in the same way are the same, also if there is a limit to their number. -/
lemma allMatches_congr {source source' : Text} {engine engine' : Engine} {t : Text}
    (h : engine.captures t = engine'.captures t) (limit : Option ℕ) :
    (⟨source, engine⟩ : Regex).allMatches limit t =
      (⟨source', engine'⟩ : Regex).allMatches limit t := by
  rw [allMatches, allMatches, h]

section Library

variable {library : Library} {options : Options} {pattern : Text}

/-- Plain text is searched for only where no sign is seen. -/
lemma of_ofText?_literal {l : Literal} (h : Engine.ofText? options pattern = some (.literal l)) :
    needsTree pattern = false ∧ l = .ofText pattern ∧
      options.flags = Text.ofString "(?s)" := by
  rw [Engine.ofText?] at h
  split at h
  · rename_i hplain
    simp only [Bool.and_eq_true, Bool.not_eq_true'] at hplain
    obtain ⟨⟨⟨hcase, hlines⟩, hsigns⟩, -⟩ := hplain
    refine ⟨hsigns, (Engine.literal.inj (Option.some.inj h)).symm, ?_⟩
    rw [Options.flags, hcase, hlines]
    rfl
  · split at h
    · obtain ⟨m, -, hm⟩ := Option.map_eq_some_iff.1 h
      cases hm
    · obtain ⟨m, -, hm⟩ := Option.map_eq_some_iff.1 h
      cases hm

/-- Where plain text is searched for instead of an expression in the basic notation that the library
accepts, the matches are those of the expression, there is one if and only if the text is found, and
there are no groups. -/
theorem allMatches_literal_eq (hlibrary : library.ReadsSigns) (hbasic : options.extended = false)
    (hpattern : pattern ≠ []) {re : Regex} (hre : compile? options pattern = some re) {l : Literal}
    (hl : re.engine = .literal l) {m : Standard}
    (hm : library.standard? (options.flags ++ BasicNotation.toExtended pattern) = some m)
    (limit : Option ℕ) (text : Text) :
    re.allMatches limit text = (⟨pattern, .standard m⟩ : Regex).allMatches limit text ∧
      re.isMatch text = .ok !(re.allMatches none text).1.isEmpty ∧
      re.isMatch text = .ok (m.isMatch text) ∧ re.groupCount = 1 ∧ m.groupCount = 1 := by
  obtain ⟨engine, hengine, rfl⟩ : ∃ engine,
      Engine.ofText? options (BasicNotation.toExtended pattern) = some engine ∧
        (⟨pattern, engine⟩ : Regex) = re := by
    rw [compile?, hbasic] at hre
    exact Option.map_eq_some_iff.1 hre
  obtain rfl : engine = .literal l := hl
  obtain ⟨hsigns, rfl, hflags⟩ := of_ofText?_literal hengine
  rw [hflags] at hm
  obtain ⟨p, hp⟩ := exists_plain hsigns (hlibrary.escapesAscii hm)
  have hne : p.text ≠ [] := hp ▸ toExtended_ne_nil hpattern
  rw [hp] at hm ⊢
  obtain ⟨hgroups, hcaptures, hfound⟩ := captures_plain hlibrary hne hm text
  refine ⟨allMatches_congr ?_ limit, ?_, ?_, rfl, hgroups⟩
  · exact congrArg (·, none) hcaptures.symm
  · exact congrArg Except.ok (Literal.isSome_find? _ text)
  · exact congrArg Except.ok hfound.symm

end Library

/-- A text that is tied to the end, where it has an escaped dot and an escaped backslash. -/
theorem allMatches_literal_eq_escapes :
    Library.builtin.ReadsSigns ∧
    ∃ re l m, compile? ⟨false, false, false⟩ ['a', '\\', '.', '\\', '\\', '$'] = some re ∧
      re.engine = .literal l ∧
      Library.standard? (Options.flags ⟨false, false, false⟩ ++
        BasicNotation.toExtended ['a', '\\', '.', '\\', '\\', '$']) = some m ∧
      re.allMatches none ['b', 'a', '.', '\\'] =
        (⟨['a', '\\', '.', '\\', '\\', '$'], .standard m⟩ : Regex).allMatches none
          ['b', 'a', '.', '\\'] ∧
      re.isMatch ['b', 'a', '.', '\\'] = .ok true := by
  have hre : compile? ⟨false, false, false⟩ ['a', '\\', '.', '\\', '\\', '$'] =
      some ⟨['a', '\\', '.', '\\', '\\', '$'], .literal ⟨['a', '.', '\\'], false, true⟩⟩ := by
    rfl
  obtain ⟨m, hm⟩ : ∃ m, Library.standard? (Options.flags ⟨false, false, false⟩ ++
      BasicNotation.toExtended ['a', '\\', '.', '\\', '\\', '$']) = some m := ⟨_, rfl⟩
  have h := allMatches_literal_eq Library.readsSigns_builtin rfl (List.cons_ne_nil _ _) hre rfl hm
    none ['b', 'a', '.', '\\']
  exact ⟨Library.readsSigns_builtin, _, _, _, hre, rfl, hm, h.1, h.2.1⟩

end StreamEditor.Regex
