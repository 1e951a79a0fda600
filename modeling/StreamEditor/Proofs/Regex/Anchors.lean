import StreamEditor.Proofs.Regex.Shortcut

/-!
The search for plain text in place of an expression in the extended notation.

* `hasInnerAnchor`: an anchor stands inside a pattern, where no plain text can express it.
* `exists_signs`: a pattern in which no sign is seen consists of letters and anchors.
* `Hopeless`: the signs of such a pattern if an anchor stands inside: they fit nowhere.
* `allMatches_extended_eq`: without an inner anchor the search for plain text finds the matches that
  the library finds; with one that is not seen, plain text is found where nothing matches.
-/

namespace StreamEditor.Regex

open BasicNotation (isBasicSign isExtendedSign isOperator anchor)

/-! ### Inner anchors -/

/-- True if a text has an anchor that is not escaped, other than a dollar sign at its end. -/
def holdsAnchor : Text → Bool
  | [] => false
  | ['\\'] => false
  | '\\' :: _ :: rest => holdsAnchor rest
  | ['$'] => false
  | c :: rest => c = '^' || c = '$' || holdsAnchor rest

/-- True if a pattern in the extended notation has an anchor that is not escaped, other than a
circumflex at its start or a dollar sign at its end. -/
def hasInnerAnchor : Text → Bool
  | '^' :: rest => holdsAnchor rest
  | pattern => holdsAnchor pattern

lemma hasInnerAnchor_of_head {t : Text} (ht : t.head? ≠ some '^') :
    hasInnerAnchor t = holdsAnchor t := by
  rw [hasInnerAnchor]
  rintro rest rfl
  exact ht rfl

lemma holdsAnchor_escaped (d : Char) (rest : Text) :
    holdsAnchor ('\\' :: d :: rest) = holdsAnchor rest := by rw [holdsAnchor]

lemma holdsAnchor_bare {c : Char} (hc : isExtendedSign c = false) (rest : Text) :
    holdsAnchor (c :: rest) = holdsAnchor rest := by
  have hne (d : Char) (hd : isExtendedSign d = true) : c ≠ d :=
    ne_of_apply_ne isExtendedSign (by rw [hc, hd]; decide)
  rw [holdsAnchor]
  · simp [hne '^' rfl, hne '$' rfl]
  · exact fun h _ => hne '\\' rfl h
  · exact fun _ _ h _ => hne '\\' rfl h
  · exact fun h _ => hne '$' rfl h

/-- A letter holds no anchor. -/
lemma holdsAnchor_letter (w : Letter) (rest : Text) :
    holdsAnchor (w.text ++ rest) = holdsAnchor rest := by
  obtain ⟨htext, hsound⟩ | ⟨htext, -⟩ := w.cases
  · rw [htext]
    exact holdsAnchor_bare hsound rest
  · rw [htext]
    exact holdsAnchor_escaped w.char rest

lemma holdsAnchor_circumflex (rest : Text) : holdsAnchor ('^' :: rest) = true := by
  rw [holdsAnchor] <;> simp

lemma holdsAnchor_dollar {rest : Text} (hrest : rest ≠ []) : holdsAnchor ('$' :: rest) = true := by
  rw [holdsAnchor]
  · simp
  · simp
  · simp
  · exact fun _ h => hrest h

/-! ### Signs -/

/-- Behind a sign another may stand. -/
lemma unescapedAfter_sign (s : Sign) (before : Text) :
    unescapedAfter (s.text.reverse ++ before) = true := by
  cases s with
  | letter w => exact unescapedAfter_letter w before
  | start | stop => exact unescapedAfter_of_ne (by decide) before

/-- The first sign of a pattern in which no sign is seen and that escapes nothing else. -/
lemma exists_sign {c : Char} {rest : Text} (hsign : beginsSign (c :: rest) = false)
    (hescapes : EscapesAscii (c :: rest)) :
    ∃ (s : Sign) (later : Text), c :: rest = s.text ++ later ∧ later.length ≤ rest.length := by
  by_cases hbackslash : c = '\\'
  · subst hbackslash
    cases rest with
    | nil =>
        obtain ⟨d, hd, -⟩ := hescapes [] [] rfl
        cases hd
    | cons d rest =>
        exact ⟨.letter ⟨d, true, hescapes.isEscapable hsign⟩, rest, rfl, Nat.le_succ _⟩
  by_cases hcircumflex : c = '^'
  · exact ⟨.start, rest, by rw [hcircumflex]; rfl, le_rfl⟩
  by_cases hdollar : c = '$'
  · exact ⟨.stop, rest, by rw [hdollar]; rfl, le_rfl⟩
  have hoperator : isOperator c = false := by
    rw [← Bool.not_eq_true]
    intro h
    rw [beginsSign_operator h] at hsign
    cases hsign
  have hbare : isExtendedSign c = false := by
    have hnot : c ∉ ['.', '?', '|', '+', '(', ')', '[', ']', '{', '}', '*'] := by
      simpa [isOperator] using hoperator
    simp only [List.mem_cons, List.not_mem_nil, or_false, not_or] at hnot
    simp [isExtendedSign, isBasicSign, hnot, hbackslash, hcircumflex, hdollar]
  exact ⟨.letter ⟨c, false, hbare⟩, rest, rfl, le_rfl⟩

/-- A pattern in which no sign is seen and that escapes nothing else consists of letters and
anchors. -/
lemma exists_signs {before t : Text} (hplace : unescapedAfter before = true)
    (hsigns : anywhereUnescaped beginsSign before t = false) (hescapes : EscapesAscii t) :
    ∃ signs, t = List.flatMap Sign.text signs := by
  induction hlength : t.length using Nat.strong_induction_on generalizing t before with
  | _ n ih =>
  cases t with
  | nil => exact ⟨[], rfl⟩
  | cons c rest =>
      obtain ⟨s, later, hfirst, hle⟩ := exists_sign (not_beginsSign hplace hsigns) hescapes
      rw [hfirst] at hsigns hescapes ⊢
      obtain ⟨signs, hlater⟩ := ih later.length
        (by rw [← hlength, List.length_cons]; exact Nat.lt_succ_of_le hle)
        (unescapedAfter_sign s before) (anywhere_append s.text hsigns) hescapes.tail rfl
      exact ⟨s :: signs, by rw [List.flatMap_cons, ← hlater]⟩

/-! ### Anchors that cannot hold -/

/-- The end of the text is asked for before a letter, or its start behind one. -/
inductive Hopeless : List Sign → Prop
  | behind (w : Letter) (signs : List Sign) : Hopeless (.letter w :: .start :: signs)
  | ahead (w : Letter) (signs : List Sign) : Hopeless (.stop :: .letter w :: signs)
  | cons (s : Sign) {signs : List Sign} (h : Hopeless signs) : Hopeless (s :: signs)

/-- Hopeless signs fit nowhere. -/
lemma Hopeless.fit {signs : List Sign} (h : Hopeless signs) (before : Option Char) (rest : Text) :
    Sign.fit signs before rest = false := by
  induction h generalizing before rest with
  | behind w signs => cases rest <;> simp [Sign.fit]
  | ahead w signs => cases rest <;> simp [Sign.fit]
  | cons s h ih =>
      cases s with
      | letter w => cases rest <;> simp [Sign.fit, ih]
      | start | stop => simp [Sign.fit, ih]

/-- A sign that follows a dollar sign in which no sign is seen is a letter. -/
lemma exists_letter_of_dollar {s : Sign} {rest : Text}
    (h : beginsSign ('$' :: (s.text ++ rest)) = false) : ∃ w, s = .letter w := by
  cases s with
  | letter w => exact ⟨w, rfl⟩
  | start | stop => cases h

/-- Signs behind an anchor at the start: letters up to an anchor at the end, or else an anchor
stands inside, where it cannot hold. -/
lemma plain_or_hopeless {signs : List Sign} {before : Text}
    (hplace : unescapedAfter before = true) (hhead : signs.head? ≠ some .start)
    (hsigns : anywhereUnescaped beginsSign before (signs.flatMap Sign.text) = false) :
    (holdsAnchor (signs.flatMap Sign.text) = false ∧ ∃ letters atEnd,
        signs.flatMap Sign.text = List.flatMap Letter.text letters ++ anchor atEnd '$') ∨
      (holdsAnchor (signs.flatMap Sign.text) = true ∧ Hopeless signs) := by
  -- An anchor at the start behind a letter and one at the end before a letter cannot hold.
  induction signs generalizing before with
  | nil => exact .inl ⟨rfl, [], false, rfl⟩
  | cons s signs ih =>
      rw [List.flatMap_cons] at hsigns ⊢
      have hnone := not_beginsSign hplace hsigns
      have hlater := anywhere_append s.text hsigns
      cases s with
      | start => exact absurd rfl hhead
      | letter w =>
          change (holdsAnchor (w.text ++ _) = false ∧ _) ∨ (holdsAnchor (w.text ++ _) = true ∧ _)
          rw [holdsAnchor_letter]
          cases signs with
          | nil => exact .inl ⟨rfl, [w], false, by simp [Sign.text, anchor]⟩
          | cons s' signs =>
              cases s' with
              | start => exact .inr ⟨holdsAnchor_circumflex _, .behind _ _⟩
              | letter | stop =>
                  refine (ih (unescapedAfter_letter w before) (by simp) hlater).imp ?_ ?_
                  · rintro ⟨hholds, letters, atEnd, h⟩
                    exact ⟨hholds, w :: letters, atEnd, by rw [h]; simp [Sign.text]⟩
                  · rintro ⟨hholds, hhopeless⟩
                    exact ⟨hholds, .cons _ hhopeless⟩
      | stop =>
          cases signs with
          | nil => exact .inl ⟨rfl, [], true, rfl⟩
          | cons s' signs =>
              rw [List.flatMap_cons] at hnone ⊢
              obtain ⟨w, rfl⟩ := exists_letter_of_dollar hnone
              refine .inr ⟨holdsAnchor_dollar ?_, .ahead _ _⟩
              obtain ⟨htext, -⟩ | ⟨htext, -⟩ := w.cases <;> simp [Sign.text, htext]

/-- A pattern in which no sign is seen and that escapes nothing else is plain, or else an anchor
stands inside, where it cannot hold. -/
lemma plain_or_hopeless_of_needsTree {pattern : Text} (hsigns : needsTree pattern = false)
    (hescapes : EscapesAscii pattern) :
    (hasInnerAnchor pattern = false ∧ ∃ p : PlainPattern, pattern = p.text) ∨
      (hasInnerAnchor pattern = true ∧
        ∃ signs, pattern = List.flatMap Sign.text signs ∧ Hopeless signs) := by
  rw [needsTree] at hsigns
  obtain ⟨signs, rfl⟩ := exists_signs rfl hsigns hescapes
  -- An anchor at the start is in its place; what is behind it is looked at by itself.
  by_cases hstart : signs.head? = some .start
  · obtain ⟨signs, rfl⟩ := List.head?_eq_some_iff.1 hstart
    rw [List.flatMap_cons] at hsigns ⊢
    have hhead : signs.head? ≠ some .start := fun h => by
      obtain ⟨signs, rfl⟩ := List.head?_eq_some_iff.1 h
      cases not_beginsSign rfl hsigns
    have hplace : unescapedAfter ['^'] = true := rfl
    refine (plain_or_hopeless hplace hhead (anywhere_append ['^'] hsigns)).imp ?_ ?_
    · rintro ⟨hholds, letters, atEnd, h⟩
      exact ⟨hholds, ⟨true, letters, atEnd⟩, by rw [h]; rfl⟩
    · rintro ⟨hholds, hhopeless⟩
      exact ⟨hholds, .start :: signs, rfl, .cons _ hhopeless⟩
  · have hhead : (signs.flatMap Sign.text).head? ≠ some '^' := by
      cases signs with
      | nil => simp
      | cons s signs =>
          cases s with
          | start => exact absurd rfl hstart
          | stop => simp [Sign.text]
          | letter w =>
              obtain ⟨htext, hsound⟩ | ⟨htext, -⟩ := w.cases
              · have hne : w.char ≠ '^' :=
                  ne_of_apply_ne isExtendedSign (by rw [hsound]; decide)
                simpa [Sign.text, htext] using hne
              · simp [Sign.text, htext]
    rw [hasInnerAnchor_of_head hhead]
    refine (plain_or_hopeless rfl hstart hsigns).imp ?_ ?_
    · rintro ⟨hholds, letters, atEnd, h⟩
      exact ⟨hholds, ⟨false, letters, atEnd⟩, h⟩
    · rintro ⟨hholds, hhopeless⟩
      exact ⟨hholds, signs, rfl, hhopeless⟩

/-! ### The choice of plain text -/

/-- A text is found in itself. -/
lemma Literal.isSome_find?_needle (l : Literal) : (l.find? l.needle).isSome = true := by
  have hfits : l.fits none l.needle = true := by simp [fits]
  rw [find?_eq_firstFit]
  cases hneedle : l.needle with
  | nil => rw [firstFit, if_pos (hneedle ▸ hfits)]; rfl
  | cons c needle => rw [firstFit, if_pos (hneedle ▸ hfits)]; rfl

/-- Where plain text is searched for instead of an expression in the extended notation that the
library accepts, the matches are those of the expression, unless an anchor stands inside the
pattern. Then the expression matches nothing at all, and yet the pattern without its backslashes is
found. -/
theorem allMatches_extended_eq {library : Library} (hlibrary : library.ReadsSigns)
    {options : Options} (hextended : options.extended = true) {pattern : Text}
    (hpattern : pattern ≠ []) {re : Regex} (hre : compile? options pattern = some re) {l : Literal}
    (hl : re.engine = .literal l) {m : Standard}
    (hm : library.standard? (options.flags ++ pattern) = some m) :
    (hasInnerAnchor pattern = false → ∀ limit text,
      re.allMatches limit text = (⟨pattern, .standard m⟩ : Regex).allMatches limit text ∧
        re.isMatch text = .ok (m.isMatch text) ∧
        re.isMatch text = .ok !(re.allMatches none text).1.isEmpty) ∧
    (hasInnerAnchor pattern = true →
      (∀ limit text,
        (⟨pattern, .standard m⟩ : Regex).allMatches limit text = ([], none) ∧
          m.isMatch text = false) ∧
      re.isMatch l.needle = .ok true) := by
  obtain ⟨engine, hengine, rfl⟩ : ∃ engine, Engine.ofText? options pattern = some engine ∧
      (⟨pattern, engine⟩ : Regex) = re := by
    rw [compile?, hextended] at hre
    exact Option.map_eq_some_iff.1 hre
  obtain rfl : engine = .literal l := hl
  obtain ⟨hsigns, rfl, hflags⟩ := of_ofText?_literal hengine
  rw [hflags] at hm
  obtain ⟨hnone, p, rfl⟩ | ⟨hinner, signs, rfl, hhopeless⟩ :=
    plain_or_hopeless_of_needsTree hsigns (hlibrary.escapesAscii hm)
  · refine ⟨fun _ limit text => ?_, fun h => absurd h (by rw [hnone]; decide)⟩
    obtain ⟨-, hcaptures, hfound⟩ := captures_plain hlibrary hpattern hm text
    refine ⟨allMatches_congr ?_ limit, ?_, ?_⟩
    · exact congrArg (·, none) hcaptures.symm
    · exact congrArg Except.ok hfound.symm
    · exact congrArg Except.ok (Literal.isSome_find? _ text)
  · refine ⟨fun h => absurd h (by rw [hinner]; decide), fun _ => ⟨fun limit text => ?_, ?_⟩⟩
    · have hcaptures : m.captures text = [] := by
        rw [(hlibrary.captures hm).2, Sign.all_finder_of_not_fit hhopeless.fit]
      refine ⟨?_, ?_⟩
      · rw [allMatches, Engine.captures, hcaptures]
        cases limit <;> simp
      · rw [hlibrary.isMatch hm, hcaptures]
        rfl
    · change Except.ok ((Literal.ofText _).find? _).isSome = _
      rw [Literal.isSome_find?_needle]

/-- A text with an escaped dot, tied to both ends. -/
theorem allMatches_extended_eq_dot :
    Library.builtin.ReadsSigns ∧
    ∃ re l m, compile? ⟨true, false, false⟩ ['^', '\\', '.', 'a', '$'] = some re ∧
      re.engine = .literal l ∧
      Library.standard? (Options.flags ⟨true, false, false⟩ ++ ['^', '\\', '.', 'a', '$']) =
        some m ∧
      re.allMatches none ['.', 'a'] =
        (⟨['^', '\\', '.', 'a', '$'], .standard m⟩ : Regex).allMatches none ['.', 'a'] ∧
      (re.allMatches none ['.', 'a']).1 = [⟨0, 2, [some (0, 2)]⟩] := by
  have hre : compile? ⟨true, false, false⟩ ['^', '\\', '.', 'a', '$'] =
      some ⟨['^', '\\', '.', 'a', '$'], .literal ⟨['.', 'a'], true, true⟩⟩ := by rfl
  obtain ⟨m, hm⟩ : ∃ m, Library.standard?
      (Options.flags ⟨true, false, false⟩ ++ ['^', '\\', '.', 'a', '$']) = some m := ⟨_, rfl⟩
  have h := allMatches_extended_eq Library.readsSigns_builtin rfl (List.cons_ne_nil _ _) hre rfl hm
  exact ⟨Library.readsSigns_builtin, _, _, _, hre, rfl, hm, (h.1 rfl none ['.', 'a']).1, rfl⟩

/-- A circumflex behind an escaped dot is an anchor that matches nowhere, and it is found as if it
were a letter. -/
theorem allMatches_extended_inner :
    ∃ re l m, compile? ⟨true, false, false⟩ ['\\', '.', '^'] = some re ∧
      re.engine = .literal l ∧
      Library.standard? (Options.flags ⟨true, false, false⟩ ++ ['\\', '.', '^']) = some m ∧
      (re.allMatches none ['.', '^']).1 = [⟨0, 2, [some (0, 2)]⟩] ∧
      ((⟨['\\', '.', '^'], .standard m⟩ : Regex).allMatches none ['.', '^']).1 = [] := by
  have hre : compile? ⟨true, false, false⟩ ['\\', '.', '^'] =
      some ⟨['\\', '.', '^'], .literal ⟨['.', '^'], false, false⟩⟩ := by rfl
  exact ⟨_, _, _, hre, rfl, rfl, rfl, by decide +kernel⟩

end StreamEditor.Regex
