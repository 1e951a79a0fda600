import StreamEditor.Proofs.Regex.Grouped

/-!
What a repetition can follow in the basic notation, and what it becomes in the extended one.

* `BasicNotation.Body`: what may stand in a group; `Body.grouped` says that it becomes a text in
  which each group that is opened is closed again.
* `BasicNotation.Repeatable`: what a repetition can follow where an expression begins;
  `Repeatable.operand` says that it becomes a text that a repetition can follow.
-/

namespace StreamEditor.Regex

namespace BasicNotation

open Lexeme

/-- True for the characters that a backslash may precede by itself: the two open and close nothing,
refer to nothing, and take in nothing of what follows. -/
def isWholeEscape (c : Char) : Bool :=
  !(['(', ')', '{', 'x', 'u', 'U', 'b'].contains c) && !(c.isDigit && c ≠ '0')

/-- What may stand in a group: all parentheses, braces and brackets are closed, and no reference is
made. -/
inductive Body : Text → Prop
  | nil : Body []
  | char {c : Char} {t : Text} (hc : c ≠ '\\') (hbracket : c ≠ '[') (h : Body t) : Body (c :: t)
  | escape {c : Char} {t : Text} (hc : isWholeEscape c = true) (h : Body t) : Body ('\\' :: c :: t)
  | boundary {t : Text} (ht : t.take 2 ≠ ['\\', '{']) (h : Body t) : Body ('\\' :: 'b' :: t)
  | braces {bounds t : Text} (hbounds : ∀ c ∈ bounds, c.isDigit = true ∨ c = ',') (h : Body t) :
      Body ('\\' :: '{' :: (bounds ++ '\\' :: '}' :: t))
  | brackets {t : Text} (b : Brackets) (hb : b.Clear) (h : Body t) : Body ('[' :: (b.basic ++ t))
  | group {inner t : Text} (hinner : Body inner) (hfront : inner.take 2 ≠ ['\\', '?'])
    (h : Body t) :
      Body ('\\' :: '(' :: (inner ++ '\\' :: ')' :: t))

/-- What a repetition can follow where an expression begins. An asterisk stands for itself there,
and so does a dollar sign with something behind it. -/
inductive Repeatable : Text → Prop
  | char {c : Char} (hc : c ∉ ['\\', '[', '^']) : Repeatable [c]
  | escape {c : Char} (hc : isWholeEscape c = true) (hpart : c ∉ ['|', '+', '?']) :
      Repeatable ['\\', c]
  | brackets (b : Brackets) (hb : b.Clear) : Repeatable ('[' :: b.basic)
  | group {inner : Text} (hinner : Body inner) (hfront : inner.take 2 ≠ ['\\', '?']) :
      Repeatable ('\\' :: '(' :: (inner ++ ['\\', ')']))

/-- Whether an expression ends at a place is decided by what stands in the group. -/
lemma Body.exists_atEnd {t : Text} (h : Body t) :
    ∃ ends, ∀ rest, atEnd rest = true → atEnd (t ++ rest) = ends := by
  cases h with
  | nil => exact ⟨true, fun rest h => h⟩
  | char hc =>
      refine ⟨false, fun rest _ => ?_⟩
      rw [List.cons_append, atEnd.eq_def]
      split
      · rename_i heq
        cases heq
      · rename_i heq
        exact absurd (List.cons.inj heq).1 hc
      · rfl
  | escape | boundary | braces | group => exact ⟨_, fun rest _ => rfl⟩
  | brackets => exact ⟨false, fun rest _ => rfl⟩

/-- What a character becomes outside brackets: a part that is read by itself, or a repetition where
one can stand. -/
lemma convert_char {c : Char} (hc : c ≠ '\\') (hbracket : c ≠ '[') (spot : Spot) (ends : Bool) :
    ∃ u spot', (Flat u ∨ Quantifier u ∧ spot = .inside) ∧ (c ≠ '^' → spot' = .inside) ∧
      (∀ v, (u ++ v).head? ≠ some '?' ∧ (u ++ v).head? ≠ some '{') ∧
      ∀ rest, atEnd rest = ends → convert spot c rest = (u, 0, spot') := by
  by_cases hop : ['+', '?', '{', '}', '|', '(', ')'].contains c = true
  · have hescape : c ∉ ['x', 'u', 'U', 'b'] := fun hmem => by fin_cases hmem <;> cases hop
    refine ⟨['\\', c], .inside, .inl (.escape c hescape), by simp, by simp, fun rest _ => ?_⟩
    rw [convert, if_neg hc, if_neg hbracket, if_pos hop]
  by_cases hstar : c = '*'
  · subst hstar
    by_cases hspot : spot = .inside
    · refine ⟨['*'], .inside, .inr ⟨.sign '*' (by simp), hspot⟩, by simp, by simp, fun rest _ => ?_⟩
      rw [hspot]
      rfl
    · refine ⟨['\\', '*'], .inside, .inl (.escape '*' (by decide)), by simp, by simp,
        fun rest _ => ?_⟩
      cases spot <;> first | rfl | exact absurd rfl hspot
  by_cases hcircumflex : c = '^'
  · subst hcircumflex
    by_cases hspot : spot = .start
    · refine ⟨['^'], .afterAnchor, .inl (.sign '^' (by simp)), by simp, by simp, fun rest _ => ?_⟩
      rw [hspot]
      rfl
    · refine ⟨['\\', '^'], .inside, .inl (.escape '^' (by decide)), by simp, by simp,
        fun rest _ => ?_⟩
      cases spot <;> first | rfl | exact absurd rfl hspot
  by_cases hdollar : c = '$'
  · subst hdollar
    cases ends with
    | true =>
        refine ⟨['$'], .inside, .inl (.sign '$' (by simp)), by simp, by simp, fun rest h => ?_⟩
        simp [convert, h]
    | false =>
        refine ⟨['\\', '$'], .inside, .inl (.escape '$' (by decide)), by simp, by simp,
          fun rest h => ?_⟩
        simp [convert, h]
  by_cases hdot : c = '.'
  · subst hdot
    exact ⟨['.'], .inside, .inl (.sign '.' (by simp)), by simp, by simp, fun rest _ => rfl⟩
  have hplain : isExtendedSign c = false := by
    rw [isExtendedSign, isBasicSign, Bool.eq_false_of_not_eq_true hop]
    simp [hc, hbracket, hstar, hcircumflex, hdollar, hdot]
  have hne : c ≠ '?' ∧ c ≠ '{' := by
    constructor <;> rintro rfl <;> exact hop rfl
  refine ⟨[c], .inside, .inl (.literal c hplain), by simp, fun v => by simpa using hne,
    fun rest _ => ?_⟩
  rw [convert, if_neg hc, if_neg hbracket, if_neg hop]
  simp [hstar, hcircumflex, hdollar]

/-- What a backslash and a character become that belong to nothing else. -/
lemma escaped_whole {c : Char} (hc : isWholeEscape c = true) :
    ∃ u spot', (c ∉ ['|', '+', '?'] → Flat u ∧ spot' = .inside) ∧
    (∀ t, Grouped t → Grouped (u ++ t)) ∧
      (∀ v, ((u ++ v).head? = some '?' → c = '?') ∧ (u ++ v).head? ≠ some '{') ∧
      ∀ rest, escaped (c :: rest) = (u, 1, spot') := by
  by_cases hbar : c = '|'
  · subst hbar
    exact ⟨['|'], .start, by simp, fun t => .bar, by simp, fun rest => rfl⟩
  by_cases hsign : c ∈ ['+', '?']
  · refine ⟨[c], .inside, fun h => absurd (List.mem_cons_of_mem _ hsign) h,
      fun t => .quantifier (.sign c (List.mem_cons_of_mem _ hsign)), fun v => ?_, fun rest => ?_⟩
    · fin_cases hsign <;> simp
    · fin_cases hsign <;> rfl
  -- All others become a part that is read by itself.
  have hflat {u : Text} (hu : Flat u)
      (hhead : ∀ v, (u ++ v).head? ≠ some '?' ∧ (u ++ v).head? ≠ some '{')
      (h : ∀ rest, escaped (c :: rest) = (u, 1, .inside)) :
      ∃ u spot', (c ∉ ['|', '+', '?'] → Flat u ∧ spot' = .inside) ∧
      (∀ t, Grouped t → Grouped (u ++ t)) ∧
        (∀ v, ((u ++ v).head? = some '?' → c = '?') ∧ (u ++ v).head? ≠ some '{') ∧
        ∀ rest, escaped (c :: rest) = (u, 1, spot') :=
    ⟨u, .inside, fun _ => ⟨hu, rfl⟩, fun t => .flat hu,
      fun v => ⟨fun h => absurd h (hhead v).1, (hhead v).2⟩, h⟩
  by_cases htextStart : c = '`'
  · subst htextStart
    exact hflat (.escape 'A' (by decide)) (by simp) fun rest => rfl
  by_cases htextEnd : c = '\''
  · subst htextEnd
    exact hflat (.escape 'z' (by decide)) (by simp) fun rest => rfl
  by_cases hbrace : c = '}'
  · subst hbrace
    exact hflat (.sign '}' (by simp)) (by simp) fun rest => rfl
  simp only [isWholeEscape, Bool.and_eq_true, Bool.not_eq_true'] at hc
  obtain ⟨hwhole, hdigit⟩ := hc
  have hescape : c ∉ ['x', 'u', 'U', 'b'] := fun hmem => by fin_cases hmem <;> cases hwhole
  have hoperator : [')', '{', '}', '+', '?'].contains c = false := by
    simp at hwhole hsign
    simp [hwhole, hsign, hbrace]
  refine hflat (.escape c hescape) (by simp) fun rest => ?_
  rw [escaped.eq_def]
  split
  · rename_i heq
    cases heq
  · rename_i heq
    obtain rfl := (List.cons.inj heq).1
    cases hwhole
  · rename_i heq
    exact absurd (List.cons.inj heq).1 hbar
  · rename_i heq
    exact absurd (List.cons.inj heq).1 htextStart
  · rename_i heq
    exact absurd (List.cons.inj heq).1 htextEnd
  · rename_i heq
    obtain rfl := (List.cons.inj heq).1
    simp only [hoperator, hdigit, Bool.false_eq_true, if_false]

/-- What stands in a group becomes a text in which each group is closed, wherever the group
stands. -/
lemma Body.grouped {t : Text} (h : Body t) (spot : Spot) :
    ∃ u spot', Grouped u ∧ (u.head? = some '?' → t.take 2 = ['\\', '?']) ∧
      (u.head? = some '{' → t.take 2 = ['\\', '{']) ∧
      ∀ rest, atEnd rest = true →
        convertAll 0 spot (t ++ rest) = u ++ convertAll 0 spot' rest := by
  induction h generalizing spot with
  | nil => exact ⟨[], spot, .nil, by simp, by simp, fun rest _ => rfl⟩
  | @char c t hc hbracket h ih =>
      obtain ⟨ends, hends⟩ := h.exists_atEnd
      obtain ⟨u, spot', hu, -, hhead, hconvert⟩ := convert_char hc hbracket spot ends
      obtain ⟨v, spot'', hv, -, -, hrest⟩ := ih spot'
      refine ⟨u ++ v, spot'', hu.elim (.flat · hv) fun hu => .quantifier hu.1 hv,
        fun h => absurd h (hhead v).1, fun h => absurd h (hhead v).2, fun rest hrest' => ?_⟩
      rw [List.cons_append, convertAll_cons, hconvert _ (hends rest hrest'), List.drop_zero,
        hrest rest hrest', List.append_assoc]
  | @escape c t hc _ ih =>
      obtain ⟨u, spot', -, hu, hhead, hescaped⟩ := escaped_whole hc
      obtain ⟨v, spot'', hv, -, -, hrest⟩ := ih spot'
      refine ⟨u ++ v, spot'', hu v hv, fun h => ?_, fun h => absurd h (hhead v).2,
        fun rest hrest' => ?_⟩
      · rw [(hhead v).1 h]
        rfl
      · have hconvert : convert spot '\\' (c :: (t ++ rest)) = (u, 1, spot') := hescaped (t ++ rest)
        rw [List.cons_append, List.cons_append, convertAll_cons, hconvert, List.drop_one,
          List.tail_cons, hrest rest hrest', List.append_assoc]
  | @boundary t ht _ ih =>
      obtain ⟨v, spot', hv, -, hbrace, hrest⟩ := ih .inside
      refine ⟨'\\' :: 'b' :: v, spot', .boundary (fun h => ht (hbrace h)) hv, by simp, by simp,
        fun rest hrest' => ?_⟩
      have hconvert : convert spot '\\' ('b' :: (t ++ rest)) = (['\\', 'b'], 1, .inside) := rfl
      rw [List.cons_append, List.cons_append, convertAll_cons, hconvert, List.drop_one,
        List.tail_cons, hrest rest hrest']
      rfl
  | @braces bounds t hbounds _ ih =>
      obtain ⟨v, spot', hv, -, -, hrest⟩ := ih .inside
      refine ⟨'{' :: bounds ++ ['}'] ++ v, spot', .quantifier (.braces bounds hbounds) hv, by simp,
        fun _ => rfl, fun rest hrest' => ?_⟩
      have hplain : ∀ c ∈ bounds, isExtendedSign c = false := fun c hc =>
        isExtendedSign_bound (hbounds c hc)
      simp only [List.cons_append, List.append_assoc, List.nil_append, convertAll_openBounds,
        convertAll_plains hplain, convertAll_closeBounds, hrest rest hrest']
  | @brackets t b hb _ ih =>
      obtain ⟨v, spot', hv, -, -, hrest⟩ := ih .inside
      refine ⟨'[' :: b.extended ++ v, spot', .flat (.brackets b hb) hv, by simp, by simp,
        fun rest hrest' => ?_⟩
      have hconvert := convertAll_brackets spot b (t ++ rest)
      rw [Atom.basic, Atom.extended, hrest rest hrest'] at hconvert
      simpa using hconvert
  | @group inner t hinner hfront h ihinner ih =>
      obtain ⟨u, spot', hu, hmark, -, hinside⟩ := ihinner .start
      obtain ⟨v, spot'', hv, -, -, hrest⟩ := ih .inside
      refine ⟨'(' :: (u ++ ')' :: v), spot'', .group hu (fun h => hfront (hmark h)) hv, by simp,
        by simp, fun rest hrest' => ?_⟩
      simp only [List.cons_append, List.append_assoc, convertAll_openGroup,
        hinside ('\\' :: ')' :: (t ++ rest)) rfl, convertAll_closeGroup, hrest rest hrest']

/-- What a repetition can follow where an expression begins is converted by itself. -/
lemma Repeatable.operand {t : Text} (h : Repeatable t) :
    ∃ u, Operand u ∧ ∀ rest, atEnd rest = false →
      convertAll 0 .start (t ++ rest) = u ++ convertAll 0 .inside rest := by
  cases h with
  | @char c hc =>
      simp only [List.mem_cons, List.not_mem_nil, or_false, not_or] at hc
      obtain ⟨hbackslash, hbracket, hcircumflex⟩ := hc
      obtain ⟨u, spot', hu, hspot, -, hconvert⟩ := convert_char hbackslash hbracket .start false
      refine ⟨u, .flat (hu.resolve_right (by simp)), fun rest hrest => ?_⟩
      rw [List.singleton_append, convertAll_cons, hconvert rest hrest, hspot hcircumflex,
        List.drop_zero]
  | @escape c hc hpart =>
      obtain ⟨u, spot', hu, -, -, hescaped⟩ := escaped_whole hc
      obtain ⟨hflat, rfl⟩ := hu hpart
      refine ⟨u, .flat hflat, fun rest _ => ?_⟩
      have hconvert : convert .start '\\' (c :: rest) = (u, 1, .inside) := hescaped rest
      rw [List.cons_append, List.singleton_append, convertAll_cons, hconvert, List.drop_one,
        List.tail_cons]
  | brackets b hb =>
      refine ⟨'[' :: b.extended, .flat (.brackets b hb), fun rest _ => ?_⟩
      simpa [Atom.basic, Atom.extended] using convertAll_brackets .start b rest
  | @group inner hinner hfront =>
      obtain ⟨u, spot', hu, hmark, -, hinside⟩ := hinner.grouped .start
      refine ⟨'(' :: (u ++ [')']), .group hu fun h => hfront (hmark h), fun rest _ => ?_⟩
      have hinside' := hinside ('\\' :: ')' :: rest) rfl
      simp only [List.cons_append, List.append_assoc, List.nil_append, convertAll_openGroup,
        hinside', convertAll_closeGroup]

end BasicNotation

end StreamEditor.Regex
