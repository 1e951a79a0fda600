import StreamEditor.Proofs.Regex.Spelling

/-!
The passage from the basic to the extended notation, along the structure of an expression.

* `convertAll_literal`, `convertAll_reference`, `convertAll_brackets`, `convertAll_repetition`:
  what becomes of the parts, whatever stands before and after them.
* `convertAll_atom`, `convertAll_items`, `convertAll_expression`: what becomes of whole
  expressions. Only an anchor at the start depends on what comes before it, and only one at the
  end on what follows; where an expression begins and ends both are as they must be.
* `toExtended_basic`: an expression keeps its structure, and its groups.
-/

namespace StreamEditor.Regex.BasicNotation

/-- Characters already taken are dropped. -/
lemma convertAll_eq_drop (n : ℕ) (spot : Spot) (t : Text) :
    convertAll n spot t = convertAll 0 spot (t.drop n) := by
  induction t generalizing n with
  | nil => cases n <;> rfl
  | cons c rest ih =>
    cases n with
    | zero => rfl
    | succ n => exact ih n

lemma convertAll_cons (spot : Spot) (c : Char) (rest : Text) :
    convertAll 0 spot (c :: rest) =
      (convert spot c rest).1 ++
        convertAll 0 (convert spot c rest).2.2 (rest.drop (convert spot c rest).2.1) := by
  rw [convertAll, ← convertAll_eq_drop]

lemma convertAll_openGroup (spot : Spot) (rest : Text) :
    convertAll 0 spot ('\\' :: '(' :: rest) = '(' :: convertAll 0 .start rest := rfl

lemma convertAll_closeGroup (spot : Spot) (rest : Text) :
    convertAll 0 spot ('\\' :: ')' :: rest) = ')' :: convertAll 0 .inside rest := rfl

lemma convertAll_openBounds (spot : Spot) (rest : Text) :
    convertAll 0 spot ('\\' :: '{' :: rest) = '{' :: convertAll 0 .inside rest := rfl

lemma convertAll_closeBounds (spot : Spot) (rest : Text) :
    convertAll 0 spot ('\\' :: '}' :: rest) = '}' :: convertAll 0 .inside rest := rfl

/-! ### Literals, references and repetitions -/

/-- A character without a meaning in the basic notation is escaped where it has one in the other. -/
lemma convert_of_not_basic {c : Char} (hc : isBasicSign c = false) (spot : Spot) (rest : Text) :
    convert spot c rest = (escapeIf isExtendedSign c, 0, .inside) := by
  have hext : isExtendedSign c = ['+', '?', '{', '}', '|', '(', ')'].contains c := by
    rw [isExtendedSign, hc, Bool.false_or]
  have hne : c ≠ '\\' ∧ c ≠ '.' ∧ c ≠ '*' ∧ c ≠ '[' ∧ c ≠ '^' ∧ c ≠ '$' := by
    simpa [isBasicSign, not_or] using hc
  obtain ⟨h₁, -, h₃, h₄, h₅, h₆⟩ := hne
  rw [convert, if_neg h₁, if_neg h₄, escapeIf, hext]
  split
  · rfl
  · simp [h₃, h₆]

/-- A literal is converted by itself. -/
lemma convertAll_literal (spot : Spot) (c : Char) (rest : Text) :
    convertAll 0 spot (escapeIf isBasicSign c ++ rest) =
      escapeIf isExtendedSign c ++ convertAll 0 .inside rest := by
  cases hc : isBasicSign c with
  | true =>
      have hext : isExtendedSign c = true := by rw [isExtendedSign, hc, Bool.true_or]
      rw [escapeIf, if_pos hc, escapeIf, if_pos hext]
      have hmem : c ∈ ['\\', '.', '*', '[', '^', '$'] := by simpa [isBasicSign] using hc
      fin_cases hmem <;> rfl
  | false =>
      rw [escapeIf, hc, if_neg (by simp), List.singleton_append, convertAll_cons,
        convert_of_not_basic hc]
      rfl

/-- A character that has no meaning in either notation stays as it is. -/
lemma convertAll_plain {c : Char} (hc : isExtendedSign c = false) (spot : Spot) (rest : Text) :
    convertAll 0 spot (c :: rest) = c :: convertAll 0 .inside rest := by
  have hbasic : isBasicSign c = false := by
    rw [isExtendedSign, Bool.or_eq_false_iff] at hc
    exact hc.1
  have h := convertAll_literal spot c rest
  simpa [escapeIf, hc, hbasic] using h

lemma convertAll_plains {t : Text} (ht : ∀ c ∈ t, isExtendedSign c = false) (rest : Text) :
    convertAll 0 .inside (t ++ rest) = t ++ convertAll 0 .inside rest := by
  induction t with
  | nil => rfl
  | cons c t ih =>
      rw [List.cons_append, convertAll_plain (ht c (by simp)), ih fun d hd => ht d (by simp [hd])]
      rfl

lemma convertAll_reference (spot : Spot) (n : Fin 9) (rest : Text) :
    convertAll 0 spot ((Atom.reference n).basic ++ rest) =
      (Atom.reference n).extended ++ convertAll 0 .inside rest := by
  fin_cases n <;> rfl

lemma convertAll_repetition (r : Repetition) (rest : Text) :
    convertAll 0 .inside (r.basic ++ rest) = r.extended ++ convertAll 0 .inside rest := by
  have hbraces : convertAll 0 .inside ('\\' :: '{' :: r.bounds ++ ['\\', '}'] ++ rest) =
      '{' :: r.bounds ++ ['}'] ++ convertAll 0 .inside rest := by
    simp only [List.cons_append, List.append_assoc, List.nil_append, convertAll_openBounds]
    rw [convertAll_plains fun c => isExtendedSign_of_mem_bounds, convertAll_closeBounds]
  cases r with
  | any | some | optional => rfl
  | _ => exact hbraces

/-! ### Brackets -/

/-- What is read before the rest of the body of brackets. -/
def prepend (written : Text) (used : ℕ) (body : Text × ℕ) : Text × ℕ :=
  (written ++ body.1, body.2 + used)

/-- A character of its own within brackets. -/
lemma bracketBody_char {c : Char} (hc : c ≠ ']') {t : Text}
    (hname : c = '[' → ¬Member.BeginsName t) :
    bracketBody false (c :: t) =
      prepend (escapeIf Member.isBracketSign c) 1 (bracketBody false t) := by
  have hopen : ¬(c = '[' && [some ':', some '.', some '='].contains t.head?) = true := by
    rw [Bool.and_eq_true, decide_eq_true_eq, not_and]
    exact hname
  have hsign : Member.isBracketSign c = ['\\', '[', '&', '~'].contains c := rfl
  rw [bracketBody, escapeIf, hsign]
  simp only [Bool.false_eq_true, if_false, hc, hopen, prepend]
  split
  · rfl
  · rfl

/-- The name of a class is copied up to the bracket that closes it. -/
lemma bracketBody_name {name : Text} (hname : ']' ∉ name) (t : Text) :
    bracketBody true (name ++ ']' :: t) =
      prepend (name ++ [']']) (name.length + 1) (bracketBody false t) := by
  induction name with
  | nil => rfl
  | cons c name ih =>
      rw [List.mem_cons, not_or] at hname
      have hc : decide (c ≠ ']') = true := by simpa using Ne.symm hname.1
      rw [List.cons_append, bracketBody]
      simp only [if_true, hc, ih hname.2]
      rfl

lemma prepend_prepend (w₁ w₂ : Text) (n₁ n₂ : ℕ) (body : Text × ℕ) :
    prepend w₁ n₁ (prepend w₂ n₂ body) = prepend (w₁ ++ w₂) (n₁ + n₂) body := by
  simp only [prepend, List.append_assoc, Nat.add_assoc, Nat.add_comm n₁ n₂]

/-- One part of brackets. -/
lemma bracketBody_member {m : Member} (hm : m.Plain) {t : Text}
    (hnext : m.EndsOpen → ¬Member.BeginsName t) :
    bracketBody false (m.basic ++ t) =
      prepend m.extended m.basic.length (bracketBody false t) := by
  cases m with
  | char c => exact bracketBody_char hm hnext
  | range low high =>
      have hlow : ∀ u, low = '[' → ¬Member.BeginsName ('-' :: u) := fun u _ h => by cases h
      have hdash := bracketBody_char (c := '-') (by decide) (t := high :: t) (by simp)
      calc bracketBody false (low :: '-' :: high :: t)
          = prepend _ 1 (bracketBody false ('-' :: high :: t)) := bracketBody_char hm.1 (hlow _)
        _ = prepend _ 1 (prepend ['-'] 1 (prepend _ 1 (bracketBody false t))) := by
            rw [hdash, bracketBody_char hm.2 hnext]
            rfl
        _ = _ := by simp [prepend_prepend, Member.extended, Member.basic]
  | named name =>
      have hname : ']' ∉ name ++ [':'] := by
        rw [List.mem_append, not_or]
        exact ⟨hm, by decide⟩
      have hopen : ∀ u, bracketBody false ('[' :: ':' :: u) =
          prepend ['['] 1 (bracketBody true (':' :: u)) := fun _ => rfl
      have hcolon : ∀ u, bracketBody true (':' :: u) = prepend [':'] 1 (bracketBody true u) :=
        fun _ => rfl
      calc bracketBody false ('[' :: ':' :: name ++ [':', ']'] ++ t)
          = bracketBody false ('[' :: ':' :: ((name ++ [':']) ++ ']' :: t)) := by simp
        _ = prepend ['['] 1 (prepend [':'] 1 (prepend (name ++ [':'] ++ [']'])
              ((name ++ [':']).length + 1) (bracketBody false t))) := by
            rw [hopen, hcolon, bracketBody_name hname]
        _ = _ := by
            simp only [prepend_prepend]
            congr 1
            · simp [Member.extended]
            · simp [Member.basic]; omega

/-- The parts of brackets up to the bracket that closes them. -/
lemma bracketBody_members {members : List Member} (hplain : ∀ m ∈ members, m.Plain)
    (hapart : Member.Apart members) (rest : Text) :
    bracketBody false (members.flatMap Member.basic ++ ']' :: rest) =
      (members.flatMap Member.extended ++ [']'], (members.flatMap Member.basic).length + 1) := by
  induction members with
  | nil => rfl
  | cons m members ih =>
      obtain ⟨hm, hplain⟩ := List.forall_mem_cons.1 hplain
      obtain ⟨hnext, hapart⟩ := hapart
      have hnext : m.EndsOpen → ¬Member.BeginsName (members.flatMap Member.basic ++ ']' :: rest) :=
        fun hopen => by
          have h := hnext hopen
          revert h
          cases members.flatMap Member.basic with
          | nil => exact fun _ hclose => by cases hclose
          | cons c t => exact id
      rw [List.flatMap_cons, List.append_assoc, bracketBody_member hm hnext, ih hplain hapart]
      simp only [prepend, List.flatMap_cons, List.append_assoc, List.length_append]
      congr 1
      omega

/-- The parts of brackets do not begin with a bracket that closes. -/
lemma head_members {members : List Member} (hplain : ∀ m ∈ members, m.Plain) :
    (members.flatMap Member.basic).head? ≠ some ']' := by
  cases members with
  | nil => simp
  | cons m members =>
      have hm := hplain m (by simp)
      cases m with
      | char c => simpa [Member.basic] using show c ≠ ']' from hm
      | range low high => simpa [Member.basic] using hm.1
      | named name => simp [Member.basic]

/-- What follows a circumflex that begins the parts of brackets. -/
lemma head_of_members_eq {members : List Member} (hplain : ∀ m ∈ members, m.Plain) {t : Text}
    (ht : members.flatMap Member.basic = '^' :: t) : t.head? ≠ some ']' := by
  cases members with
  | nil => cases ht
  | cons m members =>
      cases m with
      | char c =>
          rw [List.flatMap_cons, Member.basic, List.singleton_append, List.cons.injEq] at ht
          exact ht.2 ▸ head_members fun n hn => hplain n (by simp [hn])
      | range low high =>
          rw [List.flatMap_cons, Member.basic, List.cons_append, List.cons.injEq] at ht
          simp [← ht.2]
      | named name => simp [Member.basic] at ht

/-- The front of brackets decides whether they are negated and whether a bracket that closes is
their first part. -/
lemma bracket_front (negated closing : Bool) {t : Text}
    (hsign : negated = false → closing = false → t.head? ≠ some '^')
    (hclose : closing = false → t.head? ≠ some ']') :
    bracket (anchor negated '^' ++ (anchor closing ']' ++ t)) =
      prepend ('[' :: anchor negated '^' ++ if closing then ['\\', ']'] else [])
        ((anchor negated '^').length + (anchor closing ']').length) (bracketBody false t) := by
  cases negated with
  | true =>
      cases closing with
      | true => simp [bracket, prepend, anchor, Nat.add_comm]
      | false =>
          have h := hclose rfl
          simp [bracket, prepend, anchor, Nat.add_comm, h]
  | false =>
      cases closing with
      | true => simp [bracket, prepend, anchor, Nat.add_comm]
      | false =>
          have h := hclose rfl
          have h' := hsign rfl rfl
          simp [bracket, prepend, anchor, h, h']

/-- Brackets are converted by themselves. -/
lemma bracket_basic (b : Brackets) (rest : Text) :
    bracket (b.basic ++ rest) = ('[' :: b.extended, b.basic.length) := by
  obtain ⟨negated, closing, members, hplain, hapart, hbegun⟩ := b
  have hbody := bracketBody_members hplain hapart rest
  have hclose : closing = false →
      (members.flatMap Member.basic ++ ']' :: rest).head? ≠ some ']' := fun hc => by
    rw [List.head?_append_of_ne_nil _ (hbegun hc).1]
    exact head_members hplain
  have hbasic : Brackets.basic ⟨negated, closing, members, hplain, hapart, hbegun⟩ ++ rest =
      anchor negated '^' ++ (anchor closing ']' ++
        (members.flatMap Member.basic ++ ']' :: rest)) := by
    simp [Brackets.basic, Brackets.sign, anchor]
  by_cases hsign : negated = false → closing = false →
      (members.flatMap Member.basic ++ ']' :: rest).head? ≠ some '^'
  · rw [hbasic, bracket_front _ _ hsign hclose, hbody]
    simp [prepend, Brackets.basic, Brackets.extended, Brackets.sign, anchor]
    omega
  · -- A circumflex that is the first part reads like a negation; both notations write it alike.
    simp only [not_forall, not_not] at hsign
    obtain ⟨rfl, rfl, hhead⟩ := hsign
    obtain ⟨hne, hlong⟩ := hbegun rfl
    rw [List.head?_append_of_ne_nil _ hne, List.head?_eq_some_iff] at hhead
    obtain ⟨t, ht⟩ := hhead
    have htail : (t ++ ']' :: rest).head? ≠ some ']' := by
      have hne' : t ≠ [] := fun h => hlong rfl (h ▸ ht)
      rw [List.head?_append_of_ne_nil _ hne']
      exact head_of_members_eq hplain ht
    have hfirst := bracketBody_char (c := '^') (by decide) (t := t ++ ']' :: rest) (by simp)
    rw [ht, List.cons_append, hfirst] at hbody
    have hfront := bracket_front true false (t := t ++ ']' :: rest) (by simp) fun _ => htail
    rw [hbasic, ht]
    refine hfront.trans ?_
    obtain ⟨hwritten, hused⟩ := Prod.ext_iff.1 hbody
    have hcircumflex : escapeIf Member.isBracketSign '^' = ['^'] := rfl
    simp only [prepend, hcircumflex, List.singleton_append] at hwritten hused
    simp [prepend, anchor, Brackets.basic, Brackets.extended, Brackets.sign, ht, ← hwritten]
    simpa [Nat.add_comm] using hused

lemma convertAll_brackets (spot : Spot) (b : Brackets) (rest : Text) :
    convertAll 0 spot ((Atom.brackets b).basic ++ rest) =
      (Atom.brackets b).extended ++ convertAll 0 .inside rest := by
  have h : convert spot '[' (b.basic ++ rest) = ('[' :: b.extended, b.basic.length, .inside) := by
    rw [convert, if_neg (by decide), if_pos rfl, bracket_basic]
  rw [Atom.basic, List.cons_append, convertAll_cons, h, List.drop_left, Atom.extended]

/-! ### Expressions -/

lemma convertAll_alternative (spot : Spot) (rest : Text) :
    convertAll 0 spot ('\\' :: '|' :: rest) = '|' :: convertAll 0 .start rest := rfl

/-- A circumflex where an expression begins is an anchor. -/
lemma convertAll_startAnchor (present : Bool) (rest : Text) :
    ∃ spot, convertAll 0 .start (anchor present '^' ++ rest) =
      anchor present '^' ++ convertAll 0 spot rest := by
  cases present with
  | true => exact ⟨.afterAnchor, rfl⟩
  | false => exact ⟨.start, rfl⟩

/-- A dollar sign where an expression ends is an anchor. -/
lemma convertAll_endAnchor (spot : Spot) (present : Bool) {rest : Text}
    (hend : atEnd rest = true) :
    ∃ spot', convertAll 0 spot (anchor present '$' ++ rest) =
      anchor present '$' ++ convertAll 0 spot' rest := by
  cases present with
  | true =>
      have h : convert spot '$' rest = (['$'], 0, .inside) := by
        simp [convert, hend]
      exact ⟨.inside, by rw [anchor, if_pos rfl, List.singleton_append, convertAll_cons, h]; rfl⟩
  | false => exact ⟨spot, rfl⟩

mutual

/-- An atom is converted by itself, whatever stands around it. -/
lemma convertAll_atom (a : Atom) (spot : Spot) (rest : Text) :
    convertAll 0 spot (a.basic ++ rest) = a.extended ++ convertAll 0 .inside rest :=
  match a with
  | .literal c => convertAll_literal spot c rest
  | .dot => by
      have h : convert spot '.' rest = (['.'], 0, .inside) := by simp [convert]
      rw [Atom.basic, List.singleton_append, convertAll_cons, h]
      rfl
  | .reference n => convertAll_reference spot n rest
  | .brackets b => convertAll_brackets spot b rest
  | .group body => by
      obtain ⟨spot', h⟩ := convertAll_expression body ('\\' :: ')' :: rest) rfl
      rw [Atom.basic, Atom.extended]
      simp only [List.cons_append, List.append_assoc, List.nil_append, convertAll_openGroup, h,
        convertAll_closeGroup]

/-- A sequence is converted by itself; nothing in it depends on what comes before or follows. -/
lemma convertAll_items (items : Items) (spot : Spot) (rest : Text) :
    ∃ spot', convertAll 0 spot (items.basic ++ rest) =
      items.extended ++ convertAll 0 spot' rest :=
  match items with
  | .nil => ⟨spot, rfl⟩
  | .cons a r others => by
      obtain ⟨spot', h⟩ := convertAll_items others .inside rest
      refine ⟨spot', ?_⟩
      have hrepeated : convertAll 0 .inside (r.elim [] Repetition.basic ++ (others.basic ++ rest)) =
          r.elim [] Repetition.extended ++ convertAll 0 .inside (others.basic ++ rest) :=
        match r with
        | none => rfl
        | some r => convertAll_repetition r _
      rw [Items.basic, Items.extended]
      simp only [List.append_assoc, convertAll_atom a, hrepeated, h]

/-- An expression is converted by itself where one can begin, if one can end where it ends. -/
lemma convertAll_expression (e : Expression) (rest : Text) (hend : atEnd rest = true) :
    ∃ spot, convertAll 0 .start (e.basic ++ rest) = e.extended ++ convertAll 0 spot rest :=
  match e with
  | .branch s items d => by
      obtain ⟨spot₁, h₁⟩ := convertAll_startAnchor s (items.basic ++ (anchor d '$' ++ rest))
      obtain ⟨spot₂, h₂⟩ := convertAll_items items spot₁ (anchor d '$' ++ rest)
      obtain ⟨spot₃, h₃⟩ := convertAll_endAnchor spot₂ d hend
      refine ⟨spot₃, ?_⟩
      rw [Expression.basic, Expression.extended]
      simp only [List.append_assoc, h₁, h₂, h₃]
  | .alt s items d others => by
      have hnext : atEnd ('\\' :: '|' :: (others.basic ++ rest)) = true := rfl
      obtain ⟨spot₁, h₁⟩ := convertAll_startAnchor s
        (items.basic ++ (anchor d '$' ++ '\\' :: '|' :: (others.basic ++ rest)))
      obtain ⟨spot₂, h₂⟩ := convertAll_items items spot₁
        (anchor d '$' ++ '\\' :: '|' :: (others.basic ++ rest))
      obtain ⟨spot₃, h₃⟩ := convertAll_endAnchor spot₂ d hnext
      obtain ⟨spot₄, h₄⟩ := convertAll_expression others rest hend
      refine ⟨spot₄, ?_⟩
      rw [Expression.basic, Expression.extended]
      simp only [List.append_assoc, List.cons_append, h₁, h₂, h₃, convertAll_alternative, h₄]

end

/-- An expression written in the basic notation becomes the same expression written in the
extended notation; no group is lost or added. -/
theorem toExtended_basic (e : Expression) :
    toExtended e.basic = e.extended ∧ openings .pattern (toExtended e.basic) = e.groups := by
  obtain ⟨spot, h⟩ := convertAll_expression e [] rfl
  have hconverted : toExtended e.basic = e.extended := by
    simpa [toExtended, convertAll] using h
  have hgroups := openings_expression e []
  rw [List.append_nil] at hgroups
  exact ⟨hconverted, hconverted ▸ hgroups⟩

end StreamEditor.Regex.BasicNotation
