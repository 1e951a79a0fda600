import Mathlib.Tactic
import StreamEditor.Regex.BasicNotation

/-!
Expressions of the basic notation as trees, and how both notations write them.

* `BasicNotation.Expression`: alternatives, each a sequence of repeated atoms between optional
  anchors; `Atom`, `Repetition` and `Brackets` are its parts.
* `Expression.basic`, `Expression.extended`: the two ways to write an expression.
* `Expression.groups`: the number of groups in an expression, and `openings` that of a pattern in
  the extended notation.
-/

namespace StreamEditor.Regex.BasicNotation

/-- True for the characters that have a meaning of their own in the basic notation. -/
def isBasicSign (c : Char) : Bool := ['\\', '.', '*', '[', '^', '$'].contains c

/-- True for the characters that have a meaning of their own in the extended notation. -/
def isExtendedSign (c : Char) : Bool :=
  isBasicSign c || ['+', '?', '{', '}', '|', '(', ')'].contains c

/-- A character, after a backslash if it is a sign. -/
def escapeIf (isSign : Char → Bool) (c : Char) : Text := if isSign c then ['\\', c] else [c]

/-! ### Brackets -/

/-- A part of brackets. -/
inductive Member where
  | char (c : Char)
  | range (low high : Char)
  /-- A class that has a name. -/
  | named (name : Text)
  deriving DecidableEq, Repr

namespace Member

/-- The form of a part within basic brackets, where it stands for itself. -/
def basic : Member → Text
  | char c => [c]
  | range low high => [low, '-', high]
  | named name => '[' :: ':' :: name ++ [':', ']']

/-- True for the characters that need a backslash within extended brackets. -/
def isBracketSign (c : Char) : Bool := ['\\', '[', '&', '~'].contains c

/-- The form of a part within extended brackets. -/
def extended : Member → Text
  | char c => escapeIf isBracketSign c
  | range low high => escapeIf isBracketSign low ++ '-' :: escapeIf isBracketSign high
  | named name => '[' :: ':' :: name ++ [':', ']']

/-- No bracket that closes is among the characters. -/
def Plain : Member → Prop
  | char c => c ≠ ']'
  | range low high => low ≠ ']' ∧ high ≠ ']'
  | named name => ']' ∉ name

/-- The part ends with a bracket that would begin the name of a class before a colon. -/
def EndsOpen : Member → Prop
  | char c => c = '['
  | range _ high => high = '['
  | named _ => False

/-- What follows begins like the rest of the name of a class. -/
def BeginsName (t : Text) : Prop := [some ':', some '.', some '='].contains t.head? = true

/-- No bracket that is a member of its own begins the name of a class. -/
def Apart : List Member → Prop
  | [] => True
  | m :: rest => (m.EndsOpen → ¬BeginsName (rest.flatMap basic)) ∧ Apart rest

end Member

/-- Brackets: one character of those described, or of all others. -/
structure Brackets where
  negated : Bool
  /-- A closing bracket is the first part. -/
  closing : Bool
  /-- The other parts. -/
  members : List Member
  plain : ∀ m ∈ members, m.Plain
  apart : Member.Apart members
  /-- A bracket right after the front would not close, but be the first part. -/
  begun : closing = false →
    members.flatMap Member.basic ≠ [] ∧
      (negated = false → members.flatMap Member.basic ≠ ['^'])

namespace Brackets

/-- What stands before the parts of brackets in both notations. -/
def sign (b : Brackets) : Text := if b.negated then ['^'] else []

/-- The basic form of brackets, after the one that opens them. -/
def basic (b : Brackets) : Text :=
  b.sign ++ (if b.closing then [']'] else []) ++ b.members.flatMap Member.basic ++ [']']

/-- The extended form of brackets, after the one that opens them. -/
def extended (b : Brackets) : Text :=
  b.sign ++ (if b.closing then ['\\', ']'] else []) ++ b.members.flatMap Member.extended ++ [']']

end Brackets

/-! ### Repetitions -/

/-- How often an atom occurs. -/
inductive Repetition where
  | any
  | some
  | optional
  | exactly (count : ℕ)
  | atLeast (count : ℕ)
  | between (least most : ℕ)
  deriving DecidableEq, Repr

namespace Repetition

/-- What stands between the braces of a repetition, if it has braces. -/
def bounds : Repetition → Text
  | any | some | optional => []
  | exactly n => Text.decimal n
  | atLeast n => Text.decimal n ++ [',']
  | between m n => Text.decimal m ++ ',' :: Text.decimal n

/-- The basic form of a repetition. -/
def basic : Repetition → Text
  | any => ['*']
  | some => ['\\', '+']
  | optional => ['\\', '?']
  | r => '\\' :: '{' :: r.bounds ++ ['\\', '}']

/-- The extended form of a repetition. -/
def extended : Repetition → Text
  | any => ['*']
  | some => ['+']
  | optional => ['?']
  | r => '{' :: r.bounds ++ ['}']

end Repetition

/-! ### Expressions -/

mutual

/-- What a repetition can follow. -/
inductive Atom where
  | literal (c : Char)
  /-- Any character. -/
  | dot
  | group (body : Expression)
  /-- What the group with the number that follows `before` matched. -/
  | reference (before : Fin 9)
  | brackets (b : Brackets)

/-- Atoms one after the other, each possibly repeated. -/
inductive Items where
  | nil
  | cons (a : Atom) (r : Option Repetition) (rest : Items)

/-- Alternatives, each with its items between anchors or none. -/
inductive Expression where
  | branch (atStart : Bool) (items : Items) (atEnd : Bool)
  | alt (atStart : Bool) (items : Items) (atEnd : Bool) (rest : Expression)

end

/-- The digit of a reference. -/
def digit (before : Fin 9) : Char := Nat.digitChar (before + 1)

/-- An anchor, if there is one. -/
def anchor (present : Bool) (c : Char) : Text := if present then [c] else []

mutual

/-- The basic form of an atom. -/
def Atom.basic : Atom → Text
  | .literal c => escapeIf isBasicSign c
  | .dot => ['.']
  | .group body => '\\' :: '(' :: body.basic ++ ['\\', ')']
  | .reference n => ['\\', digit n]
  | .brackets b => '[' :: b.basic

/-- The basic form of a sequence. -/
def Items.basic : Items → Text
  | .nil => []
  | .cons a r rest => a.basic ++ r.elim [] Repetition.basic ++ rest.basic

/-- The basic form of an expression. -/
def Expression.basic : Expression → Text
  | .branch s items e => anchor s '^' ++ items.basic ++ anchor e '$'
  | .alt s items e rest =>
      anchor s '^' ++ items.basic ++ anchor e '$' ++ '\\' :: '|' :: rest.basic

end

mutual

/-- The extended form of an atom. -/
def Atom.extended : Atom → Text
  | .literal c => escapeIf isExtendedSign c
  | .dot => ['.']
  | .group body => '(' :: body.extended ++ [')']
  | .reference n => ['(', '?', ':', '\\', digit n, ')']
  | .brackets b => '[' :: b.extended

/-- The extended form of a sequence. -/
def Items.extended : Items → Text
  | .nil => []
  | .cons a r rest => a.extended ++ r.elim [] Repetition.extended ++ rest.extended

/-- The extended form of an expression. -/
def Expression.extended : Expression → Text
  | .branch s items e => anchor s '^' ++ items.extended ++ anchor e '$'
  | .alt s items e rest =>
      anchor s '^' ++ items.extended ++ anchor e '$' ++ '|' :: rest.extended

end

/-! ### Groups -/

mutual

/-- The number of groups in an atom. -/
def Atom.groups : Atom → ℕ
  | .group body => body.groups + 1
  | _ => 0

/-- The number of groups in a sequence. -/
def Items.groups : Items → ℕ
  | .nil => 0
  | .cons a _ rest => a.groups + rest.groups

/-- The number of groups in an expression. -/
def Expression.groups : Expression → ℕ
  | .branch _ items _ => items.groups
  | .alt _ items _ rest => items.groups + rest.groups

end

/-- Where a character of an extended pattern stands. -/
inductive Site where
  | pattern
  /-- After a backslash. -/
  | escape
  | brackets
  /-- After a backslash within brackets. -/
  | bracketEscape
  /-- Within the name of a class. -/
  | name
  deriving DecidableEq, Repr

/-- The site after a character. -/
def Site.after : Site → Char → Site
  | pattern, c => if c = '\\' then escape else if c = '[' then brackets else pattern
  | escape, _ => pattern
  | brackets, c =>
      if c = '\\' then bracketEscape
      else if c = '[' then name
      else if c = ']' then pattern
      else brackets
  | bracketEscape, _ => brackets
  | name, c => if c = ']' then brackets else name

/-- The number of groups that remember their match in the rest of an extended pattern: opening
parentheses that are no members of brackets, are not escaped and have no question mark after
them. -/
def openings (site : Site) : Text → ℕ
  | [] => 0
  | c :: rest =>
      (if site = .pattern ∧ c = '(' ∧ rest.head? ≠ some '?' then 1 else 0)
        + openings (site.after c) rest

/-- Digits and commas have no meaning of their own. -/
lemma isExtendedSign_bound {c : Char} (hc : c.isDigit = true ∨ c = ',') :
    isExtendedSign c = false := by
  rw [Bool.eq_false_iff]
  intro hsign
  have hmem : c ∈ ['\\', '.', '*', '[', '^', '$'] ++ ['+', '?', '{', '}', '|', '(', ')'] := by
    rw [List.mem_append]
    simpa only [isExtendedSign, isBasicSign, Bool.or_eq_true, List.contains_iff_mem] using hsign
  fin_cases hmem <;> simp at hc

/-- There are no signs between the braces of a repetition. -/
lemma isExtendedSign_of_mem_bounds {r : Repetition} {c : Char} (hc : c ∈ r.bounds) :
    isExtendedSign c = false := by
  have hdecimal (n : ℕ) (hn : c ∈ Text.decimal n) : isExtendedSign c = false :=
    isExtendedSign_bound (.inl (Nat.isDigit_of_mem_toDigits (by norm_num) (by norm_num) hn))
  cases r with
  | any | some | optional => cases hc
  | exactly n => exact hdecimal n hc
  | atLeast n =>
      obtain hn | hcomma := List.mem_append.1 hc
      · exact hdecimal n hn
      · rw [List.mem_singleton.1 hcomma]
        rfl
  | between m n =>
      obtain hm | hn := List.mem_append.1 hc
      · exact hdecimal m hm
      · obtain rfl | hn := List.mem_cons.1 hn
        · rfl
        · exact hdecimal n hn

/-- A character that begins nothing. -/
lemma openings_plain {c : Char} (hc : c ∉ ['\\', '[', '(']) (rest : Text) :
    openings .pattern (c :: rest) = openings .pattern rest := by
  simp only [List.mem_cons, List.not_mem_nil, or_false, not_or] at hc
  simp [openings, Site.after, hc]

/-- Signs are all those that begin something. -/
lemma not_mem_of_not_isExtendedSign {c : Char} (hc : isExtendedSign c = false) :
    c ∉ ['\\', '[', '('] := fun hmem => by
  fin_cases hmem <;> cases hc

lemma openings_plains {t : Text} (ht : ∀ c ∈ t, c ∉ ['\\', '[', '(']) (rest : Text) :
    openings .pattern (t ++ rest) = openings .pattern rest := by
  induction t with
  | nil => rfl
  | cons c t ih =>
      rw [List.cons_append, openings_plain (ht c (by simp)), ih fun d hd => ht d (by simp [hd])]

lemma openings_literal (c : Char) (rest : Text) :
    openings .pattern (escapeIf isExtendedSign c ++ rest) = openings .pattern rest := by
  cases hc : isExtendedSign c with
  | true => simp [escapeIf, hc, openings, Site.after]
  | false => simpa [escapeIf, hc] using openings_plain (not_mem_of_not_isExtendedSign hc) rest

lemma openings_repetition (r : Repetition) (rest : Text) :
    openings .pattern (r.extended ++ rest) = openings .pattern rest := by
  have hbraces : ∀ c ∈ '{' :: r.bounds ++ ['}'], c ∉ ['\\', '[', '('] := fun c hc => by
    simp only [List.cons_append, List.mem_cons, List.mem_append, List.not_mem_nil, or_false] at hc
    obtain rfl | hc | rfl := hc
    · decide
    · exact not_mem_of_not_isExtendedSign (isExtendedSign_of_mem_bounds hc)
    · decide
  cases r with
  | any | some | optional => exact openings_plain (by decide) rest
  | _ => exact openings_plains hbraces rest

/-- A character of its own within brackets. -/
lemma openings_bracketChar {c : Char} (hc : c ≠ ']') (rest : Text) :
    openings .brackets (escapeIf Member.isBracketSign c ++ rest) = openings .brackets rest := by
  cases hsign : Member.isBracketSign c with
  | true => simp [escapeIf, hsign, openings, Site.after]
  | false =>
      have hne : c ≠ '\\' ∧ c ≠ '[' ∧ c ≠ '&' ∧ c ≠ '~' := by
        simpa [Member.isBracketSign, not_or] using hsign
      simp [escapeIf, hsign, openings, Site.after, hc, hne]

lemma openings_name {name : Text} (hname : ']' ∉ name) (rest : Text) :
    openings .name (name ++ rest) = openings .name rest := by
  induction name with
  | nil => rfl
  | cons c name ih =>
      rw [List.mem_cons, not_or] at hname
      simpa [openings, Site.after, Ne.symm hname.1] using ih hname.2

lemma openings_member {m : Member} (hm : m.Plain) (rest : Text) :
    openings .brackets (m.extended ++ rest) = openings .brackets rest := by
  cases m with
  | char c => exact openings_bracketChar hm rest
  | range low high =>
      have hdash : ∀ t, openings .brackets ('-' :: t) = openings .brackets t := fun t => by
        simp [openings, Site.after]
      rw [Member.extended, List.append_assoc, openings_bracketChar hm.1, List.cons_append, hdash,
        openings_bracketChar hm.2]
  | named name =>
      have hopen : ∀ t, openings .brackets ('[' :: ':' :: t) = openings .name t := fun t => by
        simp [openings, Site.after]
      have hclose : openings .name (':' :: ']' :: rest) = openings .brackets rest := by
        simp [openings, Site.after]
      simp only [Member.extended, List.cons_append, List.append_assoc, List.nil_append, hopen,
        openings_name hm, hclose]

lemma openings_members {members : List Member} (hplain : ∀ m ∈ members, m.Plain) (rest : Text) :
    openings .brackets (members.flatMap Member.extended ++ rest) = openings .brackets rest := by
  induction members with
  | nil => rfl
  | cons m members ih =>
      obtain ⟨hm, hplain⟩ := List.forall_mem_cons.1 hplain
      rw [List.flatMap_cons, List.append_assoc, openings_member hm, ih hplain]

lemma openings_brackets (b : Brackets) (rest : Text) :
    openings .pattern ((Atom.brackets b).extended ++ rest) = openings .pattern rest := by
  have hsign : ∀ t, openings .brackets (b.sign ++ t) = openings .brackets t := fun t => by
    rw [Brackets.sign]
    split
    · simp [openings, Site.after]
    · rfl
  have hclosing : ∀ t, openings .brackets ((if b.closing then ['\\', ']'] else []) ++ t) =
      openings .brackets t := fun t => by
    split
    · simp [openings, Site.after]
    · rfl
  have hopen : ∀ t, openings .pattern ('[' :: t) = openings .brackets t := fun t => by
    simp [openings, Site.after]
  have hclose : openings .brackets (']' :: rest) = openings .pattern rest := by
    simp [openings, Site.after]
  rw [Atom.extended, Brackets.extended]
  simp only [List.cons_append, List.append_assoc, List.nil_append, hopen, hsign, hclosing,
    openings_members b.plain, hclose]

/-- Nothing that can begin an atom is a question mark. -/
lemma head_atom (a : Atom) (rest : Text) : (a.extended ++ rest).head? ≠ some '?' := by
  cases a with
  | literal c =>
      rw [Atom.extended, escapeIf]
      split
      · simp
      · rename_i hc
        rintro h
        obtain rfl : c = '?' := by simpa using h
        exact hc rfl
  | _ => simp [Atom.extended]

lemma head_items (items : Items) {rest : Text} (hrest : rest.head? ≠ some '?') :
    (items.extended ++ rest).head? ≠ some '?' := by
  cases items with
  | nil => exact hrest
  | cons a r others =>
      rw [Items.extended, List.append_assoc, List.append_assoc]
      exact head_atom a _

lemma head_anchor (present : Bool) {c : Char} (hc : c ≠ '?') {rest : Text}
    (hrest : rest.head? ≠ some '?') : (anchor present c ++ rest).head? ≠ some '?' := by
  cases present with
  | true => simpa [anchor] using hc
  | false => exact hrest

/-- Nothing that can begin an expression is a question mark. -/
lemma head_expression (e : Expression) {rest : Text} (hrest : rest.head? ≠ some '?') :
    (e.extended ++ rest).head? ≠ some '?' := by
  cases e with
  | branch s items d =>
      rw [Expression.extended, List.append_assoc, List.append_assoc]
      exact head_anchor s (by decide) (head_items items (head_anchor d (by decide) hrest))
  | alt s items d others =>
      rw [Expression.extended]
      simp only [List.append_assoc]
      exact head_anchor s (by decide) (head_items items (head_anchor d (by decide) (by simp)))

lemma openings_anchor (present : Bool) {c : Char} (hc : c ∉ ['\\', '[', '(']) (rest : Text) :
    openings .pattern (anchor present c ++ rest) = openings .pattern rest := by
  cases present with
  | true => exact openings_plain hc rest
  | false => rfl

mutual

lemma openings_atom (a : Atom) (rest : Text) :
    openings .pattern (a.extended ++ rest) = a.groups + openings .pattern rest :=
  match a with
  | .literal c => (openings_literal c rest).trans (Nat.zero_add _).symm
  | .dot => (openings_plain (by decide) rest).trans (Nat.zero_add _).symm
  | .reference n => by simp [Atom.extended, Atom.groups, openings, Site.after]
  | .brackets b => (openings_brackets b rest).trans (Nat.zero_add _).symm
  | .group body => by
      have hhead : (body.extended ++ ')' :: rest).head? ≠ some '?' :=
        head_expression body (by simp)
      have hopen : openings .pattern ('(' :: (body.extended ++ ')' :: rest)) =
          1 + openings .pattern (body.extended ++ ')' :: rest) := by
        rw [openings, if_pos ⟨rfl, rfl, hhead⟩]
        rfl
      rw [Atom.extended, Atom.groups, List.cons_append, List.cons_append, List.append_assoc,
        List.singleton_append, hopen, openings_expression body, openings_plain (by decide)]
      omega

lemma openings_items (items : Items) (rest : Text) :
    openings .pattern (items.extended ++ rest) = items.groups + openings .pattern rest :=
  match items with
  | .nil => (Nat.zero_add _).symm
  | .cons a r others => by
      have hrepeated : openings .pattern (r.elim [] Repetition.extended ++
          (others.extended ++ rest)) = openings .pattern (others.extended ++ rest) :=
        match r with
        | none => rfl
        | some r => openings_repetition r _
      rw [Items.extended, Items.groups, List.append_assoc, List.append_assoc, openings_atom a,
        hrepeated, openings_items others, Nat.add_assoc]

/-- The groups of an expression are those that its extended form opens. -/
lemma openings_expression (e : Expression) (rest : Text) :
    openings .pattern (e.extended ++ rest) = e.groups + openings .pattern rest :=
  match e with
  | .branch s items d => by
      rw [Expression.extended, Expression.groups, List.append_assoc, List.append_assoc,
        openings_anchor s (by decide), openings_items items, openings_anchor d (by decide)]
  | .alt s items d others => by
      rw [Expression.extended, Expression.groups]
      simp only [List.append_assoc, List.cons_append]
      rw [openings_anchor s (by decide), openings_items items, openings_anchor d (by decide),
        openings_plain (by decide), openings_expression others, Nat.add_assoc]

end

end StreamEditor.Regex.BasicNotation
