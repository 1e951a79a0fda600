import StreamEditor.Proofs.Regex.Conversion
import StreamEditor.Regex.Lexeme

/-!
Brackets that come from the basic notation, as the extended notation reads them.

* `Member.Part`: what is read by itself within brackets, a character or the name of a class.
* `Brackets.Clear`: brackets whose classes are known, none of them where a range would end.
* `Lexeme.Reads`: a text within brackets is read the same whatever comes behind it.
* `Brackets.Clear.bracket`: such brackets are read as a whole, up to the bracket that closes them.
-/

namespace StreamEditor.Regex

namespace BasicNotation

/-! ### Parts -/

/-- A part of brackets that is read by itself. -/
inductive Member.Part where
  | char (c : Char)
  | named (name : Text)
  deriving DecidableEq, Repr

namespace Member

/-- True for the characters that have a backslash before them within extended brackets. -/
def isEscaped (c : Char) : Bool := isBracketSign c || c = ']'

/-- The extended form of a part. -/
def Part.text : Part → Text
  | char c => escapeIf isEscaped c
  | named name => '[' :: ':' :: name ++ [':', ']']

/-- Parts whose classes are all known, none of them the end of a range. -/
structure Part.Clear (parts : List Part) : Prop where
  known : ∀ name, .named name ∈ parts → (CharSet.named? name).isSome = true
  ranges : ∀ c name, ¬[.char c, .char '-', .named name] <:+: parts

lemma Part.Clear.of_suffix {parts others : List Part} (h : Clear parts)
    (hsuffix : others <:+ parts) : Clear others where
  known name hname := h.known name (hsuffix.subset hname)
  ranges c name hrange := h.ranges c name (hrange.trans hsuffix.isInfix)

/-- The parts that a member of brackets is read as. -/
def parts : Member → List Part
  | char c => [.char c]
  | range low high => [.char low, .char '-', .char high]
  | named name => [.named name]

lemma text_parts {m : Member} (h : m.Plain) : m.parts.flatMap Part.text = m.extended := by
  have hchar {c : Char} (hc : c ≠ ']') : escapeIf isEscaped c = escapeIf isBracketSign c := by
    simp [escapeIf, isEscaped, hc]
  cases m with
  | char c => simpa [parts, Part.text, extended] using hchar h
  | range low high =>
      simp only [parts, Part.text, extended, List.flatMap_cons, List.flatMap_nil, hchar h.1,
        hchar h.2, List.append_nil]
      rfl
  | named name => simp [parts, Part.text, extended]

end Member

namespace Brackets

/-- The parts of brackets, without the sign of negation. -/
def parts (b : Brackets) : List Member.Part :=
  (if b.closing then [.char ']'] else []) ++ b.members.flatMap Member.parts

/-- All classes in the brackets are known, and none is the end of a range. -/
def Clear (b : Brackets) : Prop := Member.Part.Clear b.parts

lemma extended_eq (b : Brackets) :
    b.extended = b.sign ++ (b.parts.flatMap Member.Part.text ++ [']']) := by
  have hmembers : (b.members.flatMap Member.parts).flatMap Member.Part.text =
      b.members.flatMap Member.extended := by
    rw [List.flatMap_assoc]
    exact List.flatMap_congr fun m hm => Member.text_parts (b.plain m hm)
  have hclosing : (if b.closing then [Member.Part.char ']'] else []).flatMap Member.Part.text =
      if b.closing then ['\\', ']'] else [] := by
    cases b.closing <;> rfl
  simp only [extended, parts, List.flatMap_append, hmembers, hclosing, List.append_assoc]

end Brackets

end BasicNotation

/-! ### Reading -/

open BasicNotation

namespace Lexeme

variable {flags : Flags}

/-- The rest of a text within brackets is read the same, and up to its end, whatever comes
behind. -/
def Reads (flags : Flags) (n : ℕ) (stack : List Waiting) (sofar : CharSet) (t : Text) : Prop :=
  ∃ found : Option CharSet, ∀ rest, brackets flags n stack sofar (t ++ rest) =
    found.map (·, t.length)

variable {n : ℕ} {stack stack' : List Waiting} {sofar sofar' : CharSet} {t : Text}

/-- A character that is read, and those that belong to it. -/
lemma Reads.cons {c : Char} (h : Reads flags n stack' sofar' t)
    (hread : ∀ rest, brackets flags 0 stack sofar (c :: (t ++ rest)) =
      (brackets flags n stack' sofar' (t ++ rest)).map (·.map id (· + 1))) :
    Reads flags 0 stack sofar (c :: t) := by
  obtain ⟨found, hfound⟩ := h
  refine ⟨found, fun rest => ?_⟩
  rw [List.cons_append, hread, hfound, Option.map_map]
  rfl

/-- Characters that were read before. -/
lemma Reads.skip (h : Reads flags 0 stack sofar t) (u : Text) :
    Reads flags u.length stack sofar (u ++ t) := by
  induction u with
  | nil => exact h
  | cons c u ih =>
      obtain ⟨found, hfound⟩ := ih
      refine ⟨found, fun rest => ?_⟩
      rw [List.cons_append, List.cons_append, List.length_cons, brackets, hfound, Option.map_map]
      rfl

/-- What waits while brackets without others in them are read. -/
inductive Waits : List Waiting → Prop
  | bracket (negated : Bool) (before : CharSet) : Waits [.bracket negated before]
  | operand (op : SetOp) (left : CharSet) (negated : Bool) (before : CharSet) :
      Waits [.operand op left, .bracket negated before]

/-- Where a combination ends, only the bracket waits. -/
lemma Waits.endOperand (h : Waits stack) (fold : Bool) (sofar : CharSet) :
    ∃ inner negated before, endOperand fold sofar stack = (inner, [.bracket negated before]) := by
  cases h with
  | bracket negated before => exact ⟨sofar, negated, before, rfl⟩
  | operand op left negated before => exact ⟨_, negated, before, rfl⟩

/-- The bracket that closes ends the reading. -/
lemma reads_close (hflags : flags.verbose = false) (hwaits : Waits stack) (sofar : CharSet) :
    Reads flags 0 stack sofar [']'] := by
  obtain ⟨inner, negated, before, hend⟩ := hwaits.endOperand flags.ignoreCase sofar
  refine ⟨some ((inner.foldIf flags.ignoreCase).complIf negated), fun rest => ?_⟩
  rw [List.singleton_append, brackets.eq_def]
  simp only [hflags, hend]
  rfl

/-- A pair of hyphens sets what follows apart from what was read. -/
lemma reads_difference (hflags : flags.verbose = false) (hwaits : Waits stack)
    (h : ∀ stack sofar, Waits stack → Reads flags 0 stack sofar t) :
    Reads flags 0 stack sofar ('-' :: '-' :: t) := by
  obtain ⟨inner, negated, before, hend⟩ := hwaits.endOperand flags.ignoreCase sofar
  refine ((h _ .empty (.operand .diff inner negated before)).skip ['-']).cons fun rest => ?_
  rw [brackets.eq_def]
  simp only [hflags, hend]
  rfl

/-- The letters of a class. -/
lemma isAlpha_of_named? {name : Text} (h : (CharSet.named? name).isSome = true) :
    ∀ c ∈ name, c.isAlpha = true := by
  obtain ⟨s, hs⟩ := Option.isSome_iff_exists.1 h
  rw [CharSet.named?] at hs
  have hname {word : String} (hword : String.ofList name = word) : name = word.toList := by
    rw [← hword, String.toList_ofList]
  split at hs <;> first
    | (rename_i hword; rw [hname hword, ← List.all_eq_true]; decide)
    | cases hs

/-- The name of a class is read whole. -/
lemma className_eq {name : Text} (h : (CharSet.named? name).isSome = true) (fold : Bool) :
    ∃ s, ∀ rest, className fold (':' :: name ++ ':' :: ']' :: rest) =
      some (s, name.length + 3) := by
  obtain ⟨s, hs⟩ := Option.isSome_iff_exists.1 h
  refine ⟨(s.foldIf fold).complIf false, fun rest => ?_⟩
  have halpha := isAlpha_of_named? h
  have hname : (name ++ ':' :: ']' :: rest).takeWhile (· ≠ ':') = name := by
    rw [List.takeWhile_append_of_pos fun c hc => ?_]
    · simp
    · have hne : c ≠ ':' := fun hcolon => by simpa [hcolon] using halpha c hc
      simpa using hne
  have hpositive : ∀ more, name ++ ':' :: ']' :: rest ≠ '^' :: more := fun more heq => by
    cases name with
    | nil => cases hs
    | cons c name =>
        obtain rfl : c = '^' := (List.cons.inj heq).1
        simpa using halpha '^' (by simp)
  rw [List.cons_append, className, hname]
  · simp [hs, Nat.add_comm]
  · exact hpositive

/-- The name of a class is a part of its own. -/
lemma reads_named (hflags : flags.verbose = false) {name : Text}
    (hname : (CharSet.named? name).isSome = true)
    (h : ∀ sofar, Reads flags 0 stack sofar t) :
    Reads flags 0 stack sofar ((Member.Part.named name).text ++ t) := by
  obtain ⟨s, hs⟩ := className_eq hname flags.ignoreCase
  have hskip := (h (.union sofar s)).skip (':' :: name ++ [':', ']'])
  rw [Member.Part.text]
  refine hskip.cons fun rest => ?_
  have hclass := hs (t ++ rest)
  have happend : ':' :: name ++ [':', ']'] ++ t ++ rest = ':' :: name ++ ':' :: ']' ::
      (t ++ rest) := by
    simp
  rw [happend, brackets.eq_def]
  simp only [hflags, hclass]
  simp

/-- The characters that write a character within brackets. -/
lemma text_char (c : Char) : ∃ d u, (Member.Part.char c).text = d :: u ∧
    (∀ rest, bracketItem d (u ++ rest) = some (.char c, u.length)) ∧
    d ≠ '[' ∧ d ≠ ']' ∧ d ≠ '&' ∧ d ≠ '~' ∧ (d = '-' ↔ c = '-') := by
  have hescaped : Member.isEscaped c = ['\\', '[', '&', '~', ']'].contains c := by
    simp [Member.isEscaped, Member.isBracketSign, Bool.or_assoc]
  rw [Member.Part.text, escapeIf, hescaped]
  split
  · rename_i hc
    have hmem : c ∈ ['\\', '[', '&', '~', ']'] := List.contains_iff_mem.1 hc
    refine ⟨'\\', [c], rfl, ?_⟩
    fin_cases hmem <;> exact ⟨fun _ => rfl, by decide⟩
  · rename_i hc
    obtain ⟨hbackslash, hopen, hand, htilde, hclose⟩ :
        c ≠ '\\' ∧ c ≠ '[' ∧ c ≠ '&' ∧ c ≠ '~' ∧ c ≠ ']' := by
      simpa [not_or] using hc
    refine ⟨c, [], rfl, fun rest => ?_, hopen, hclose, hand, htilde, Iff.rfl⟩
    rw [bracketItem.eq_def, if_neg hbackslash]
    rfl

variable {c : Char}

/-- A character that is not one of a pair of hyphens begins an item or a range. -/
lemma brackets_char (hflags : flags.verbose = false) {d : Char} {u : Text}
    (hd : d ≠ '[' ∧ d ≠ ']' ∧ d ≠ '&' ∧ d ≠ '~') (hpair : d = '-' → u.head? ≠ some '-') :
    brackets flags 0 stack sofar (d :: u) =
      (bracketRange d u).bind fun found =>
        (brackets flags found.2 stack (.union sofar found.1) u).map (·.map id (· + 1)) := by
  obtain ⟨hopen, hclose, hand, htilde⟩ := hd
  rw [brackets.eq_def]
  have hhyphen : (d = '-' && u.head? = some '-') = false := by simpa using hpair
  simp only [hflags, hopen, hclose, hand, htilde, hhyphen, Bool.false_and, Bool.false_eq_true,
    if_false, decide_false]
  cases bracketRange d u <;> rfl

/-- A character is read alone if no hyphen comes behind it, or one that makes no range. -/
lemma bracketRange_alone {d : Char} {u r : Text}
    (hitem : bracketItem d (u ++ r) = some (.char c, u.length))
    (hr : ∀ e more, r = '-' :: e :: more → e = ']' ∨ e = '-') :
    bracketRange d (u ++ r) = some (.single c, u.length) := by
  rw [bracketRange, hitem]
  simp only [List.drop_left]
  split
  · rename_i e more
    rw [if_pos (by simpa using hr e more rfl)]
    rfl
  · rfl

/-- A hyphen between two characters makes a range. -/
lemma bracketRange_range {c' d d' : Char} {u u' r : Text}
    (hitem : bracketItem d (u ++ '-' :: d' :: (u' ++ r)) = some (.char c, u.length))
    (hitem' : bracketItem d' (u' ++ r) = some (.char c', u'.length))
    (hclose : d' ≠ ']') (hhyphen : d' ≠ '-') :
    bracketRange d (u ++ '-' :: d' :: (u' ++ r)) =
      if c ≤ c' then some (.range c c', u.length + u'.length + 2) else none := by
  rw [bracketRange, hitem]
  simp [hclose, hhyphen, hitem']

/-- A character that is read alone. -/
lemma reads_alone (hflags : flags.verbose = false) (c : Char) (hpair : c = '-' → t.head? ≠ some '-')
    (hrange : ∀ rest e more, t ++ rest = '-' :: e :: more → e = ']' ∨ e = '-') (hne : t ≠ [])
    (h : ∀ sofar, Reads flags 0 stack sofar t) :
    Reads flags 0 stack sofar ((Member.Part.char c).text ++ t) := by
  obtain ⟨d, u, htext, hitem, hopen, hclose, hand, htilde, hhyphen⟩ := text_char c
  rw [htext]
  refine ((h (.union sofar (.single c))).skip u).cons fun rest => ?_
  rw [List.append_assoc, brackets_char hflags ⟨hopen, hclose, hand, htilde⟩,
    bracketRange_alone (hitem _)
    (hrange rest), Option.bind_some]
  intro hd
  obtain rfl := hhyphen.1 hd
  obtain rfl : u = [] := (List.cons.inj htext).2.symm
  rw [List.nil_append, List.head?_append_of_ne_nil _ hne]
  exact hpair rfl

/-- Two characters with a hyphen between them. -/
lemma reads_range (hflags : flags.verbose = false) {c c' : Char} (hc : c ≠ '-') (hc' : c' ≠ '-')
    (h : ∀ sofar, Reads flags 0 stack sofar t) :
    Reads flags 0 stack sofar
      ((Member.Part.char c).text ++ '-' :: ((Member.Part.char c').text ++ t)) := by
  obtain ⟨d, u, htext, hitem, hopen, hclose, hand, htilde, hhyphen⟩ := text_char c
  obtain ⟨d', u', htext', hitem', -, hclose', -, -, hhyphen'⟩ := text_char c'
  have hread (rest : Text) : brackets flags 0 stack sofar (d :: (u ++ '-' :: d' :: (u' ++ rest))) =
      (if c ≤ c' then some (CharSet.range c c', u.length + u'.length + 2) else none).bind
        fun found =>
        (brackets flags found.2 stack (.union sofar found.1) (u ++ '-' :: d' :: (u' ++ rest))).map
          (·.map id (· + 1)) := by
    rw [brackets_char hflags ⟨hopen, hclose, hand, htilde⟩ fun hd => absurd (hhyphen.1 hd) hc,
      bracketRange_range (hitem _) (hitem' _) hclose' fun hd => hc' (hhyphen'.1 hd)]
  rw [htext, htext']
  by_cases hle : c ≤ c'
  · have hskip := (h (.union sofar (.range c c'))).skip (u ++ '-' :: d' :: u')
    have hlength : (u ++ '-' :: d' :: u').length = u.length + u'.length + 2 := by
      simp only [List.length_append, List.length_cons]
      omega
    rw [hlength] at hskip
    have happend : u ++ '-' :: (d' :: u' ++ t) = u ++ '-' :: d' :: u' ++ t := by simp
    rw [List.cons_append, happend]
    refine hskip.cons fun rest => ?_
    have := hread (t ++ rest)
    rw [if_pos hle, Option.bind_some] at this
    simpa using this
  · refine ⟨none, fun rest => ?_⟩
    have := hread (t ++ rest)
    rw [if_neg hle, Option.bind_none] at this
    simpa using this

lemma text_hyphen : (Member.Part.char '-').text = ['-'] := rfl

/-- The parts of brackets up to the bracket that closes them. -/
lemma reads_parts (hflags : flags.verbose = false) {parts : List Member.Part}
    (hparts : Member.Part.Clear parts) (hwaits : Waits stack) (sofar : CharSet) :
    Reads flags 0 stack sofar (parts.flatMap Member.Part.text ++ [']']) := by
  -- A range takes in three parts, a pair of hyphens two.
  induction hlength : parts.length using Nat.strong_induction_on generalizing parts stack sofar with
  | _ n ih =>
      have hrest (others : List Member.Part) (hsuffix : others <:+ parts)
          (hshort : others.length < parts.length) {stack : List Waiting} (hwaits : Waits stack)
          (sofar : CharSet) : Reads flags 0 stack sofar
            (others.flatMap Member.Part.text ++ [']']) :=
        ih _ (hlength ▸ hshort) (hparts.of_suffix hsuffix) hwaits sofar rfl
      cases parts with
      | nil => exact reads_close hflags hwaits sofar
      | cons part parts =>
          have htail := fun sofar => hrest _ (List.suffix_cons part parts) (by simp) hwaits sofar
          rw [List.flatMap_cons, List.append_assoc]
          cases part with
          | named name => exact reads_named hflags (hparts.known name (by simp)) htail
          | char c =>
              obtain - | ⟨⟨e⟩ | ⟨name⟩, parts⟩ := parts
              · exact reads_alone hflags c (by simp) (by simp) (by simp) htail
              · by_cases he : e = '-'
                · subst he
                  by_cases hc : c = '-'
                  · subst hc
                    exact reads_difference hflags hwaits fun stack sofar hwaits =>
                      hrest _ ⟨[.char '-', .char '-'], rfl⟩ (by simp) hwaits sofar
                  · obtain - | ⟨⟨e⟩ | ⟨name⟩, parts⟩ := parts
                    · exact reads_alone hflags c (fun h => absurd h hc)
                        (by simp [text_hyphen]) (by simp) htail
                    · by_cases he : e = '-'
                      · subst he
                        exact reads_alone hflags c (fun h => absurd h hc)
                          (by simp [text_hyphen]) (by simp) htail
                      · have hthird := fun sofar => hrest parts
                          ⟨[.char c, .char '-', .char e], rfl⟩ (by simp; omega) hwaits sofar
                        simpa [text_hyphen] using reads_range hflags hc he hthird
                    · exact absurd ⟨[], parts, rfl⟩ (hparts.ranges c name)
                · obtain ⟨d, u, htext, -, -, -, -, -, hhyphen⟩ := text_char e
                  have hd : d ≠ '-' := mt hhyphen.1 he
                  exact reads_alone hflags c (by simp [htext, hd]) (by simp [htext, hd])
                    (by simp) htail
              · exact reads_alone hflags c (by simp [Member.Part.text])
                  (by simp [Member.Part.text]) (by simp) htail

/-! ### The front -/

/-- Hyphens at the front of parts have no other meaning. -/
lemma exists_replicate_hyphens (parts : List Member.Part) :
    ∃ k others, parts = List.replicate k (.char '-') ++ others ∧
      ∀ rest, ((parts.flatMap Member.Part.text ++ ']' :: rest).takeWhile (· = '-')).length = k := by
  induction parts with
  | nil => exact ⟨0, [], rfl, by simp⟩
  | cons part parts ih =>
      by_cases hpart : part = .char '-'
      · obtain ⟨k, others, rfl, hhyphens⟩ := ih
        refine ⟨k + 1, others, by rw [hpart, List.replicate_succ, List.cons_append], fun rest => ?_⟩
        simpa [hpart, text_hyphen] using hhyphens rest
      · refine ⟨0, part :: parts, rfl, fun rest => ?_⟩
        cases part with
        | char c =>
            obtain ⟨d, u, htext, -, -, -, -, -, hhyphen⟩ := text_char c
            have hd : d ≠ '-' := fun hd => hpart (by rw [hhyphen.1 hd])
            simp [htext, hd]
        | named name => simp [Member.Part.text]

/-- The front of brackets that do not begin with one that closes: a sign of negation, and
hyphens. -/
lemma bracketFront_eq {t : Text} (hclose : t.head? ≠ some ']') {k : ℕ}
    (hhyphens : (t.takeWhile (· = '-')).length = k) :
    bracketFront ('^' :: t) = (true, if k > 0 then .single '-' else .empty, 1 + k) ∧
      (t.head? ≠ some '^' → bracketFront t =
        (false, if k > 0 then .single '-' else .empty, k)) := by
  constructor
  · simp only [bracketFront, hhyphens, hclose, if_false]
    split <;> simp_all
  · intro hnegated
    have hplain : ∀ more, t ≠ '^' :: more := fun more h => hnegated (by rw [h]; rfl)
    rw [bracketFront]
    · simp only [hhyphens, hclose, if_false, Nat.zero_add]
      split <;> simp_all
    · exact hplain

/-- A text of brackets is read up to its end, whatever comes behind. -/
def Whole (flags : Flags) (t : Text) : Prop :=
  ∃ found : Option CharSet, ∀ rest, bracket flags (t ++ rest) = found.map (·, t.length)

/-- Parts are read as brackets, up to the one that closes them. -/
lemma whole_parts (hflags : flags.verbose = false) {parts : List Member.Part}
    (hparts : Member.Part.Clear parts) (hne : parts ≠ []) :
    Whole flags ('^' :: (parts.flatMap Member.Part.text ++ [']'])) ∧
      ((parts.flatMap Member.Part.text).head? ≠ some '^' →
        Whole flags (parts.flatMap Member.Part.text ++ [']'])) := by
  obtain ⟨k, others, hsplit, hhyphens⟩ := exists_replicate_hyphens parts
  have htext : parts.flatMap Member.Part.text ++ [']'] =
      List.replicate k '-' ++ (others.flatMap Member.Part.text ++ [']']) := by
    simp [hsplit, text_hyphen, List.flatMap_replicate]
  have hcons (rest : Text) : parts.flatMap Member.Part.text ++ [']'] ++ rest =
      parts.flatMap Member.Part.text ++ ']' :: rest := by simp
  have hclose (rest : Text) : (parts.flatMap Member.Part.text ++ ']' :: rest).head? ≠ some ']' := by
    obtain ⟨⟨c⟩ | ⟨name⟩, parts, rfl⟩ := List.exists_cons_of_ne_nil hne
    · obtain ⟨d, u, hd, -, -, hne, -⟩ := text_char c
      simp [hd, hne]
    · simp [Member.Part.text]
  have hread (negated : Bool) := reads_parts hflags (hparts.of_suffix ⟨_, hsplit.symm⟩)
    (Waits.bracket negated .empty) (if k > 0 then .single '-' else .empty)
  constructor
  · obtain ⟨found, hfound⟩ := (hread true).skip ('^' :: List.replicate k '-')
    refine ⟨found, fun rest => ?_⟩
    rw [List.cons_append, hcons, bracket, (bracketFront_eq (hclose rest) (hhyphens rest)).1,
      ← hcons, htext]
    simpa [Nat.add_comm] using hfound rest
  · intro hnegated
    obtain ⟨found, hfound⟩ := (hread false).skip (List.replicate k '-')
    refine ⟨found, fun rest => ?_⟩
    have hhead : (parts.flatMap Member.Part.text ++ ']' :: rest).head? ≠ some '^' := by
      cases h : parts.flatMap Member.Part.text with
      | nil => simp
      | cons d u => simpa [h] using hnegated
    rw [hcons, bracket, (bracketFront_eq (hclose rest) (hhyphens rest)).2 hhead, ← hcons, htext]
    simpa using hfound rest

/-- Brackets have a part, and one behind a circumflex that would negate them. -/
lemma parts_begun (b : Brackets) :
    b.parts ≠ [] ∧ (b.negated = false → b.parts ≠ [.char '^']) := by
  have hparts (m : Member) : m.parts ≠ [] := by cases m <;> simp [Member.parts]
  rw [Brackets.parts]
  cases hclosing : b.closing with
  | true => simp
  | false =>
      obtain ⟨hne, hlong⟩ := b.begun hclosing
      rw [if_neg (by simp), List.nil_append]
      cases hmembers : b.members with
      | nil => simp [hmembers] at hne
      | cons m members =>
          rw [hmembers] at hlong
          refine ⟨by simp [hparts m], fun hnegated hsingle => hlong hnegated ?_⟩
          cases m with
          | char c =>
              cases members with
              | nil => simpa [Member.parts, Member.basic] using hsingle
              | cons m members => cases m <;> simp [Member.parts] at hsingle
          | range | named => simp [Member.parts] at hsingle

/-- A part that begins with a circumflex is one. -/
lemma eq_circumflex {part : Member.Part} (h : part.text.head? = some '^') : part = .char '^' := by
  cases part with
  | char c =>
      rw [Member.Part.text, escapeIf] at h
      split at h
      · simp at h
      · rw [show c = '^' by simpa using h]
  | named name => simp [Member.Part.text] at h

/-- Brackets are read up to the one that closes them. -/
lemma whole_brackets (hflags : flags.verbose = false) {b : Brackets} (h : b.Clear) :
    Whole flags b.extended := by
  obtain ⟨hne, hlong⟩ := parts_begun b
  rw [b.extended_eq, Brackets.sign]
  split
  · exact (whole_parts hflags h hne).1
  · rename_i hnegated
    by_cases hhead : (b.parts.flatMap Member.Part.text).head? = some '^'
    · -- A circumflex that is the first part is read as a negation.
      have hlong' := hlong (by simpa using hnegated)
      rw [Brackets.Clear] at h
      obtain ⟨part, parts, hparts⟩ := List.exists_cons_of_ne_nil hne
      rw [hparts] at h hhead hlong' ⊢
      have htext : part.text ≠ [] := by
        cases part with
        | char c =>
            obtain ⟨d, u, hd, -⟩ := text_char c
            simp [hd]
        | named name => simp [Member.Part.text]
      rw [List.flatMap_cons, List.head?_append_of_ne_nil _ htext] at hhead
      obtain rfl := eq_circumflex hhead
      exact (whole_parts hflags (h.of_suffix (List.suffix_cons _ parts)) (by simpa using hlong')).1
    · exact (whole_parts hflags h hne).2 hhead

end Lexeme

end StreamEditor.Regex
