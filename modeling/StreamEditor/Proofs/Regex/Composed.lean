import StreamEditor.Proofs.Regex.Repeatable
import StreamEditor.Proofs.Regex.Ungrouped

/-!
Repetitions and groups, and what the library of regular expressions makes of them.

* `Repeated`: what a repetition can follow, repeated and put in groups any number of times.
* `Library.Means`: what is documented of the library about such patterns. What they cover is
  composed of what is repeated and how often; a group covers what stands in it.
* `Library.means_builtin`: so it is in the library that the editor is run with, where a pattern
  means an expression without its groups.
-/

namespace StreamEditor.Regex

open BasicNotation (Repetition)

/-- What a repetition can follow, repeated and put in groups. A repetition takes as many as it can
if it is greedy, and prefers to be short if it is not. -/
inductive Repeated where
  | operand (u : Text)
  | group (e : Repeated)
  | times (e : Repeated) (r : Repetition) (greedy : Bool)

namespace Repeated

/-- The form in the extended notation. A question mark behind a repetition marks it as one that
prefers to be short. -/
def text : Repeated → Text
  | operand u => u
  | group e => '(' :: (e.text ++ [')'])
  | times e r greedy => e.text ++ (r.extended ++ if greedy then [] else ['?'])

/-- True if a question mark that comes behind would mark the last repetition. -/
def isOpen : Repeated → Bool
  | times _ _ greedy => greedy
  | _ => false

/-- Nothing is repeated but what a repetition can follow, and no question mark that stands for a
repetition of its own could be taken for a mark. -/
def Sound : Repeated → Prop
  | operand u => Lexeme.Operand u
  | group e => e.Sound
  | times e r _ => e.Sound ∧ (e.isOpen = true → r ≠ .optional)

end Repeated

/-! ### The library -/

/-- What repeated expressions mean, part by part. -/
structure Semantics where
  Meaning : Type
  /-- What something means that a repetition can follow. -/
  operand : Options → Text → Meaning
  /-- What a repetition means, from what it repeats. -/
  times : Repetition → Bool → Meaning → Meaning
  /-- What the matches cover in a text, one after the other. -/
  spans : Meaning → Text → List (ℕ × ℕ)

/-- What a repeated expression means. A group means what stands in it. -/
def Semantics.meaning (sem : Semantics) (options : Options) : Repeated → sem.Meaning
  | .operand u => sem.operand options u
  | .group e => sem.meaning options e
  | .times e r greedy => sem.times r greedy (sem.meaning options e)

/-- What is documented of the library for patterns without references, as far as it concerns
repetitions: each applies to what stands right before it, as does a question mark that marks one,
and groups change nothing of what the matches cover. -/
def Library.Means (library : Library) (sem : Semantics) : Prop :=
  ∀ (options : Options) {e : Repeated} {m : Standard}, e.Sound →
    library.standard? (options.flags ++ e.text) = some m →
      ∀ t, (m.captures t).map Match.span = sem.spans (sem.meaning options e) t

/-! ### Repetitions in the library that the editor is run with -/

namespace BasicNotation

lemma quantifier_extended (r : Repetition) : Lexeme.Quantifier r.extended := by
  have hdecimal {n : ℕ} {c : Char} (hc : c ∈ Text.decimal n) : c.isDigit = true :=
    Nat.isDigit_of_mem_toDigits (by decide) le_rfl hc
  cases r with
  | any => exact .sign '*' (by simp)
  | some => exact .sign '+' (by simp)
  | optional => exact .sign '?' (by simp)
  | exactly n => exact .braces (Text.decimal n) fun c hc => .inl (hdecimal hc)
  | atLeast n =>
      refine .braces (Text.decimal n ++ [',']) fun c hc => ?_
      exact (List.mem_append.1 hc).imp hdecimal List.mem_singleton.1
  | between m n =>
      refine .braces (Text.decimal m ++ ',' :: Text.decimal n) fun c hc => ?_
      obtain hc | hc := List.mem_append.1 hc
      · exact .inl (hdecimal hc)
      · exact (List.mem_cons.1 hc).symm.imp_left hdecimal

/-- Only one of the repetitions begins with a question mark. -/
lemma head?_extended (r : Repetition) (t : Text) :
    (r.extended ++ t).head? = some '?' ↔ r = .optional := by
  cases r <;> simp [Repetition.extended]

end BasicNotation

/-- How often a repetition repeats at least and at most, if it can be read. -/
def Lexeme.loopBounds? (r : Repetition) : Option (ℕ × Option ℕ) :=
  match ofText? .none r.extended with
  | some [.loop least most _] => some (least, most)
  | _ => none

/-- Nothing that a repetition can follow begins with a question mark. -/
lemma Lexeme.Operand.head?_ne {u : Text} (h : Operand u) (t : Text) :
    (u ++ t).head? ≠ some '?' := by
  cases h with
  | flat h => exact h.head?_ne t
  | group => simp

/-- No repeated expression begins with a question mark. -/
lemma Repeated.Sound.head?_ne {e : Repeated} (h : e.Sound) (t : Text) :
    (e.text ++ t).head? ≠ some '?' := by
  induction e generalizing t with
  | operand u => exact Lexeme.Operand.head?_ne h t
  | group e ih => simp [text]
  | times e r greedy ih =>
      rw [text, List.append_assoc]
      exact ih h.1 _

/-- Patterns mean expressions without their groups, if they can be read. -/
@[reducible] def Tree.semantics : Semantics where
  Meaning := Option Tree
  operand options u := (Lexeme.ofText? options.read u).bind Lexeme.part?
  times r greedy found :=
    (Lexeme.loopBounds? r).bind fun b => found.map fun t => Tree.loopOf t b.1 b.2 greedy
  spans found t :=
    match found with
    | some tree => ((Tree.cat tree .empty).standard.captures t).map Match.span
    | none => []

namespace Lexeme

/-- A repetition is read for its bounds, and prefers to be short if it is marked. -/
lemma readAll_times {flags : Flags} (hverbose : flags.verbose = false)
    (hgreed : flags.swapGreed = false) (outer : List Flags) (r : Repetition) (greedy : Bool)
    {rest : Text} (hrest : greedy = true → rest.head? ≠ some '?') :
    readAll 0 flags outer (r.extended ++ ((if greedy then [] else ['?']) ++ rest)) =
      (loopBounds? r).bind fun b =>
        (readAll 0 flags outer rest).map (.loop b.1 b.2 greedy :: ·) := by
  obtain ⟨found, hread⟩ := readAll_quantifier (BasicNotation.quantifier_extended r)
  have hbounds : loopBounds? r = found := by
    have halone := hread .none rfl [] []
    rw [List.append_nil] at halone
    rw [loopBounds?, ofText?, halone]
    cases found <;> rfl
  rw [hread flags hverbose, hbounds, hgreed]
  cases greedy with
  | true =>
      simp only [if_true, List.nil_append, hrest rfl, if_false]
      rfl
  | false => rfl

/-- A repeated expression is read as the part that it means, if no question mark behind it marks its
last repetition. -/
lemma readAll_repeated (options : Options) {e : Repeated} (h : e.Sound) :
    ∃ found : Option (List Lexeme),
      (∀ ls ∈ found, Writes ls (Tree.semantics.meaning options e)) ∧ ∀ outer rest,
        (e.isOpen = true → rest.head? ≠ some '?') →
          readAll 0 options.read outer (e.text ++ rest) =
            found.bind fun ls => (readAll 0 options.read outer rest).map (ls ++ ·) := by
  induction e with
  | operand u =>
      obtain ⟨found, hsingle, hread⟩ := @Operand.reads options.read rfl u h
      have hfound : ofText? options.read u = found := by
        have halone := hread [] []
        rw [List.append_nil] at halone
        rw [ofText?, halone]
        cases found <;> simp [readAll]
      refine ⟨found, fun ls hls => ?_, fun outer rest _ => hread outer rest⟩
      have hmeaning : Tree.semantics.meaning options (.operand u) = part? ls := by
        change (ofText? options.read u).bind part? = _
        rw [hfound, Option.mem_def.1 hls, Option.bind_some]
      rw [hmeaning]
      exact (hsingle ls hls).writes
  | group e ih =>
      obtain ⟨found, hwrites, hread⟩ := ih h
      refine ⟨found.map fun ls => .openGroup none :: (ls ++ [.close]), fun ls hls => ?_,
        fun outer rest _ => ?_⟩
      · obtain ⟨inside, hinside, rfl⟩ := Option.map_eq_some_iff.1 hls
        exact (hwrites inside hinside).group
      · have hfront : (e.text ++ ')' :: rest).head? ≠ some '?' :=
          Repeated.Sound.head?_ne (e := e) h _
        have happend : (Repeated.group e).text ++ rest = '(' :: (e.text ++ ')' :: rest) := by
          simp [Repeated.text]
        rw [happend, readAll_open rfl outer hfront, hread _ _ (by simp), readAll_close rfl]
        cases found <;> simp [Option.map_map, Function.comp_def]
  | times e r greedy ih =>
      obtain ⟨hsound, hmark⟩ := h
      obtain ⟨found, hwrites, hread⟩ := ih hsound
      refine ⟨found.bind fun ls => (loopBounds? r).map fun b => ls ++ [.loop b.1 b.2 greedy],
        fun ls hls => ?_, fun outer rest hrest => ?_⟩
      · obtain ⟨inside, hinside, hloop⟩ := Option.bind_eq_some_iff.1 hls
        obtain ⟨b, hb, rfl⟩ := Option.map_eq_some_iff.1 hloop
        have hmeaning : Tree.semantics.meaning options (.times e r greedy) =
            (Tree.semantics.meaning options e).map fun t => Tree.loopOf t b.1 b.2 greedy := by
          change (loopBounds? r).bind _ = _
          rw [hb]
          rfl
        rw [hmeaning]
        exact (hwrites inside hinside).loop b.1 b.2 greedy
      · have hopen (he : e.isOpen = true) :
            (r.extended ++ ((if greedy then [] else ['?']) ++ rest)).head? ≠ some '?' :=
          fun hhead => hmark he ((BasicNotation.head?_extended r _).1 hhead)
        rw [Repeated.text, List.append_assoc, List.append_assoc, hread outer _ hopen,
          readAll_times rfl rfl outer r greedy hrest]
        cases found <;> cases loopBounds? r <;> simp [Option.map_map, Function.comp_def]

end Lexeme

/-- A single part behind changes of flags is a sequence of its own. -/
lemma Nested.sequence_flags (k : ℕ) (n : Nested) :
    (sequence (Piece.tree n :: List.replicate (k + 1) Piece.flags).reverse).tree =
      .cat n.tree .empty := by
  have htrees : (List.replicate (k + 1) Piece.flags ++ [Piece.tree n]).filterMap Piece.tree? =
      [n.tree] := by
    rw [List.filterMap_append, List.filterMap_replicate_of_none rfl]
    rfl
  have hsequence : (sequence (List.replicate (k + 1) Piece.flags ++ [Piece.tree n])).tree =
      .catAll ((List.replicate (k + 1) Piece.flags ++ [Piece.tree n]).filterMap Piece.tree?) := by
    cases k <;> rfl
  rw [List.reverse_cons, List.reverse_replicate, hsequence, htrees]
  rfl

/-- A single part behind the flags of a pattern is an expression, and nothing comes behind it. -/
lemma Lexeme.Writes.ofLexemes? {lexemes : List Lexeme} {bare : Option Tree}
    (h : Writes lexemes bare) {options : Options} {t : Tree}
    (ht : Tree.ofLexemes? (options.lexemes ++ lexemes) = some t) :
    ∃ tree : Tree, t = .cat tree .empty ∧ bare = some tree.bare ∧ tree.Inner := by
  obtain ⟨k, hflags⟩ := options.foldlM_lexemes
  rw [Tree.ofLexemes?, List.foldlM_append, hflags, Option.bind_eq_bind, Option.bind_some] at ht
  split at ht
  · rename_i nested hnested
    split at ht
    · obtain rfl := Option.some.inj ht
      obtain ⟨b, hpush, hfinish⟩ := Option.bind_eq_some_iff.1 hnested
      obtain ⟨n, hcurrent, houter, hbare, hinner⟩ := h _ b hpush
      obtain ⟨current, outer, groups, names⟩ := b
      obtain rfl : current = _ := hcurrent
      obtain rfl : outer = _ := houter
      obtain rfl := Option.some.inj hfinish
      exact ⟨n.tree, Nested.sequence_flags k n, hbare, hinner⟩
    · cases ht
  · cases ht

/-- The library that the editor is run with does with repetitions what is documented. -/
theorem Library.means_builtin : Library.builtin.Means Tree.semantics := by
  intro options e m he hm t
  obtain ⟨tree, htree, rfl⟩ := Option.map_eq_some_iff.1 hm
  obtain ⟨lexemes, hlexemes, htree⟩ := Option.bind_eq_some_iff.1 htree
  obtain ⟨found, hwrites, hread⟩ := Lexeme.readAll_repeated options he
  have halone := hread [] [] (by simp)
  rw [List.append_nil] at halone
  rw [Lexeme.ofText?_flags, halone] at hlexemes
  obtain ⟨ls, hls, rfl⟩ := Option.map_eq_some_iff.1 hlexemes
  obtain ⟨inside, hinside, hls⟩ := Option.bind_eq_some_iff.1 hls
  obtain rfl : inside = ls := by simpa [Lexeme.readAll] using hls
  obtain ⟨tree, rfl, hbare, hinner⟩ := (hwrites inside hinside).ofLexemes? htree
  rw [hbare]
  exact (captures_bare (t := .cat tree .empty) ⟨hinner, trivial⟩ t).symm

end StreamEditor.Regex
