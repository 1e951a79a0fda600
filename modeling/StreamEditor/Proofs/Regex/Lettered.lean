import StreamEditor.Proofs.Regex.Balanced
import StreamEditor.Proofs.Regex.Signs
import StreamEditor.Proofs.Regex.Straight
import StreamEditor.Regex.Builtin

/-!
Letters and anchors in the library that the editor is run with.

* `Lexeme.readAll_signs`: signs are read for what they write, one after the other.
* `Sign.straight_catAll`: the automaton of signs goes straight on; `Sign.find_catAll` says that it
  finds the first place at which they fit.
* `Library.readsSigns_builtin`: so the library does with signs what is documented.
-/

namespace StreamEditor.Regex

open BasicNotation (isExtendedSign)

/-! ### Reading -/

/-- Letters stand for themselves, anchors for the ends of the whole text, and blanks count. -/
structure Flags.Exact (flags : Flags) : Prop where
  ignoreCase : flags.ignoreCase = false
  multiLine : flags.multiLine = false
  verbose : flags.verbose = false

/-- The lexeme that a sign writes. -/
def Sign.lexeme : Sign → Lexeme
  | letter w => .set (.single w.char)
  | start => .look .textStart
  | stop => .look .textEnd

namespace Lexeme

/-- A backslash before a character that stands for itself then changes nothing else. -/
lemma escaped_of_isEscapable {c : Char} (hc : isEscapable c = true) (rest : Text) :
    escaped c rest = some (.char c, 0) := by
  have hmay : mayBeEscaped c = true := (congrArg (isMeta c || ·) hc).trans (Bool.or_true _)
  rw [escaped]
  · rw [if_pos hmay, ite_self]
  all_goals
    rintro rfl
    exact absurd hc (by decide)

/-- Only ASCII can be read behind a backslash. -/
lemma escaped_of_le {c : Char} (hc : 0x80 ≤ c.toNat) (rest : Text) : escaped c rest = none := by
  have hmeta : isMeta c = false := by
    rw [← Bool.not_eq_true, isMeta, List.contains_iff_mem]
    intro hmem
    fin_cases hmem <;> exact absurd hc (by decide)
  have hletter : Escape.letter? c = none := by
    rw [Escape.letter?]
    all_goals
      rintro rfl
      exact absurd hc (by decide)
  have hmay : mayBeEscaped c = false := by
    rw [mayBeEscaped, hmeta, decide_eq_false (not_lt.2 hc)]
    rfl
  rw [escaped]
  · rw [hmeta, hmay, hletter]
    rfl
  all_goals
    rintro rfl
    exact absurd hc (by decide)

variable {flags : Flags} (hflags : flags.Exact) (outer : List Flags)

include hflags

lemma readAll_cons {c : Char} {rest : Text} {s : Sign} {used : ℕ}
    (h : read flags c rest = some (s.lexeme, used)) :
    readAll 0 flags outer (c :: rest) =
      (readAll used flags outer rest).map (s.lexeme :: ·) := by
  rw [readAll, h, hflags.verbose]
  cases s <;> rfl

/-- A sign is read for what it writes. -/
lemma readAll_sign (s : Sign) (rest : Text) :
    readAll 0 flags outer (s.text ++ rest) =
      (readAll 0 flags outer rest).map (s.lexeme :: ·) := by
  have hliteral (c : Char) : literal flags c = .set (.single c) := by
    rw [literal, hflags.ignoreCase]
    rfl
  cases s with
  | letter w =>
      rw [Sign.text]
      obtain ⟨htext, hsound⟩ | ⟨htext, hsound⟩ := w.cases
      · have hread : read flags w.char rest = some (literal flags w.char, 0) := by
          rw [read]
          all_goals
            intro h
            rw [h] at hsound
            cases hsound
        rw [hliteral] at hread
        rw [htext]
        exact readAll_cons hflags outer (s := .letter w) hread
      · have hread : read flags '\\' (w.char :: rest) = some (literal flags w.char, 1) := by
          rw [read, escaped_of_isEscapable hsound]
          rfl
        rw [hliteral] at hread
        rw [htext]
        exact readAll_cons hflags outer (s := .letter w) hread
  | start =>
      refine readAll_cons hflags outer (s := .start) ?_
      rw [read, hflags.multiLine]
      rfl
  | stop =>
      refine readAll_cons hflags outer (s := .stop) ?_
      rw [read, hflags.multiLine]
      rfl

/-- Signs are read for what they write, one after the other. -/
lemma readAll_signs (signs : List Sign) (rest : Text) :
    readAll 0 flags outer (signs.flatMap Sign.text ++ rest) =
      (readAll 0 flags outer rest).map (signs.map Sign.lexeme ++ ·) := by
  induction signs with
  | nil => simp
  | cons s signs ih =>
      rw [List.flatMap_cons, List.append_assoc, readAll_sign hflags, ih, Option.map_map]
      rfl

/-- A backslash at the end, or before other characters than those of ASCII, cannot be read. -/
lemma readAll_backslash {rest : Text} (h : ∀ c ∈ rest.head?, 0x80 ≤ c.toNat) :
    readAll 0 flags outer ('\\' :: rest) = none := by
  have hread : read flags '\\' rest = none := by
    cases rest with
    | nil => rfl
    | cons c rest => rw [read, escaped_of_le (h c rfl)]; rfl
  rw [readAll, hflags.verbose, hread]
  rfl

end Lexeme

/-! ### The expression -/

namespace Sign

/-- The expression that a sign is. -/
def tree : Sign → Tree
  | letter w => .char w.char
  | start => .look .textStart
  | stop => .look .textEnd

/-- The instruction of a sign. -/
def inst : Sign → Inst
  | letter w => .set (.single w.char)
  | start => .look .textStart
  | stop => .look .textEnd

/-- A sign as a part of a sequence. -/
def piece (s : Sign) : Piece := .tree ⟨s.tree, 0⟩

lemma foldlM_push (signs : List Sign) (b : Building) :
    (signs.map Sign.lexeme).foldlM Building.push b =
      some { b with
        current := { b.current with
          pieces := (signs.map piece).reverse ++ b.current.pieces } } := by
  induction signs generalizing b with
  | nil => rfl
  | cons s signs ih =>
      have hpush : b.push s.lexeme = some (b.add s.piece) := by
        cases s <;> rfl
      rw [List.map_cons, List.foldlM_cons, hpush]
      refine (ih (b.add s.piece)).trans ?_
      simp [Building.add, Level.add]

/-- Signs behind flags are a sequence. -/
lemma sequence_pieces (signs : List Sign) :
    (Nested.sequence (.flags :: signs.map piece)).tree = .catAll (signs.map tree) := by
  cases signs with
  | nil => rfl
  | cons s signs =>
      have htrees : (signs.map piece).filterMap Piece.tree? = signs.map tree := by
        rw [List.filterMap_map]
        exact List.filterMap_eq_map ▸ rfl
      exact congrArg (fun trees => Tree.catAll (s.tree :: trees)) htrees

lemma code_catAll (signs : List Sign) : (Tree.catAll (signs.map tree)).code = signs.map inst := by
  induction signs with
  | nil => rfl
  | cons s signs ih =>
      cases s with
      | letter w => exact congrArg (Inst.set (.single w.char) :: ·) ih
      | start => exact congrArg (Inst.look .textStart :: ·) ih
      | stop => exact congrArg (Inst.look .textEnd :: ·) ih

lemma groupCount_catAll (signs : List Sign) : (Tree.catAll (signs.map tree)).groupCount = 1 := by
  induction signs with
  | nil => rfl
  | cons s signs ih => cases s <;> exact congrArg (max 1) ih

/-- The code of signs one after the other, as a whole. -/
lemma insts_catAll (signs : List Sign) :
    (Automaton.ofTree (.catAll (signs.map tree))).insts.toList =
      .mark 0 :: (signs.map inst ++ [.mark 1, .accept]) := by
  simp [Automaton.ofTree, Tree.code, code_catAll]

/-- The automaton of signs one after the other goes straight on. -/
lemma straight_catAll (signs : List Sign) :
    (Automaton.ofTree (.catAll (signs.map tree))).Straight := by
  obtain ⟨body, hbody, hgoesOn⟩ : ∃ body,
      (Automaton.ofTree (.catAll (signs.map tree))).insts.toList = body ++ [.accept] ∧
        ∀ inst ∈ body, inst.goesOn = true := by
    refine ⟨.mark 0 :: (signs.map inst ++ [.mark 1]), by simp [insts_catAll], ?_⟩
    simp only [List.mem_cons, List.mem_append, List.mem_map, List.not_mem_nil, or_false]
    rintro inst (rfl | ⟨s, -, rfl⟩ | rfl)
    · rfl
    · cases s <;> rfl
    · rfl
  have hsize : (Automaton.ofTree (.catAll (signs.map tree))).insts.size = body.length + 1 := by
    rw [← Array.length_toList, hbody, List.length_append, List.length_singleton]
  constructor
  · intro i inst hinst hi
    rw [← Array.getElem?_toList, hbody, List.getElem?_append_left (by omega)] at hinst
    exact hgoesOn inst (List.mem_of_getElem? hinst)
  · rw [← Array.getElem?_toList, hbody, hsize, List.getElem?_append_right (by omega)]
    simp

/-! ### The search -/

/-- The way through the code of signs ends well where they fit. -/
lemma run_insts (signs : List Sign) (marks : Marks) (before : Option Char) (position : ℕ)
    (rest : Text) :
    Inst.run (signs.map inst ++ [.mark 1, .accept]) marks before position rest =
      if fit signs before rest then some ((1, position + (signs.map width).sum) :: marks)
      else none := by
  induction signs generalizing before position rest with
  | nil => cases rest <;> rfl
  | cons s signs ih =>
      cases s with
      | letter w =>
          cases rest with
          | nil => rfl
          | cons c rest =>
              change (if (CharSet.single w.char).mem c then _ else none) = _
              rw [CharSet.mem_single]
              refine (if_congr Iff.rfl (ih (some c) (position + 1) rest) rfl).trans ?_
              by_cases hc : c = w.char <;> simp [fit, width, hc, Nat.add_assoc]
      | start =>
          refine (if_congr Iff.rfl (ih before position rest) rfl).trans ?_
          cases before <;> simp [fit, width, Look.holds]
      | stop =>
          have hrun : Inst.run (inst stop :: (signs.map inst ++ [.mark 1, .accept])) marks before
              position rest = if rest.isEmpty = true then
                Inst.run (signs.map inst ++ [.mark 1, .accept]) marks before position rest
              else none := by
            cases rest <;> rfl
          refine hrun.trans ?_
          rw [ih]
          cases rest <;> simp [fit, width]

lemma runFirst_insts (signs : List Sign) (before : Option Char) (position : ℕ) (rest : Text) :
    Inst.runFirst (.mark 0 :: (signs.map inst ++ [.mark 1, .accept])) before position rest =
      (firstFit signs before position rest).map fun start =>
        [(1, start + (signs.map width).sum), (0, start)] := by
  have hrun (before : Option Char) (position : ℕ) (rest : Text) :
      Inst.run (.mark 0 :: (signs.map inst ++ [.mark 1, .accept])) [] before position rest =
        if fit signs before rest then some [(1, position + (signs.map width).sum), (0, position)]
        else none := run_insts signs [(0, position)] before position rest
  induction rest generalizing before position with
  | nil =>
      rw [Inst.runFirst, hrun, firstFit]
      split <;> rfl
  | cons c rest ih =>
      rw [Inst.runFirst, hrun, firstFit, ih]
      split <;> rfl

/-- The marks at the ends of the whole describe its match. -/
lemma ofMarks_ends (start stop : ℕ) :
    Match.ofMarks 1 (fun slot => List.lookup slot [(1, stop), (0, start)]) =
      ⟨start, stop, [some (start, stop)]⟩ := by
  have h₀ : List.lookup 0 [(1, stop), (0, start)] = some start := rfl
  have h₁ : List.lookup 1 [(1, stop), (0, start)] = some stop := rfl
  simp only [Match.ofMarks, h₀, h₁, List.range_one, List.map_cons, List.map_nil,
    Option.getD_some, Nat.mul_zero, Nat.zero_add]

/-- The automaton of signs finds the first place at which they fit. -/
lemma find_catAll (signs : List Sign) :
    Finder.sure ((Automaton.ofTree (.catAll (signs.map tree))).find 1) = finder signs := by
  funext before position rest
  have hmatch : (fun marks : Marks => Match.ofMarks 1 fun slot => List.lookup slot marks) ∘
      (fun start => [(1, start + (signs.map width).sum), (0, start)]) = matchAt signs :=
    funext fun start => ofMarks_ends start _
  rw [Finder.sure, Automaton.find, Automaton.search_straight (straight_catAll signs), insts_catAll,
    runFirst_insts, Option.map_map, hmatch]
  rfl

end Sign

/-! ### The library -/

/-- A pattern of signs is accepted as the expression that they write, or not at all. -/
lemma Library.of_standard?_signs {signs : List Sign} {m : Standard}
    (h : Library.builtin.standard? (Text.ofString "(?s)" ++ signs.flatMap Sign.text) = some m) :
    m = (Tree.catAll (signs.map Sign.tree)).standard := by
  obtain ⟨t, ht, rfl⟩ := Option.map_eq_some_iff.1 h
  have hread : Lexeme.ofText? .none (Text.ofString "(?s)" ++ signs.flatMap Sign.text) =
      some ((Options.lexemes ⟨false, false, false⟩) ++ signs.map Sign.lexeme) := by
    have hsigns := @Lexeme.readAll_signs (Options.read ⟨false, false, false⟩) ⟨rfl, rfl, rfl⟩ []
      signs []
    rw [List.append_nil] at hsigns
    rw [← Options.flags_bare false, Lexeme.ofText?_flags, hsigns]
    simp [Lexeme.readAll]
  have hpush :
      ((Options.lexemes ⟨false, false, false⟩) ++ signs.map Sign.lexeme).foldlM
        Building.push .start =
          some ⟨⟨none, [], (.flags :: signs.map Sign.piece).reverse⟩, [], 0, []⟩ := by
    rw [List.reverse_cons]
    exact Sign.foldlM_push signs ⟨⟨none, [], [.flags]⟩, [], 0, []⟩
  have hfinish : Building.finish ⟨⟨none, [], (.flags :: signs.map Sign.piece).reverse⟩, [], 0, []⟩ =
      some (Nested.sequence (.flags :: signs.map Sign.piece)) := by
    simp [Building.finish, Level.content, Level.endBranch, Nested.choice]
  rw [Tree.ofText?, hread, Option.bind_some, Tree.ofLexemes?, hpush, Option.bind_some,
    hfinish] at ht
  dsimp only at ht
  split at ht
  · rw [← Option.some.inj ht, Sign.sequence_pieces]
  · cases ht

/-- The library that the editor is run with does with signs what is documented. -/
theorem Library.readsSigns_builtin : Library.builtin.ReadsSigns where
  captures h := by
    obtain rfl := Library.of_standard?_signs h
    refine ⟨Sign.groupCount_catAll _, fun t => ?_⟩
    rw [Tree.standard, Sign.groupCount_catAll, Sign.find_catAll]
  isMatch h t := by
    obtain rfl := Library.of_standard?_signs h
    rw [Tree.standard]
    dsimp only
    rw [isEmpty_all (m := Automaton.find _ _ none 0 t) rfl, ← Option.not_isSome, Bool.not_not]
  refuses signs rest h := by
    have hnone : Lexeme.ofText? .none
        (Text.ofString "(?s)" ++ (signs.flatMap Sign.text ++ '\\' :: rest)) = none := by
      rw [← Options.flags_bare false, Lexeme.ofText?_flags, Lexeme.readAll_signs ⟨rfl, rfl, rfl⟩,
        Lexeme.readAll_backslash ⟨rfl, rfl, rfl⟩ [] h]
      rfl
    change (Tree.ofText? .none _).map Tree.standard = none
    rw [Tree.ofText?, hnone]
    rfl

end StreamEditor.Regex
