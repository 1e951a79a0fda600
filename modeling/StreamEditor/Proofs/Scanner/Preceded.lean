import StreamEditor.Proofs.Scanner.Passage

/-!
Scanning the same text behind others.

* `Cursor.preceded`, `Scanner.preceded`: a cursor and a scanner in a text that another precedes.
* `Scanner.next_preceded`: the token is the same, if no backslash ends the text before.
* `Scanner.Beside`: two scanners of the same text, each behind a text of its own.
-/

namespace StreamEditor

namespace Cursor

variable {before : Text} {c : Cursor}

/-- The cursor in the text that `before` precedes. -/
def preceded (before : Text) (c : Cursor) : Cursor := ⟨c.passed ++ before.reverse, c.ahead⟩

lemma position_preceded : (c.preceded before).position = c.position + before.length := by
  simp [preceded, position]

lemma advance_preceded : (c.preceded before).advance = c.advance.preceded before := by
  obtain ⟨passed, _ | ⟨d, ahead⟩⟩ := c <;> rfl

lemma takeWhile_preceded (p : Char → Bool) :
    (c.preceded before).takeWhile p = ((c.takeWhile p).1, (c.takeWhile p).2.preceded before) := by
  simp [preceded, takeWhile]

lemma skipBlanks_preceded : (c.preceded before).skipBlanks = c.skipBlanks.preceded before := by
  rw [skipBlanks, takeWhile_preceded, skipBlanks]

lemma readUntil_preceded (stop : Char → Bool) :
    readUntil stop (c.preceded before).passed (c.preceded before).ahead =
      ((readUntil stop c.passed c.ahead).1, (readUntil stop c.passed c.ahead).2.1,
        (readUntil stop c.passed c.ahead).2.2.preceded before) := by
  have h := @readUntil_amid stop c.passed c.ahead before.reverse [] (.inl rfl)
  simpa [preceded] using h

/-- Behind a text that ends otherwise nothing is escaped that was not. -/
lemma previous_preceded (h : before.getLast? ≠ some '\\') :
    (c.preceded before).previous = some '\\' ↔ c.previous = some '\\' := by
  rw [← List.head?_reverse] at h
  rw [preceded, previous, previous]
  cases c.passed with
  | nil => simpa using h
  | cons d passed => simp

end Cursor

namespace Scanner

open Token (Kind)

variable {before : Text} {s : Scanner}

/-- The scanner in the text that `before` precedes. -/
def preceded (before : Text) (s : Scanner) : Scanner :=
  { s with cursor := s.cursor.preceded before, tokenStart := s.tokenStart + before.length }

/-- A token and the scanner behind it, in the text that `before` precedes. -/
def precededBy (before : Text) (r : Token × Scanner) : Token × Scanner :=
  (r.1, r.2.preceded before)

lemma peek_preceded : (s.preceded before).cursor.peek = s.cursor.peek := rfl

lemma peekNext_preceded : (s.preceded before).cursor.peekNext = s.cursor.peekNext := rfl

/-- Where both sides take the same branch. -/
lemma ite_preceded {c : Prop} [Decidable c] {r₁ r₂ r₁' r₂' : Token × Scanner}
    (h₁ : r₁' = precededBy before r₁) (h₂ : r₂' = precededBy before r₂) :
    (if c then r₁' else r₂') = precededBy before (if c then r₁ else r₂) := by
  rw [h₁, h₂, apply_ite (precededBy before)]

lemma markStart_preceded : (s.preceded before).markStart = s.markStart.preceded before := by
  simp only [markStart, preceded, Cursor.position_preceded]

lemma beginToken_preceded : (s.preceded before).beginToken = s.beginToken.preceded before := by
  simp only [beginToken, markStart, preceded, Cursor.skipBlanks_preceded, Cursor.position_preceded]

lemma single_preceded (kind : Kind) (c : Char) :
    (s.preceded before).single kind c = precededBy before (s.single kind c) := by
  simp only [single, preceded, precededBy, Cursor.advance_preceded]

lemma run_preceded (kind : Kind) (p : Char → Bool) :
    (s.preceded before).run kind p = precededBy before (s.run kind p) := by
  simp only [run, preceded, precededBy, Cursor.takeWhile_preceded]

lemma comment_preceded : (s.preceded before).comment = precededBy before s.comment := by
  simp only [comment, forgetAddresses, preceded, precededBy, Cursor.takeWhile_preceded,
    Cursor.advance_preceded]

lemma field_preceded (kind : Kind) (delimiter : Char) :
    (s.preceded before).field kind delimiter =
      ((s.field kind delimiter).1, (s.field kind delimiter).2.preceded before) := by
  have hread := @Cursor.readUntil_preceded before s.cursor (· = delimiter)
  rcases hr : Cursor.readUntil (· = delimiter) s.cursor.passed s.cursor.ahead with
    ⟨text, found, cursor⟩
  rw [hr] at hread
  simp only [field, preceded, hread, hr]
  cases found with
  | false => rfl
  | true => simp only [if_true, Cursor.advance_preceded]

lemma pattern_preceded (delimiter : Char) :
    (s.preceded before).pattern delimiter = precededBy before (s.pattern delimiter) := by
  have hfield := @field_preceded before
    { s with cursor := s.cursor.advance, addresses := s.addresses + 1 } .slash delimiter
  simp only [pattern, preceded, precededBy, Cursor.advance_preceded] at hfield ⊢
  rw [hfield]

lemma pastFields_preceded (delimiter : Char) (after : Mode) :
    (s.preceded before).pastFields delimiter after =
      (s.pastFields delimiter after).preceded before := by
  rw [pastFields, pastFields, field_preceded]
  dsimp only
  cases (s.field .delimiter delimiter).1 with
  | false => rfl
  | true =>
      simp only [if_true, field_preceded]
      split <;> rfl

lemma fields_preceded (after : Mode) :
    (s.preceded before).fields after = precededBy before (s.fields after) := by
  cases hpeek : s.cursor.peek with
  | none =>
      rw [fields_of_peek_none hpeek, fields_of_peek_none (s := s.preceded before) hpeek,
        markStart_preceded]
      rfl
  | some delimiter =>
      by_cases hd : delimiter = '\n' ∨ delimiter = '\\'
      · rw [fields_of_illegal hpeek hd, fields_of_illegal (s := s.preceded before) hpeek hd,
          markStart_preceded]
        exact single_preceded (s := { s.markStart with mode := .ending }) _ _
      · rw [fields_of_peek hpeek hd, fields_of_peek (s := s.preceded before) hpeek hd]
        have hbehind : (s.preceded before).behindDelimiter = s.behindDelimiter.preceded before := by
          simp only [behindDelimiter, markStart, preceded, Cursor.advance_preceded,
            Cursor.position_preceded]
        rw [hbehind, pastFields_preceded]
        rfl

/-! ### The modes -/

lemma ending_preceded : (s.preceded before).ending = precededBy before s.ending := by
  rw [ending, ending, beginToken_preceded]
  generalize s.beginToken = s
  dsimp only
  rw [peek_preceded]
  split
  · rfl
  · exact single_preceded (s := { s.forgetAddresses with mode := .command }) _ _
  · exact single_preceded (s := { s.forgetAddresses with mode := .command }) _ _
  · exact single_preceded _ _
  · exact comment_preceded
  · exact single_preceded _ _

lemma flags_preceded : (s.preceded before).flags = precededBy before s.flags := by
  rw [flags, flags, beginToken_preceded]
  generalize s.beginToken = s
  rw [peek_preceded]
  split
  · rfl
  · exact single_preceded (s := { s with mode := .fileName }) _ _
  · split
    · exact single_preceded _ _
    split
    · exact run_preceded _ _
    split
    · exact ending_preceded (s := { s with mode := .ending })
    · exact single_preceded _ _

lemma wordOrEnding_preceded (p : Char → Bool) :
    (s.preceded before).wordOrEnding p = precededBy before (s.wordOrEnding p) := by
  have hrun := @run_preceded before { s.beginToken with mode := .ending } .word p
  rw [wordOrEnding, wordOrEnding, beginToken_preceded]
  have hrun' : ({ s.beginToken.preceded before with mode := .ending } : Scanner).run .word p = _ :=
    hrun
  simp only [hrun', precededBy]
  split
  · exact ending_preceded
  · rfl

lemma numberOrEnding_preceded :
    (s.preceded before).numberOrEnding = precededBy before s.numberOrEnding := by
  have hrun := @run_preceded before { s.beginToken with mode := .ending } .number
    Char.isDigit
  rw [numberOrEnding, numberOrEnding, beginToken_preceded]
  have hrun' : ({ s.beginToken.preceded before with mode := .ending } : Scanner).run .number
    Char.isDigit = _ := hrun
  simp only [hrun', precededBy]
  split
  · exact ending_preceded
  · rfl

lemma textStart_preceded (h : before.getLast? ≠ some '\\') :
    (s.preceded before).textStart = s.textStart.preceded before := by
  have hprevious : (s.preceded before).cursor.previous = some '\\' ↔
      s.cursor.previous = some '\\' := Cursor.previous_preceded h
  have hadvance : (s.preceded before).cursor.advance = s.cursor.advance.preceded before :=
    Cursor.advance_preceded
  simp only [textStart, hprevious, peek_preceded, hadvance]
  exact (apply_ite (Cursor.preceded before) _ _ _).symm

lemma textBody_preceded (h : before.getLast? ≠ some '\\') :
    (s.preceded before).textBody = precededBy before s.textBody := by
  rw [textBody_eq, textBody_eq, textStart_preceded h, Cursor.readUntil_preceded,
    Cursor.position_preceded]
  rfl

lemma text_preceded (h : before.getLast? ≠ some '\\') :
    (s.preceded before).text = precededBy before s.text := by
  rw [text, text, beginToken_preceded]
  generalize s.beginToken = s
  rw [peek_preceded]
  split
  · exact single_preceded (s := { s with mode := .textBody }) _ _
  · exact textBody_preceded h

lemma command_preceded : (s.preceded before).command = precededBy before s.command := by
  have hbegin : ({ s.preceded before with afterPattern := false } : Scanner).beginToken =
      ({ s with afterPattern := false } : Scanner).beginToken.preceded before :=
    beginToken_preceded (s := { s with afterPattern := false })
  rw [command, command]
  dsimp only
  rw [hbegin]
  generalize ({ s with afterPattern := false } : Scanner).beginToken = s₁
  rw [peek_preceded]
  split
  case h_1 => rfl
  case h_2 => exact single_preceded (s := s₁.forgetAddresses) _ _
  case h_3 => exact single_preceded (s := s₁.forgetAddresses) _ _
  case h_4 => exact comment_preceded
  case h_5 => exact single_preceded (s := s₁.forgetAddresses) _ _
  case h_6 => exact single_preceded (s := { s₁.forgetAddresses with mode := .ending }) _ _
  case h_7 => exact single_preceded _ _
  case h_8 => exact single_preceded (s := { s₁.forgetAddresses with mode := .label }) _ _
  case h_9 =>
    refine ite_preceded ?_ ?_
    · exact single_preceded _ _
    · exact single_preceded _ _
  case h_10 => exact single_preceded (s := { s₁ with addresses := s₁.addresses + 1 }) _ _
  case h_11 => exact pattern_preceded _
  case h_12 =>
    rw [peekNext_preceded]
    split
    case h_4 delimiter _ _ _ =>
      have hadvance : ({ s₁.preceded before with cursor := (s₁.preceded before).cursor.advance } :
          Scanner) = ({ s₁ with cursor := s₁.cursor.advance } : Scanner).preceded before := by
        simp only [preceded, Cursor.advance_preceded]
      rw [hadvance]
      exact pattern_preceded delimiter
    all_goals exact single_preceded _ _
  case h_13 c _ _ _ _ _ _ _ _ _ _ _ _ =>
    have hrun (addresses : ℕ) :
        ({ s₁.preceded before with addresses } : Scanner).run .number Char.isDigit =
          precededBy before (({ s₁ with addresses } : Scanner).run .number Char.isDigit) :=
      run_preceded (s := { s₁ with addresses }) _ _
    refine ite_preceded ?_ (ite_preceded ?_ (ite_preceded ?_ (ite_preceded ?_
      (ite_preceded ?_ ?_))))
    · exact hrun _
    · exact single_preceded _ _
    · exact single_preceded _ _
    · exact single_preceded (s := { s₁ with afterPattern := true }) _ _
    · exact single_preceded (s := { s₁.forgetAddresses with mode := .afterCommand c }) _ _
    · exact single_preceded _ _

lemma scan_preceded (h : before.getLast? ≠ some '\\') :
    (s.preceded before).scan = precededBy before s.scan := by
  have hmode : (s.preceded before).mode = s.mode := rfl
  rw [scan, scan, hmode]
  cases s.mode with
  | command => exact command_preceded
  | substitution | transliteration => exact fields_preceded _
  | flags => exact flags_preceded
  | fileName | label => exact wordOrEnding_preceded _
  | text => exact text_preceded h
  | textBody => exact textBody_preceded h
  | number => exact numberOrEnding_preceded
  | ending => exact ending_preceded

/-- The next token is the same behind another text. -/
lemma next_preceded (h : before.getLast? ≠ some '\\') :
    (s.preceded before).next = precededBy before s.next := by
  cases hpending : s.pending with
  | nil =>
      rw [next_of_pending_nil hpending, next_of_pending_nil (s := s.preceded before) hpending,
        scan_preceded h]
      rfl
  | cons t rest =>
      have hwaiting : (s.preceded before).pending = t :: rest := hpending
      rw [next, next, hpending, hwaiting]
      rfl

/-! ### The same text behind different ones -/

/-- Two scanners of the same text, each behind a text of its own. -/
inductive Beside : Scanner → Scanner → Prop
  | intro (s : Scanner) {before before' : Text} (h : before.getLast? ≠ some '\\')
      (h' : before'.getLast? ≠ some '\\') : Beside (s.preceded before) (s.preceded before')

namespace Beside

variable {s' : Scanner}

lemma next (h : Beside s s') : s'.next.1 = s.next.1 ∧ Beside s.next.2 s'.next.2 := by
  cases h with
  | intro s h h' =>
      rw [next_preceded h, next_preceded h']
      exact ⟨rfl, .intro _ h h'⟩

lemma ending (h : Beside s s') : Beside { s with mode := .ending } { s' with mode := .ending } := by
  cases h with
  | intro s h h' => exact .intro { s with mode := .ending } h h'

lemma bound (h : Beside s s') : s'.bound = s.bound := by
  cases h
  rfl

end Beside

/-- Where a token begins anew it makes no difference where the last one began. -/
lemma next_restarted (hmode : s.mode = .flags ∨ s.mode = .command) (hpending : s.pending = [])
    (tokenStart : ℕ) : next { s with tokenStart } = s.next := by
  rw [next_of_pending_nil hpending, next_of_pending_nil (s := { s with tokenStart }) hpending]
  obtain ⟨cursor, mode, pending, addresses, previous, afterPattern, begun⟩ := s
  obtain rfl | rfl : mode = .flags ∨ mode = .command := hmode
  · rfl
  · rfl

/-- Scanners that are ready for the same text are beside each other from the next token on. -/
lemma beside_next {cursor : Cursor} (hmode : s.mode = .flags ∨ s.mode = .command)
    (hpending : s.pending = []) (hahead : cursor.ahead = s.cursor.ahead)
    (h : s.cursor.previous ≠ some '\\') (h' : cursor.previous ≠ some '\\') (tokenStart : ℕ) :
    (next { s with cursor, tokenStart }).1 = s.next.1 ∧
      Beside s.next.2 (next { s with cursor, tokenStart }).2 := by
  let core : Scanner := { s with cursor := ⟨[], s.cursor.ahead⟩, tokenStart := 0 }
  have hnext (c : Cursor) (hc : c.ahead = s.cursor.ahead) (hlast : c.previous ≠ some '\\') (k : ℕ) :
      next { s with cursor := c, tokenStart := k } = precededBy c.passed.reverse core.next := by
    have hpreceded : ({ s with cursor := c, tokenStart := k } : Scanner) =
        { core.preceded c.passed.reverse with tokenStart := k } := by
      obtain ⟨passed, ahead⟩ := c
      obtain rfl : ahead = _ := hc
      simp [core, preceded, Cursor.preceded]
    rw [hpreceded, next_restarted (s := core.preceded c.passed.reverse) hmode hpending,
      next_preceded]
    rwa [List.getLast?_reverse]
  have hlast (c : Cursor) (hc : c.previous ≠ some '\\') :
      c.passed.reverse.getLast? ≠ some '\\' := by
    rwa [List.getLast?_reverse]
  have hs : s.next = precededBy s.cursor.passed.reverse core.next :=
    hnext s.cursor rfl h s.tokenStart
  rw [hs, hnext cursor hahead h' tokenStart]
  exact ⟨rfl, .intro _ (hlast _ h) (hlast _ h')⟩

end Scanner

end StreamEditor
