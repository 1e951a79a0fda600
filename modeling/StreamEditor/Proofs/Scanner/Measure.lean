import Mathlib.Tactic
import StreamEditor.Scanner

/-!
Every token uses up some of the script.

* `Scanner.size`: what is left for a scanner, in characters, waiting tokens and modes.
* `Scanner.Shrinks`: a token leaves less behind, unless it is the end of the script.
* `Scanner.shrinks_next`: so it is for every token.
-/

namespace StreamEditor

namespace Cursor

lemma readUntil_cons {c : Char} (hc : c ≠ '\\') (stop : Char → Bool) (passed rest : Text) :
    readUntil stop passed (c :: rest) =
      if stop c then ([], true, ⟨passed, c :: rest⟩)
      else
        let (text, found, after) := readUntil stop (c :: passed) rest
        (c :: text, found, after) := by
  rw [readUntil]
  · exact fun h => absurd h hc
  · exact fun _ _ h => absurd h hc

/-- What reading takes apart as one character is no backslash. -/
lemma ne_backslash {c : Char} {rest : Text} (hone : c = '\\' → rest = [] → False)
    (hpair : ∀ next rest', c = '\\' → rest = next :: rest' → False) : c ≠ '\\' := by
  rintro rfl
  cases rest with
  | nil => exact hone rfl rfl
  | cons next rest => exact hpair next rest rfl rfl

lemma length_readUntil (stop : Char → Bool) (passed ahead : Text) :
    (readUntil stop passed ahead).1.length + (readUntil stop passed ahead).2.2.ahead.length ≤
      ahead.length := by
  fun_induction readUntil stop passed ahead with
  | case1 | case2 => simp
  | case5 passed c rest hone hpair hstop => simp
  | case3 _ _ _ _ _ _ hread _ ih | case4 _ _ _ _ _ _ hread _ ih
  | case6 _ _ _ _ _ _ _ _ _ hread ih =>
      rw [hread] at ih
      simp only [List.length_cons] at ih ⊢
      omega

/-- Where reading finds what it looks for, this is ahead. -/
lemma ahead_readUntil {stop : Char → Bool} {passed ahead : Text}
    (h : (readUntil stop passed ahead).2.1 = true) :
    ∃ c rest, (readUntil stop passed ahead).2.2.ahead = c :: rest ∧ stop c = true := by
  fun_induction readUntil stop passed ahead with
  | case1 | case2 => cases h
  | case5 passed c rest hone hpair hstop => exact ⟨c, rest, rfl, hstop⟩
  | case3 _ _ _ _ _ _ hread _ ih | case4 _ _ _ _ _ _ hread _ ih
  | case6 _ _ _ _ _ _ _ _ _ hread ih =>
      rw [hread] at ih
      exact ih h

lemma length_advance (c : Cursor) : c.advance.ahead.length = c.ahead.length - 1 := by
  obtain ⟨passed, ahead⟩ := c
  cases ahead <;> rfl

lemma peek_advance (c : Cursor) : c.advance.peek = c.peekNext := by
  obtain ⟨passed, ahead⟩ := c
  cases ahead <;> rfl

lemma length_takeWhile (p : Char → Bool) (c : Cursor) :
    (c.takeWhile p).1.length + (c.takeWhile p).2.ahead.length = c.ahead.length := by
  rw [takeWhile, ← List.length_append, List.takeWhile_append_dropWhile]

lemma length_skipBlanks (c : Cursor) : c.skipBlanks.ahead.length ≤ c.ahead.length :=
  (Nat.le_add_left _ _).trans (length_takeWhile isBlank c).le

/-- Something is ahead where a character can be seen. -/
lemma length_pos_of_peek {c : Cursor} {x : Char} (h : c.peek = some x) : 0 < c.ahead.length := by
  rw [List.length_pos_iff]
  rintro hnil
  rw [peek, hnil] at h
  cases h

end Cursor

namespace Scanner

/-- The modes in which a text may be read without passing a character. -/
def Mode.readsText (mode : Mode) : Bool := mode = .text || mode = .textBody

/-- What is left for a scanner. -/
def size (s : Scanner) : ℕ :=
  2 * s.cursor.ahead.length + s.pending.length + s.mode.readsText.toNat

/-- After the token less is left than `n`, or as much if the token is the end of the script. -/
structure Shrinks (n : ℕ) (r : Token × Scanner) : Prop where
  le : r.2.size ≤ n
  lt : r.1.kind ≠ .eof → r.2.size < n

section Shrinks

variable {n : ℕ} {s : Scanner}

lemma Shrinks.mono {m : ℕ} {r : Token × Scanner} (h : Shrinks m r) (hmn : m ≤ n) : Shrinks n r :=
  ⟨h.le.trans hmn, fun hr => (h.lt hr).trans_le hmn⟩

lemma Shrinks.of_lt {r : Token × Scanner} (h : r.2.size < n) : Shrinks n r := ⟨h.le, fun _ => h⟩

lemma shrinks_end (h : s.size ≤ n) : Shrinks n (.endOfScript, s) := ⟨h, fun hne => absurd rfl hne⟩

lemma size_beginToken (s : Scanner) : s.beginToken.size ≤ s.size := by
  have h := Cursor.length_skipBlanks s.cursor
  simp only [beginToken, markStart, size]
  omega

/-- A single character that is passed weighs more than a mode. -/
lemma shrinks_single {c x : Char} (kind : Token.Kind) (hpeek : s.cursor.peek = some x)
    (hn : 2 * s.cursor.ahead.length + s.pending.length + s.mode.readsText.toNat < n + 2) :
    Shrinks n (s.single kind c) := by
  have hpos := Cursor.length_pos_of_peek hpeek
  refine .of_lt ?_
  simp only [single, size, Cursor.length_advance]
  omega

/-- A character that is passed weighs more than any mode after it. -/
lemma shrinks_single_of_eq {s₁ s₂ : Scanner} {kind : Token.Kind} {c x : Char}
    (hs : 2 * s₁.cursor.ahead.length + s₁.pending.length ≤ n) (hpeek : s₂.cursor.peek = some x)
    (hcursor : s₂.cursor = s₁.cursor) (hpending : s₂.pending = s₁.pending) :
    Shrinks n (s₂.single kind c) := by
  refine shrinks_single kind hpeek ?_
  have hbit := Bool.toNat_le s₂.mode.readsText
  rw [hcursor, hpending]
  omega

/-- What a scanner that begins a token has left, the mode set aside. -/
lemma weight_beginToken (s : Scanner) :
    2 * s.beginToken.cursor.ahead.length + s.beginToken.pending.length ≤ s.size :=
  (Nat.le_add_right _ _).trans (size_beginToken s)

/-- A run of characters leaves less behind, if there are any. -/
lemma shrinks_run {kind : Token.Kind} {p : Char → Bool} (hne : (s.run kind p).1.literal ≠ [])
    (hn : 2 * s.cursor.ahead.length + s.pending.length + s.mode.readsText.toNat < n + 2) :
    Shrinks n (s.run kind p) := by
  have htaken : 0 < (s.cursor.takeWhile p).1.length := List.length_pos_iff.2 hne
  have hall := Cursor.length_takeWhile p s.cursor
  refine .of_lt ?_
  simp only [run, size]
  omega

lemma taken_ne_nil {kind : Token.Kind} {p : Char → Bool} {c : Char}
    (hpeek : s.cursor.peek = some c) (hc : p c = true) : (s.run kind p).1.literal ≠ [] := by
  obtain ⟨rest, hahead⟩ := List.head?_eq_some_iff.1 hpeek
  simp only [run, Cursor.takeWhile, hahead]
  rw [List.takeWhile_cons_of_pos hc]
  exact List.cons_ne_nil _ _

lemma shrinks_comment (hpeek : s.cursor.peek ≠ none) : Shrinks s.size s.comment := by
  obtain ⟨x, hx⟩ := Option.ne_none_iff_exists'.1 hpeek
  have hpos := Cursor.length_pos_of_peek hx
  have hall := Cursor.length_takeWhile (· ≠ '\n') s.cursor
  refine .of_lt ?_
  simp only [comment, size, forgetAddresses, Cursor.length_advance, Mode.readsText]
  simp only [reduceCtorEq, decide_false, Bool.or_self, Bool.toNat_false]
  rcases hw : (s.cursor.takeWhile (· ≠ '\n')).1 with _ | ⟨y, ys⟩ <;> rw [hw] at hall <;>
    simp only [List.length_nil, List.length_cons] at hall <;> omega

/-- A field leaves no more tokens than the characters it passed. -/
lemma length_field (s : Scanner) (kind : Token.Kind) (delimiter : Char) :
    2 * (s.field kind delimiter).2.cursor.ahead.length +
        (s.field kind delimiter).2.pending.length ≤
      2 * s.cursor.ahead.length + s.pending.length := by
  have hall := Cursor.length_readUntil (· = delimiter) s.cursor.passed s.cursor.ahead
  have hahead (h : (Cursor.readUntil (· = delimiter) s.cursor.passed s.cursor.ahead).2.1 = true) :=
    Cursor.ahead_readUntil h
  rw [field]
  rcases hread : Cursor.readUntil (· = delimiter) s.cursor.passed s.cursor.ahead with
    ⟨text, found, cursor⟩
  rw [hread] at hall hahead
  dsimp only at hall hahead ⊢
  have htexts : (if text.isEmpty then [] else [(⟨.text, text⟩ : Token)]).length ≤ text.length := by
    cases text <;> simp
  cases found with
  | false =>
      simp only [Bool.false_eq_true, if_false, List.append_nil, List.length_append]
      omega
  | true =>
      obtain ⟨c, rest, hrest, -⟩ := hahead rfl
      simp only [if_true, List.length_append, Cursor.length_advance, List.length_singleton]
      rw [hrest, List.length_cons] at hall ⊢
      omega

lemma mode_field (s : Scanner) (kind : Token.Kind) (delimiter : Char) :
    (s.field kind delimiter).2.mode = s.mode := rfl

lemma shrinks_pattern {x : Char} (hpeek : s.cursor.peek = some x) (delimiter : Char) :
    Shrinks s.size (s.pattern delimiter) := by
  have hpos := Cursor.length_pos_of_peek hpeek
  have hfield := length_field
    { s with cursor := s.cursor.advance, addresses := s.addresses + 1 } .slash delimiter
  dsimp only at hfield
  rw [Cursor.length_advance] at hfield
  refine .of_lt ?_
  simp only [pattern, size, mode_field]
  omega

/-- The scanner behind the first delimiter of some fields. -/
def behindDelimiter (s : Scanner) : Scanner :=
  { s.markStart with cursor := s.cursor.advance, mode := .ending }

/-- The scanner after two fields, or after the script if they are not closed. -/
def pastFields (s : Scanner) (delimiter : Char) (after : Mode) : Scanner :=
  let (first, s) := s.field .delimiter delimiter
  let (second, s) := if first then s.field .delimiter delimiter else (false, s)
  if second then { s with mode := after } else s

lemma fields_of_peek_none (h : s.cursor.peek = none) (after : Mode) :
    s.fields after = (.endOfScript, { s.markStart with mode := .ending }) := by
  rw [fields]
  dsimp only [markStart]
  rw [h]

lemma fields_of_illegal {delimiter : Char} (h : s.cursor.peek = some delimiter)
    (hd : delimiter = '\n' ∨ delimiter = '\\') (after : Mode) :
    s.fields after = { s.markStart with mode := .ending }.single .illegal delimiter := by
  rw [fields]
  dsimp only [markStart]
  rw [h]
  dsimp only
  rw [if_pos (by simpa using hd)]

lemma fields_of_peek {delimiter : Char} (h : s.cursor.peek = some delimiter)
    (hd : ¬(delimiter = '\n' ∨ delimiter = '\\')) (after : Mode) :
    s.fields after =
      (⟨.delimiter, [delimiter]⟩, s.behindDelimiter.pastFields delimiter after) := by
  rw [fields]
  dsimp only [markStart]
  rw [h]
  dsimp only
  rw [if_neg (by simpa using hd)]
  rfl

lemma shrinks_fields {after : Mode} (hafter : after.readsText = false)
    (hmode : s.mode.readsText = false) : Shrinks s.size (s.fields after) := by
  cases hpeek : s.cursor.peek with
  | none =>
      rw [fields_of_peek_none hpeek]
      refine shrinks_end ?_
      simp [size, markStart, Mode.readsText]
  | some delimiter =>
      have hpos := Cursor.length_pos_of_peek hpeek
      by_cases hd : delimiter = '\n' ∨ delimiter = '\\'
      · rw [fields_of_illegal hpeek hd]
        refine shrinks_single _ hpeek ?_
        simp only [size, markStart, hmode]
        exact Nat.lt_add_of_pos_right Nat.two_pos
      · have hadvance := Cursor.length_advance s.cursor
        have hfirst := length_field s.behindDelimiter .delimiter delimiter
        have hsecond := length_field (s.behindDelimiter.field .delimiter delimiter).2
          .delimiter delimiter
        have hpending : s.behindDelimiter.pending = s.pending := rfl
        have hcursor : s.behindDelimiter.cursor = s.cursor.advance := rfl
        have hending : Mode.readsText .ending = false := rfl
        have hbehind : s.behindDelimiter.mode = .ending := rfl
        rw [fields_of_peek hpeek hd]
        rw [hcursor, hpending] at hfirst
        refine .of_lt ?_
        simp only [pastFields]
        split <;> split <;>
          simp only [size, mode_field, hafter, hmode, hending, hbehind, Bool.toNat_false] <;> omega

/-! ### The modes -/

lemma shrinks_ending : Shrinks s.size s.ending := by
  rw [ending]
  dsimp only
  split
  case h_1 => exact shrinks_end (size_beginToken s)
  case h_2 hpeek | h_3 hpeek | h_4 hpeek | h_6 hpeek =>
    exact shrinks_single_of_eq (weight_beginToken s) hpeek rfl rfl
  case h_5 hpeek => exact (shrinks_comment (by rw [hpeek]; simp)).mono (size_beginToken s)

/-- A mode without text weighs nothing. -/
lemma size_mode_le {mode : Mode} (hmode : mode.readsText = false) (s : Scanner) :
    ({ s with mode } : Scanner).size ≤ s.size := by
  simp only [size, hmode, Bool.toNat_false]
  omega

lemma shrinks_flags : Shrinks s.size s.flags := by
  have hbegin := size_beginToken s
  rw [flags]
  split
  · exact shrinks_end hbegin
  · rename_i hpeek
    exact shrinks_single_of_eq (weight_beginToken s) hpeek rfl rfl
  · rename_i c _ hpeek
    split
    · exact (shrinks_single _ hpeek (Nat.lt_add_of_pos_right Nat.two_pos)).mono hbegin
    · split
      · rename_i hdigit
        refine (shrinks_run ?_ (Nat.lt_add_of_pos_right Nat.two_pos)).mono hbegin
        exact taken_ne_nil hpeek hdigit
      · split
        · exact shrinks_ending.mono ((size_mode_le rfl _).trans hbegin)
        · exact (shrinks_single _ hpeek (Nat.lt_add_of_pos_right Nat.two_pos)).mono hbegin

lemma shrinks_wordOrEnding (p : Char → Bool) : Shrinks s.size (s.wordOrEnding p) := by
  have hbegin : ({ s.beginToken with mode := .ending } : Scanner).size ≤ s.size :=
    (size_mode_le rfl _).trans (size_beginToken s)
  rw [wordOrEnding]
  dsimp only
  split
  · rename_i hnone
    have hsame : (({ s.beginToken with mode := .ending } : Scanner).run .word p).2.size ≤
        s.size := by
      refine le_trans ?_ hbegin
      have hall := Cursor.length_takeWhile p s.beginToken.cursor
      simp only [run, size]
      omega
    exact shrinks_ending.mono hsame
  · rename_i hsome
    refine (shrinks_run (by simpa using hsome) (Nat.lt_add_of_pos_right Nat.two_pos)).mono hbegin

lemma shrinks_numberOrEnding : Shrinks s.size s.numberOrEnding := by
  have hbegin : ({ s.beginToken with mode := .ending } : Scanner).size ≤ s.size :=
    (size_mode_le rfl _).trans (size_beginToken s)
  rw [numberOrEnding]
  dsimp only
  split
  · rename_i hnone
    have hsame : (({ s.beginToken with mode := .ending } : Scanner).run .number
        Char.isDigit).2.size ≤ s.size := by
      refine le_trans ?_ hbegin
      have hall := Cursor.length_takeWhile Char.isDigit s.beginToken.cursor
      simp only [run, size]
      omega
    exact shrinks_ending.mono hsame
  · rename_i hsome
    refine (shrinks_run (by simpa using hsome) (Nat.lt_add_of_pos_right Nat.two_pos)).mono hbegin

/-- Where text begins: the newline after its backslash is passed. -/
def textStart (s : Scanner) : Cursor :=
  if s.cursor.previous = some '\\' && s.cursor.peek = some '\n' then s.cursor.advance
  else s.cursor

lemma textBody_eq (s : Scanner) :
    s.textBody =
      (⟨.text, (Cursor.readUntil (· = '\n') s.textStart.passed s.textStart.ahead).1⟩,
        { s with
          cursor := (Cursor.readUntil (· = '\n') s.textStart.passed s.textStart.ahead).2.2
          mode := .ending
          tokenStart := s.textStart.position }) := rfl

/-- The text may be empty, but its mode is left. -/
lemma shrinks_textBody (hmode : s.mode.readsText = true) : Shrinks s.size s.textBody := by
  have hending : Mode.readsText .ending = false := rfl
  have hstart : s.textStart.ahead.length ≤ s.cursor.ahead.length := by
    rw [textStart]
    split
    · rw [Cursor.length_advance]
      exact Nat.sub_le _ _
    · exact le_rfl
  have hall := Cursor.length_readUntil (· = '\n') s.textStart.passed s.textStart.ahead
  rw [textBody_eq]
  refine .of_lt ?_
  simp only [size, hmode, hending, Bool.toNat_false, Bool.toNat_true]
  omega

lemma shrinks_text (hmode : s.mode.readsText = true) : Shrinks s.size s.text := by
  rw [text]
  split
  · rename_i hpeek
    exact shrinks_single_of_eq (weight_beginToken s) hpeek rfl rfl
  · exact (shrinks_textBody (s := s.beginToken) hmode).mono (size_beginToken s)

lemma shrinks_command : Shrinks s.size s.command := by
  have hbegin : ({ s with afterPattern := false } : Scanner).beginToken.size ≤ s.size :=
    size_beginToken { s with afterPattern := false }
  generalize hs₁ : ({ s with afterPattern := false } : Scanner).beginToken = s₁ at hbegin
  have hweight : 2 * s₁.cursor.ahead.length + s₁.pending.length ≤ s.size :=
    (Nat.le_add_right _ _).trans hbegin
  rw [command]
  simp only [hs₁]
  split
  case h_1 => exact shrinks_end hbegin
  case h_4 hpeek => exact (shrinks_comment (by rw [hpeek]; simp)).mono hbegin
  case h_9 hpeek => split <;> exact shrinks_single_of_eq hweight hpeek rfl rfl
  case h_11 hpeek => exact (shrinks_pattern hpeek '/').mono hbegin
  -- The delimiter behind a backslash is passed as well.
  case h_12 hpeek =>
    split
    case h_4 delimiter _ _ hnext =>
      have hadvance := Cursor.length_advance s₁.cursor
      refine (shrinks_pattern (s := { s₁ with cursor := s₁.cursor.advance })
        (x := delimiter) ?_ delimiter).mono (le_trans ?_ hbegin)
      · rw [Cursor.peek_advance, hnext]
      · simp only [size]
        omega
    all_goals exact shrinks_single_of_eq hweight hpeek rfl rfl
  case h_13 c _ _ _ _ _ _ _ _ _ _ _ hpeek =>
    split
    case isTrue hdigit =>
      refine (shrinks_run ?_ (Nat.lt_add_of_pos_right Nat.two_pos)).mono hbegin
      exact taken_ne_nil hpeek hdigit
    repeat' split
    all_goals exact shrinks_single_of_eq hweight hpeek rfl rfl
  all_goals
    rename_i hpeek
    exact shrinks_single_of_eq hweight hpeek rfl rfl

lemma shrinks_scan (s : Scanner) : Shrinks s.size s.scan := by
  rw [scan]
  cases hmode : s.mode with
  | command => exact shrinks_command
  | substitution | transliteration => exact shrinks_fields rfl (by rw [hmode]; rfl)
  | flags => exact shrinks_flags
  | fileName | label => exact shrinks_wordOrEnding _
  | text => exact shrinks_text (by rw [hmode]; rfl)
  | textBody => exact shrinks_textBody (by rw [hmode]; rfl)
  | number => exact shrinks_numberOrEnding
  | ending => exact shrinks_ending

/-- Every token but the end of the script uses up some of it. -/
lemma shrinks_next (s : Scanner) : Shrinks s.size s.next := by
  rw [next]
  cases hpending : s.pending with
  | nil =>
      have hscan := s.shrinks_scan
      exact ⟨hscan.le, hscan.lt⟩
  | cons t pending =>
      refine .of_lt ?_
      simp only [size, hpending, List.length_cons]
      omega

end Shrinks

end Scanner

end StreamEditor
