import StreamEditor.Proofs.Parser.Substitution
import StreamEditor.Proofs.Scanner.Measure

/-!
Scanning a part of a longer script.

* `Passage`: a text between others; `Passage.scanner` is a scanner of it in the whole.
* `Passage.Scans`: the tokens of the passage are those of the passage alone, up to the newline that
  ends it; what is opened in it and not closed is lost on both sides.
* `Passage.Inside.next`: so it is for every token that is scanned.
-/

namespace StreamEditor

open Scanner (fieldTokens)

/-- The text ends in a newline that no backslash takes away. -/
structure EndsLine (t : Text) : Prop where
  getLast?_eq : t.getLast? = some '\n'
  unescaped : t.dropLast.getLast? ≠ some '\\'

namespace EndsLine

variable {t : Text} {c d : Char}

lemma ne_nil (h : EndsLine t) : t ≠ [] := by
  rintro rfl
  exact absurd h.getLast?_eq nofun

lemma tail (h : EndsLine (c :: t)) (ht : t ≠ []) : EndsLine t := by
  obtain ⟨d, t, rfl⟩ := List.exists_cons_of_ne_nil ht
  refine ⟨by simpa using h.getLast?_eq, fun hd => h.unescaped ?_⟩
  rw [List.dropLast_cons_of_ne_nil ht]
  cases hdrop : (d :: t).dropLast with
  | nil =>
      rw [hdrop] at hd
      cases hd
  | cons x rest =>
      rw [hdrop] at hd
      rwa [List.getLast?_cons_cons]

/-- Behind an escaped character the text goes on. -/
lemma of_pair (h : EndsLine ('\\' :: d :: t)) : EndsLine t := by
  refine (h.tail (List.cons_ne_nil _ _)).tail ?_
  rintro rfl
  exact h.unescaped rfl

lemma of_append {u : Text} (h : EndsLine (u ++ t)) (ht : t ≠ []) : EndsLine t := by
  induction u with
  | nil => exact h
  | cons c u ih => exact ih (h.tail (List.append_ne_nil_of_right_ne_nil u ht))

end EndsLine

namespace Cursor

/-- Reading within a longer text ends where it ended within the shorter one. -/
lemma readUntil_amid {stop : Char → Bool} {passed ahead : Text} (before : Text) {after : Text}
    (h : after = [] ∨ (readUntil stop passed ahead).2.1 = true) :
    readUntil stop (passed ++ before) (ahead ++ after) =
      ((readUntil stop passed ahead).1, (readUntil stop passed ahead).2.1,
        ⟨(readUntil stop passed ahead).2.2.passed ++ before,
          (readUntil stop passed ahead).2.2.ahead ++ after⟩) := by
  fun_induction readUntil stop passed ahead with
  | case1 passed =>
      obtain rfl | h := h
      · rfl
      · cases h
  -- A backslash at the end of the shorter text would escape the first character behind it.
  | case2 passed =>
      obtain rfl | h := h
      · rfl
      · cases h
  | case3 _ _ _ _ _ _ hread hstop ih | case4 _ _ _ _ _ _ hread hstop ih =>
      rw [hread] at ih
      have ih := ih h
      simp only [List.cons_append] at ih ⊢
      rw [readUntil, ih]
      simp [hstop]
  | case5 passed c rest hone hpair hstop =>
      rw [List.cons_append, readUntil_cons (ne_backslash hone hpair), if_pos hstop]
  | case6 passed c rest hone hpair hstop text found cursor hread ih =>
      rw [hread] at ih
      have ih := ih h
      rw [List.cons_append, readUntil_cons (ne_backslash hone hpair), if_neg hstop]
      rw [List.cons_append] at ih
      rw [ih]

lemma text_readUntil (stop : Char → Bool) (passed ahead : Text) :
    (readUntil stop passed ahead).2.2.text = passed.reverse ++ ahead := by
  fun_induction readUntil stop passed ahead with
  | case1 passed => rfl
  | case2 passed => simp [text]
  | case5 passed c rest hone hpair hstop => rfl
  | case3 _ _ _ _ _ _ hread _ ih | case4 _ _ _ _ _ _ hread _ ih
  | case6 _ _ _ _ _ _ _ _ _ hread ih =>
      rw [hread] at ih
      simpa using ih

lemma passed_readUntil (stop : Char → Bool) (passed ahead : Text) :
    passed.length ≤ (readUntil stop passed ahead).2.2.position := by
  fun_induction readUntil stop passed ahead with
  | case1 passed => exact le_rfl
  | case2 passed => simp [position]
  | case5 passed c rest hone hpair hstop => exact le_rfl
  | case3 _ _ _ _ _ _ hread _ ih | case4 _ _ _ _ _ _ hread _ ih
  | case6 _ _ _ _ _ _ _ _ _ hread ih =>
      rw [hread] at ih
      simp only [List.length_cons] at ih ⊢
      omega

/-- A newline at the end that is not escaped is found, if not one before it. -/
lemma found_newline {ahead : Text} (hahead : EndsLine ahead) (passed : Text) :
    (readUntil (· = '\n') passed ahead).2.1 = true := by
  fun_induction readUntil (· = '\n') passed ahead with
  | case1 passed => exact absurd rfl hahead.ne_nil
  | case2 passed => exact absurd hahead.getLast?_eq (by decide)
  | case3 _ _ _ _ _ _ hread _ ih | case4 _ _ _ _ _ _ hread _ ih =>
      rw [hread] at ih
      exact ih (hahead.of_pair)
  | case5 passed c rest hone hpair hstop => rfl
  | case6 passed c rest hone hpair hstop text found cursor hread ih =>
      rw [hread] at ih
      refine ih (hahead.tail ?_)
      rintro rfl
      exact hstop (by simpa using hahead.getLast?_eq)

/-- Where nothing is found the text is read to its end. -/
lemma ahead_of_not_found {stop : Char → Bool} {passed ahead : Text}
    (h : (readUntil stop passed ahead).2.1 = false) :
    (readUntil stop passed ahead).2.2.ahead = [] := by
  fun_induction readUntil stop passed ahead with
  | case1 | case2 => rfl
  | case5 passed c rest hone hpair hstop => cases h
  | case3 _ _ _ _ _ _ hread _ ih | case4 _ _ _ _ _ _ hread _ ih
  | case6 _ _ _ _ _ _ _ _ _ hread ih =>
      rw [hread] at ih
      exact ih h

end Cursor

namespace Scanner

/-- The kind of the token returned is noted. -/
def noted (r : Token × Scanner) : Token × Scanner := (r.1, { r.2 with previous := some r.1.kind })

lemma next_of_pending_nil {s : Scanner} (h : s.pending = []) : s.next = noted s.scan := by
  rw [next, h]
  rfl

/-- At the beginning of a command it makes no difference whether a line was before. -/
lemma next_newline {s : Scanner} (hmode : s.mode = .command) (hpending : s.pending = [])
    (tokenStart : ℕ) :
    next { s with previous := some .newline, tokenStart } = next { s with previous := none } := by
  rw [next_of_pending_nil (s := { s with previous := some .newline, tokenStart }) hpending,
    next_of_pending_nil (s := { s with previous := none }) hpending]
  simp only [scan, hmode, command, beginToken, markStart, forgetAddresses]
  split
  case h_9 => simp [endsAddress, noted, single]
  case h_12 => split <;> rfl
  case h_13 =>
    simp only [Option.some.injEq, reduceCtorEq, decide_false, Bool.or_self, Bool.and_false,
      Bool.false_eq_true, if_false]
    split
    · rfl
    split
    · rfl
    · split <;> rfl
  all_goals rfl

end Scanner

/-- A text between others. If another one follows it ends in a newline. -/
structure Passage where
  before : Text
  text : Text
  after : Text
  before_ends : before.getLast? ≠ some '\\'
  text_ends : after ≠ [] → EndsLine text

namespace Passage

variable {P : Passage}

/-- A cursor of the passage in the whole. -/
def cursor (P : Passage) (c : Cursor) : Cursor := ⟨c.passed ++ P.before.reverse, c.ahead ++ P.after⟩

/-- A scanner of the passage in the whole. -/
def scanner (P : Passage) (s : Scanner) : Scanner :=
  { s with cursor := P.cursor s.cursor, tokenStart := P.before.length + s.tokenStart }

@[simp] lemma previous_scanner (s : Scanner) : (P.scanner s).previous = s.previous := rfl

@[simp] lemma addresses_scanner (s : Scanner) : (P.scanner s).addresses = s.addresses := rfl

@[simp] lemma afterPattern_scanner (s : Scanner) :
    (P.scanner s).afterPattern = s.afterPattern := rfl

@[simp] lemma mode_scanner (s : Scanner) : (P.scanner s).mode = s.mode := rfl

@[simp] lemma pending_scanner (s : Scanner) : (P.scanner s).pending = s.pending := rfl

/-- The cursor stands in the passage, and before its end if another text follows. -/
structure Holds (P : Passage) (c : Cursor) : Prop where
  text : c.text = P.text
  ahead : P.after = [] ∨ c.ahead ≠ []

section Cursor

variable {c : Cursor}

lemma Holds.endsLine (h : P.Holds c) (ha : P.after ≠ []) : EndsLine c.ahead := by
  have hends := P.text_ends ha
  rw [← h.text] at hends
  exact hends.of_append (h.ahead.resolve_left ha)

lemma position_cursor (c : Cursor) : (P.cursor c).position = P.before.length + c.position := by
  simp [cursor, Cursor.position, Nat.add_comm]

lemma previous_cursor (c : Cursor) :
    (P.cursor c).previous = some '\\' ↔ c.previous = some '\\' := by
  have hlast : P.before.reverse.head? ≠ some '\\' := by
    rw [List.head?_reverse]
    exact P.before_ends
  rw [cursor, Cursor.previous, Cursor.previous]
  cases c.passed with
  | nil => simpa using hlast
  | cons d passed => simp

lemma Holds.peek (h : P.Holds c) : (P.cursor c).peek = c.peek := by
  rw [cursor, Cursor.peek, Cursor.peek]
  obtain hafter | hahead := h.ahead
  · rw [hafter, List.append_nil]
  · exact List.head?_append_of_ne_nil _ hahead

lemma Holds.advance (h : P.Holds c) : (P.cursor c).advance = P.cursor c.advance := by
  obtain ⟨passed, _ | ⟨d, ahead⟩⟩ := c
  · obtain hafter | hahead := h.ahead
    · rw [cursor, hafter]
      simp [Cursor.advance, cursor, hafter]
    · exact absurd rfl hahead
  · rfl

/-- Only the last newline leads out of the passage. -/
lemma Holds.holds_advance (h : P.Holds c) (hc : P.after ≠ [] → c.ahead ≠ ['\n']) :
    P.Holds c.advance := by
  refine ⟨by rw [Cursor.text_advance, h.text], ?_⟩
  by_cases hafter : P.after = []
  · exact .inl hafter
  right
  have hends := h.endsLine hafter
  have hne := hc hafter
  obtain ⟨passed, _ | ⟨d, _ | ⟨e, ahead⟩⟩⟩ := c
  · exact absurd rfl hends.ne_nil
  · have hlast := hends.getLast?_eq
    simp only [List.getLast?_singleton, Option.some.injEq] at hlast
    exact absurd (by rw [hlast]) hne
  · exact List.cons_ne_nil _ _

lemma Holds.holds_advance_of_peek (h : P.Holds c) (hc : c.peek ≠ some '\n') :
    P.Holds c.advance := by
  refine h.holds_advance fun _ hahead => hc ?_
  rw [Cursor.peek, hahead]
  rfl

lemma Holds.peekNext (h : P.Holds c) (hc : c.peek ≠ some '\n') :
    (P.cursor c).peekNext = c.peekNext := by
  rw [← Cursor.peek_advance, h.advance, (h.holds_advance_of_peek hc).peek, Cursor.peek_advance]

/-- A run of characters that are no newlines does not lead out of the passage. -/
lemma Holds.takeWhile (h : P.Holds c) {p : Char → Bool} (hp : p '\n' = false) :
    (P.cursor c).takeWhile p = ((c.takeWhile p).1, P.cursor (c.takeWhile p).2) ∧
      P.Holds (c.takeWhile p).2 := by
  by_cases hafter : P.after = []
  · refine ⟨?_, by rw [Cursor.text_takeWhile, h.text], .inl hafter⟩
    simp [cursor, Cursor.takeWhile, hafter]
  · have hends := h.endsLine hafter
    have hmem : '\n' ∈ c.ahead := List.mem_of_getLast? hends.getLast?_eq
    have hsplit : c.ahead.takeWhile p ++ c.ahead.dropWhile p = c.ahead :=
      List.takeWhile_append_dropWhile
    have hdrop : c.ahead.dropWhile p ≠ [] := by
      intro hnil
      rw [← hsplit, hnil, List.append_nil] at hmem
      have hall := List.all_eq_true.1 List.all_takeWhile _ hmem
      rw [hp] at hall
      cases hall
    refine ⟨?_, by rw [Cursor.text_takeWhile, h.text], .inr hdrop⟩
    have htake : (c.ahead ++ P.after).takeWhile p = c.ahead.takeWhile p := by
      rw [List.takeWhile_append, if_neg]
      intro hlength
      have hlengths := congrArg List.length hsplit
      rw [List.length_append, hlength] at hlengths
      exact hdrop (List.length_eq_zero_iff.1 (by omega))
    have hdrop' : (c.ahead ++ P.after).dropWhile p = c.ahead.dropWhile p ++ P.after := by
      rw [List.dropWhile_append, if_neg (by simpa using hdrop)]
    simp only [cursor, Cursor.takeWhile, htake, hdrop', List.append_assoc]

lemma Holds.skipBlanks (h : P.Holds c) :
    (P.cursor c).skipBlanks = P.cursor c.skipBlanks ∧ P.Holds c.skipBlanks := by
  obtain ⟨heq, hholds⟩ := h.takeWhile (p := isBlank) (by decide)
  refine ⟨?_, hholds⟩
  rw [Cursor.skipBlanks, heq, Cursor.skipBlanks]

end Cursor

/-! ### What a scanner returns -/

/-- The scanner stands in the passage. -/
structure Inside (P : Passage) (s : Scanner) : Prop where
  holds : P.Holds s.cursor
  started : s.tokenStart ≤ s.cursor.position

/-- What a token leaves waiting: what stands between delimiters that it opens, and those. The end of
the script leaves nothing ahead. -/
def Tidy (r : Token × Scanner) : Prop :=
  match r.1.kind with
  | .eof => r.2.pending = [] ∧ r.2.cursor.ahead = []
  | .slash => ∃ pattern delimiter, r.2.pending = fieldTokens pattern ++ [⟨.slash, delimiter⟩]
  | .delimiter => ∃ first second delimiter, r.2.pending =
      fieldTokens first ++ ⟨.delimiter, delimiter⟩ ::
        (fieldTokens second ++ [⟨.delimiter, delimiter⟩])
  | _ => r.2.pending = []

/-- What is opened is not closed before the end of the script, or cannot be opened. -/
inductive Lost (r : Token × Scanner) : Prop
  | illegal (hkind : r.1.kind = .illegal)
  | pattern (pattern : Text) (hkind : r.1.kind = .slash) (hmode : r.2.mode = .command)
      (hahead : r.2.cursor.ahead = []) (hpending : r.2.pending = fieldTokens pattern)
  | first (first : Text) (hkind : r.1.kind = .delimiter) (hmode : r.2.mode = .ending)
      (hahead : r.2.cursor.ahead = []) (hpending : r.2.pending = fieldTokens first)
  | second (first second delimiter : Text) (hkind : r.1.kind = .delimiter)
      (hmode : r.2.mode = .ending) (hahead : r.2.cursor.ahead = [])
      (hpending : r.2.pending =
        fieldTokens first ++ ⟨.delimiter, delimiter⟩ :: fieldTokens second)

/-- The scanner behind the last newline of the passage, which is ready for another command. -/
structure Done (P : Passage) (s : Scanner) : Prop where
  follows : P.after ≠ []
  cursor : s.cursor = ⟨P.text.reverse, []⟩
  mode : s.mode = .command
  pending : s.pending = []
  addresses : s.addresses = 0
  afterPattern : s.afterPattern = false

/-- The token that a scanner returns in the passage alone and in the whole. -/
inductive Scans (P : Passage) (r r' : Token × Scanner) : Prop
  | inside (heq : r' = (r.1, P.scanner r.2)) (hinside : P.Inside r.2) (htidy : Tidy r)
  | done (heq : r' = (r.1, P.scanner r.2)) (hkind : r.1.kind = .newline) (hdone : P.Done r.2)
  | lost (heq : r'.1 = r.1) (hlost : Lost r)

lemma Scans.ite {c : Prop} [Decidable c] {r₁ r₂ r₁' r₂' : Token × Scanner}
    (h₁ : c → P.Scans r₁ r₁') (h₂ : ¬c → P.Scans r₂ r₂') :
    P.Scans (if c then r₁ else r₂) (if c then r₁' else r₂') := by
  split
  · exact h₁ ‹_›
  · exact h₂ ‹_›

section Scanner

variable {s : Scanner}

lemma Inside.beginToken (h : P.Inside s) :
    (P.scanner s).beginToken = P.scanner s.beginToken ∧ P.Inside s.beginToken := by
  obtain ⟨heq, hholds⟩ := h.holds.skipBlanks
  refine ⟨?_, hholds, le_rfl⟩
  simp only [Scanner.beginToken, Scanner.markStart, scanner, heq, position_cursor]

/-- The scanner may be changed in all but its place. -/
lemma Inside.of_cursor {s₁ : Scanner} (h : P.Inside s) (hcursor : s₁.cursor = s.cursor)
    (hstart : s₁.tokenStart = s.tokenStart) : P.Inside s₁ :=
  ⟨by rw [hcursor]; exact h.holds, by rw [hcursor, hstart]; exact h.started⟩

lemma position_advance (c : Cursor) : c.position ≤ c.advance.position := by
  obtain ⟨passed, ahead⟩ := c
  cases ahead with
  | nil => exact le_rfl
  | cons c ahead => exact Nat.le_succ _

/-- Most tokens leave nothing waiting. -/
lemma tidy_of_kind {kind : Token.Kind} {literal : Text} (hpending : s.pending = [])
    (hkind : kind ≠ .eof ∧ kind ≠ .slash ∧ kind ≠ .delimiter) : Tidy (⟨kind, literal⟩, s) := by
  simp only [Tidy]
  split
  · exact absurd rfl hkind.1
  · exact absurd rfl hkind.2.1
  · exact absurd rfl hkind.2.2
  · exact hpending

/-- A single character that is no newline. -/
lemma Inside.single (h : P.Inside s) (hpending : s.pending = []) {kind : Token.Kind} {c : Char}
    (hpeek : s.cursor.peek ≠ some '\n') (hkind : kind ≠ .eof ∧ kind ≠ .slash ∧ kind ≠ .delimiter) :
    P.Scans (s.single kind c) ((P.scanner s).single kind c) := by
  refine .inside ?_ ⟨h.holds.holds_advance_of_peek hpeek, ?_⟩ (tidy_of_kind hpending hkind)
  · simp only [Scanner.single, scanner, h.holds.advance]
  · exact h.started.trans (position_advance _)

/-- Passing a newline may lead out of the passage. -/
lemma Inside.newline (h : P.Inside s) (hmode : s.mode = .command) (hpending : s.pending = [])
    (haddresses : s.addresses = 0) (hpattern : s.afterPattern = false) (literal : Text) :
    P.Scans (⟨.newline, literal⟩, { s with cursor := s.cursor.advance })
      (⟨.newline, literal⟩, { P.scanner s with cursor := (P.scanner s).cursor.advance }) := by
  have heq : ({ P.scanner s with cursor := (P.scanner s).cursor.advance } : Scanner) =
      P.scanner { s with cursor := s.cursor.advance } := by
    simp only [scanner, h.holds.advance]
  by_cases hlast : P.after ≠ [] ∧ s.cursor.ahead = ['\n']
  · obtain ⟨hafter, hahead⟩ := hlast
    refine .done (by rw [heq]) rfl ⟨hafter, ?_, hmode, hpending, haddresses, hpattern⟩
    have htext := h.holds.text
    rcases hcursor : s.cursor with ⟨passed, ahead⟩
    rw [hcursor] at hahead htext
    dsimp only at hahead
    rw [hahead, Cursor.text] at htext
    rw [← htext, hahead, Cursor.advance]
    simp
  · have hholds := h.holds.holds_advance fun hafter hahead => hlast ⟨hafter, hahead⟩
    exact .inside (by rw [heq]) ⟨hholds, h.started.trans (position_advance _)⟩ hpending

lemma Inside.comment (h : P.Inside s) (hpending : s.pending = []) :
    P.Scans s.comment (P.scanner s).comment := by
  obtain ⟨heq, hholds⟩ := h.holds.takeWhile (p := (· ≠ '\n')) (by decide)
  let s₁ : Scanner :=
    { s.forgetAddresses with cursor := (s.cursor.takeWhile (· ≠ '\n')).2, mode := .command }
  have hinside : P.Inside s₁ := by
    refine ⟨hholds, h.started.trans ?_⟩
    simp only [s₁, Cursor.takeWhile, Cursor.position, List.length_append]
    exact Nat.le_add_left _ _
  have hscans := hinside.newline rfl hpending rfl rfl ['#']
  have hwhole : (P.scanner s).comment =
      (⟨.newline, ['#']⟩, { P.scanner s₁ with cursor := (P.scanner s₁).cursor.advance }) := by
    simp only [Scanner.comment, scanner, s₁, heq]
    rfl
  rw [hwhole]
  exact hscans

/-- Characters that are no newlines. -/
lemma Inside.run_eq (h : P.Inside s) (kind : Token.Kind) {p : Char → Bool} (hp : p '\n' = false) :
    (P.scanner s).run kind p = ((s.run kind p).1, P.scanner (s.run kind p).2) ∧
      P.Inside (s.run kind p).2 := by
  obtain ⟨heq, hholds⟩ := h.holds.takeWhile hp
  refine ⟨?_, hholds, h.started.trans ?_⟩
  · simp only [Scanner.run, scanner, heq]
  · simp only [Scanner.run, Cursor.takeWhile, Cursor.position, List.length_append]
    exact Nat.le_add_left _ _

lemma Inside.run (h : P.Inside s) (hpending : s.pending = []) {kind : Token.Kind}
    {p : Char → Bool} (hp : p '\n' = false)
    (hkind : kind ≠ .eof ∧ kind ≠ .slash ∧ kind ≠ .delimiter) :
    P.Scans (s.run kind p) ((P.scanner s).run kind p) := by
  obtain ⟨heq, hinside⟩ := h.run_eq kind hp
  exact .inside heq hinside (tidy_of_kind hpending hkind)

/-! ### Fields -/

/-- A field that is closed in the passage is the same in the whole. -/
lemma field_found {kind : Token.Kind} {delimiter : Char} (h : P.Inside s)
    (hd : delimiter ≠ '\n') (hfound : (s.field kind delimiter).1 = true) :
    (P.scanner s).field kind delimiter = (true, P.scanner (s.field kind delimiter).2) ∧
      P.Inside (s.field kind delimiter).2 ∧ ∃ text, (s.field kind delimiter).2.pending =
        s.pending ++ fieldTokens text ++ [⟨kind, [delimiter]⟩] := by
  have hfound' : (Cursor.readUntil (· = delimiter) s.cursor.passed s.cursor.ahead).2.1 = true :=
    hfound
  have hread := Cursor.readUntil_amid P.before.reverse (.inr hfound' : P.after = [] ∨ _)
  have htext := Cursor.text_readUntil (· = delimiter) s.cursor.passed s.cursor.ahead
  have hposition := Cursor.passed_readUntil (· = delimiter) s.cursor.passed s.cursor.ahead
  obtain ⟨c, rest, hahead, hc⟩ := Cursor.ahead_readUntil hfound'
  rcases hr : Cursor.readUntil (· = delimiter) s.cursor.passed s.cursor.ahead with
    ⟨text, found, cursor⟩
  rw [hr] at hread htext hposition hahead hfound'
  obtain rfl : found = true := hfound'
  dsimp only at hread htext hposition hahead
  have hholds : P.Holds cursor :=
    ⟨by rw [htext, ← h.holds.text]; rfl, .inr (by rw [hahead]; exact List.cons_ne_nil _ _)⟩
  have hpeek : cursor.peek ≠ some '\n' := by
    rw [Cursor.peek, hahead]
    rintro he
    cases he
    exact hd (of_decide_eq_true hc).symm
  have htexts : (if text.isEmpty then [] else [(⟨.text, text⟩ : Token)]) = fieldTokens text := by
    cases text <;> rfl
  refine ⟨?_, ?_, text, ?_⟩
  · have hwhole : Cursor.readUntil (· = delimiter) (P.cursor s.cursor).passed
        (P.cursor s.cursor).ahead = (text, true, P.cursor cursor) := hread
    simp only [Scanner.field, hwhole, hr, scanner, hholds.advance, if_true]
  · simp only [Scanner.field, hr, if_true]
    exact ⟨hholds.holds_advance_of_peek hpeek,
      h.started.trans (hposition.trans (position_advance _))⟩
  · simp only [Scanner.field, hr, if_true, htexts]

/-- A field that is not closed takes in all that is ahead. -/
lemma field_not_found {kind : Token.Kind} {delimiter : Char}
    (h : (s.field kind delimiter).1 = false) :
    (s.field kind delimiter).2.cursor.ahead = [] ∧
      ∃ text, (s.field kind delimiter).2.pending = s.pending ++ fieldTokens text := by
  have h' : (Cursor.readUntil (· = delimiter) s.cursor.passed s.cursor.ahead).2.1 = false := h
  have hahead := Cursor.ahead_of_not_found h'
  rcases hr : Cursor.readUntil (· = delimiter) s.cursor.passed s.cursor.ahead with
    ⟨text, found, cursor⟩
  rw [hr] at hahead h'
  obtain rfl : found = false := h'
  have htexts : (if text.isEmpty then [] else [(⟨.text, text⟩ : Token)]) = fieldTokens text := by
    cases text <;> rfl
  simp only [Scanner.field, hr, Bool.false_eq_true, if_false, List.append_nil, htexts]
  exact ⟨hahead, text, rfl⟩

lemma Inside.pattern (h : P.Inside s) (hmode : s.mode = .command) (hpending : s.pending = [])
    (hpeek : s.cursor.peek ≠ some '\n') {delimiter : Char} (hd : delimiter ≠ '\n') :
    P.Scans (s.pattern delimiter) ((P.scanner s).pattern delimiter) := by
  let opened : Scanner := { s with cursor := s.cursor.advance, addresses := s.addresses + 1 }
  have hopened : P.Inside opened :=
    ⟨h.holds.holds_advance_of_peek hpeek, h.started.trans (position_advance _)⟩
  have hwhole : (P.scanner s).pattern delimiter =
      (⟨.slash, [delimiter]⟩, { ((P.scanner opened).field .slash delimiter).2 with
        afterPattern := ((P.scanner opened).field .slash delimiter).1 }) := by
    simp only [Scanner.pattern, scanner, opened, h.holds.advance]
  have halone : s.pattern delimiter = (⟨.slash, [delimiter]⟩, { (opened.field .slash delimiter).2
      with afterPattern := (opened.field .slash delimiter).1 }) := rfl
  rw [hwhole, halone]
  cases hfound : (opened.field .slash delimiter).1 with
  | true =>
      obtain ⟨heq, hinside, text, htext⟩ := field_found hopened hd hfound
      rw [heq]
      refine .inside rfl (hinside.of_cursor rfl rfl) ⟨text, [delimiter], ?_⟩
      rw [htext]
      simp [opened, hpending]
  | false =>
      obtain ⟨hahead, text, htext⟩ := field_not_found hfound
      refine .lost rfl (.pattern text rfl ?_ hahead ?_)
      · exact hmode
      · rw [htext]
        simp [opened, hpending]

lemma Inside.ended (h : P.Inside s) (hpending : s.pending = []) (hpeek : s.cursor.peek = none) :
    P.Scans (.endOfScript, s) (.endOfScript, P.scanner s) :=
  .inside rfl h ⟨hpending, List.head?_eq_none_iff.1 hpeek⟩

/-- Two fields, both closed or lost. -/
lemma Inside.pastFields (h : P.Inside s) (hmode : s.mode = .ending) (hpending : s.pending = [])
    {delimiter : Char} (hd : delimiter ≠ '\n') (after : Scanner.Mode) :
    P.Scans (⟨.delimiter, [delimiter]⟩, s.pastFields delimiter after)
      (⟨.delimiter, [delimiter]⟩, (P.scanner s).pastFields delimiter after) := by
  cases hfirst : (s.field .delimiter delimiter).1 with
  | false =>
      obtain ⟨hahead, text, htext⟩ := field_not_found hfirst
      have hpast : s.pastFields delimiter after = (s.field .delimiter delimiter).2 := by
        simp only [Scanner.pastFields, hfirst, Bool.false_eq_true, if_false]
      rw [hpending] at htext
      rw [hpast]
      exact .lost rfl (.first text rfl hmode hahead htext)
  | true =>
      obtain ⟨heq, hinside, first, htext⟩ := field_found h hd hfirst
      rw [hpending] at htext
      have hpast : s.pastFields delimiter after =
          if (((s.field .delimiter delimiter).2).field .delimiter delimiter).1 then
            { (((s.field .delimiter delimiter).2).field .delimiter delimiter).2 with mode := after }
          else (((s.field .delimiter delimiter).2).field .delimiter delimiter).2 := by
        simp only [Scanner.pastFields, hfirst, if_true]
      cases hsecond : (((s.field .delimiter delimiter).2).field .delimiter delimiter).1 with
      | false =>
          obtain ⟨hahead, second, htext'⟩ := field_not_found hsecond
          rw [htext] at htext'
          rw [hpast, hsecond, if_neg Bool.false_ne_true]
          refine .lost rfl (.second first second [delimiter] rfl hmode hahead ?_)
          rw [htext']
          simp
      | true =>
          obtain ⟨heq', hinside', second, htext'⟩ := field_found hinside hd hsecond
          rw [htext] at htext'
          rw [hpast, hsecond, if_pos rfl]
          refine .inside ?_ (hinside'.of_cursor rfl rfl) ⟨first, second, [delimiter], ?_⟩
          · simp only [Scanner.pastFields, heq, heq', if_true]
            rfl
          · rw [htext']
            simp

lemma Inside.fields (h : P.Inside s) (hpending : s.pending = []) (after : Scanner.Mode) :
    P.Scans (s.fields after) ((P.scanner s).fields after) := by
  have hmark : P.Inside s.markStart := ⟨h.holds, le_rfl⟩
  have hmark' : (P.scanner s).markStart = P.scanner s.markStart := by
    simp only [Scanner.markStart, scanner, position_cursor]
  have hpeek : (P.scanner s).cursor.peek = s.cursor.peek := h.holds.peek
  cases hdelimiter : s.cursor.peek with
  | none =>
      rw [hdelimiter] at hpeek
      rw [Scanner.fields_of_peek_none hdelimiter, Scanner.fields_of_peek_none hpeek, hmark']
      have hending : P.Inside { s.markStart with mode := .ending } := hmark.of_cursor rfl rfl
      exact hending.ended hpending hdelimiter
  | some delimiter =>
      rw [hdelimiter] at hpeek
      by_cases hd : delimiter = '\n' ∨ delimiter = '\\'
      · rw [Scanner.fields_of_illegal hdelimiter hd, Scanner.fields_of_illegal hpeek hd]
        exact .lost rfl (.illegal rfl)
      · have hne : s.cursor.peek ≠ some '\n' := by
          rw [hdelimiter]
          exact fun he => hd (.inl (Option.some.inj he))
        have hbehind : P.Inside s.behindDelimiter :=
          ⟨h.holds.holds_advance_of_peek hne, position_advance _⟩
        have hbehind' : (P.scanner s).behindDelimiter = P.scanner s.behindDelimiter := by
          simp only [Scanner.behindDelimiter, Scanner.markStart, scanner, h.holds.advance,
            position_cursor]
        rw [Scanner.fields_of_peek hdelimiter hd, Scanner.fields_of_peek hpeek hd, hbehind']
        exact hbehind.pastFields rfl hpending (fun he => hd (.inl he)) after

/-! ### The modes -/

lemma Inside.ending (h : P.Inside s) (hpending : s.pending = []) :
    P.Scans s.ending (P.scanner s).ending := by
  obtain ⟨hbegin, hinside⟩ := h.beginToken
  have hpeek : (P.scanner s.beginToken).cursor.peek = s.beginToken.cursor.peek :=
    hinside.holds.peek
  rw [Scanner.ending, Scanner.ending, hbegin]
  dsimp only
  rw [hpeek]
  split
  · rename_i hnone
    exact hinside.ended hpending hnone
  · rename_i hsemicolon
    refine Inside.single (s := { s.beginToken.forgetAddresses with mode := .command })
      (hinside.of_cursor rfl rfl) hpending ?_ (by decide)
    exact ne_of_eq_of_ne hsemicolon (by decide)
  · refine Inside.newline (s := { s.beginToken.forgetAddresses with mode := .command })
      (hinside.of_cursor rfl rfl) rfl hpending rfl rfl ['\n']
  · rename_i hbrace
    exact hinside.single hpending (ne_of_eq_of_ne hbrace (by decide)) (by decide)
  · exact hinside.comment hpending
  · rename_i c _ hnewline _ _ hc
    exact hinside.single hpending (ne_of_eq_of_ne hc (by simpa using hnewline)) (by decide)

/-- The mode of a scanner in the passage may change. -/
lemma Inside.withMode (h : P.Inside s) (mode : Scanner.Mode) : P.Inside { s with mode } :=
  h.of_cursor rfl rfl

lemma Inside.flags (h : P.Inside s) (hpending : s.pending = []) :
    P.Scans s.flags (P.scanner s).flags := by
  obtain ⟨hbegin, hinside⟩ := h.beginToken
  have hpeek : (P.scanner s.beginToken).cursor.peek = s.beginToken.cursor.peek :=
    hinside.holds.peek
  rw [Scanner.flags, Scanner.flags, hbegin, hpeek]
  split
  · rename_i hnone
    exact hinside.ended hpending hnone
  · rename_i hw
    exact (hinside.withMode .fileName).single hpending (ne_of_eq_of_ne hw (by decide)) (by decide)
  · rename_i c _ hc
    split
    · rename_i hflag
      refine hinside.single hpending (ne_of_eq_of_ne hc ?_) (by decide)
      rintro he
      cases he
      exact absurd hflag (by decide)
    split
    · exact hinside.run hpending (by decide) (by decide)
    split
    · exact (hinside.withMode .ending).ending hpending
    · rename_i hend
      refine hinside.single hpending (ne_of_eq_of_ne hc ?_) (by decide)
      rintro he
      cases he
      exact hend (by decide)

lemma Inside.wordOrEnding (h : P.Inside s) (hpending : s.pending = []) {p : Char → Bool}
    (hp : p '\n' = false) : P.Scans (s.wordOrEnding p) ((P.scanner s).wordOrEnding p) := by
  obtain ⟨hbegin, hinside⟩ := h.beginToken
  have hword := hinside.withMode .ending
  obtain ⟨hrun, hafter⟩ := hword.run_eq .word hp
  have hwhole : ({ P.scanner s.beginToken with mode := .ending } : Scanner).run .word p = _ := hrun
  rw [Scanner.wordOrEnding, Scanner.wordOrEnding, hbegin, hwhole]
  dsimp only
  split
  · exact hafter.ending hpending
  · rw [← hrun]
    exact hword.run hpending hp (by decide)

lemma Inside.numberOrEnding (h : P.Inside s) (hpending : s.pending = []) :
    P.Scans s.numberOrEnding (P.scanner s).numberOrEnding := by
  obtain ⟨hbegin, hinside⟩ := h.beginToken
  have hnumber := hinside.withMode .ending
  have hdigit : Char.isDigit '\n' = false := by decide
  obtain ⟨hrun, hafter⟩ := hnumber.run_eq .number hdigit
  have hwhole : ({ P.scanner s.beginToken with mode := .ending } : Scanner).run .number
      Char.isDigit = _ := hrun
  rw [Scanner.numberOrEnding, Scanner.numberOrEnding, hbegin, hwhole]
  dsimp only
  split
  · exact hafter.ending hpending
  · rw [← hrun]
    exact hnumber.run hpending hdigit (by decide)

/-- Text begins in the passage where it begins in the whole. -/
lemma Inside.textStart (h : P.Inside s) :
    (P.scanner s).textStart = P.cursor s.textStart ∧ P.Holds s.textStart ∧
      s.tokenStart ≤ s.textStart.position := by
  have hpeek : (P.scanner s).cursor.peek = s.cursor.peek := h.holds.peek
  have hprevious : (P.scanner s).cursor.previous = some '\\' ↔ s.cursor.previous = some '\\' :=
    previous_cursor s.cursor
  by_cases hescaped : s.cursor.previous = some '\\' ∧ s.cursor.peek = some '\n'
  · have halone : s.textStart = s.cursor.advance := by
      rw [Scanner.textStart, if_pos (by simpa using hescaped)]
    have hwhole : (P.scanner s).textStart = (P.cursor s.cursor).advance := by
      rw [Scanner.textStart, if_pos]
      · rfl
      · simpa [hprevious, hpeek] using hescaped
    rw [halone, hwhole, h.holds.advance]
    refine ⟨rfl, h.holds.holds_advance fun hafter hahead => ?_,
      h.started.trans (position_advance _)⟩
    have hends := P.text_ends hafter
    rw [← h.holds.text, Cursor.text, hahead] at hends
    have hlast := hends.unescaped
    rw [List.dropLast_concat, List.getLast?_reverse] at hlast
    exact hlast hescaped.1
  · have halone : s.textStart = s.cursor := by
      rw [Scanner.textStart, if_neg (by simpa using hescaped)]
    have hwhole : (P.scanner s).textStart = P.cursor s.cursor := by
      rw [Scanner.textStart, if_neg]
      · rfl
      · simpa [hprevious, hpeek] using hescaped
    rw [halone, hwhole]
    exact ⟨rfl, h.holds, h.started⟩

/-- Text ends in the passage, before a newline. -/
lemma Inside.textBody (h : P.Inside s) (hpending : s.pending = []) :
    P.Scans s.textBody (P.scanner s).textBody := by
  obtain ⟨hstart, hholds, hstarted⟩ := h.textStart
  have hread : P.after = [] ∨ (Cursor.readUntil (· = '\n') s.textStart.passed
      s.textStart.ahead).2.1 = true := by
    by_cases hafter : P.after = []
    · exact .inl hafter
    · exact .inr (Cursor.found_newline (hholds.endsLine hafter) _)
  have hwhole := Cursor.readUntil_amid P.before.reverse hread
  rw [Scanner.textBody_eq, Scanner.textBody_eq, hstart]
  refine .inside ?_ ⟨⟨?_, ?_⟩, ?_⟩ hpending
  · have hcursor : Cursor.readUntil (· = '\n') (P.cursor s.textStart).passed
        (P.cursor s.textStart).ahead = _ := hwhole
    simp only [hcursor, scanner, position_cursor]
    rfl
  · exact (Cursor.text_readUntil _ _ _).trans hholds.text
  · refine hread.imp_right fun hfound => ?_
    obtain ⟨c, rest, hahead, -⟩ := Cursor.ahead_readUntil hfound
    rw [hahead]
    exact List.cons_ne_nil _ _
  · exact Cursor.passed_readUntil _ _ _

lemma Inside.text (h : P.Inside s) (hpending : s.pending = []) :
    P.Scans s.text (P.scanner s).text := by
  obtain ⟨hbegin, hinside⟩ := h.beginToken
  have hpeek : (P.scanner s.beginToken).cursor.peek = s.beginToken.cursor.peek :=
    hinside.holds.peek
  rw [Scanner.text, Scanner.text, hbegin, hpeek]
  split
  · rename_i hbackslash
    exact (hinside.withMode .textBody).single hpending
      (ne_of_eq_of_ne hbackslash (by decide)) (by decide)
  · exact hinside.textBody hpending

/-- A sign that is no newline is passed whatever is noted beside it. -/
lemma Inside.sign (h : P.Inside s) (hpending : s.pending = []) (s₁ : Scanner) (kind : Token.Kind)
    {c d : Char} (hd : s.cursor.peek = some d) (hne : d ≠ '\n')
    (hkind : kind ≠ .eof ∧ kind ≠ .slash ∧ kind ≠ .delimiter) (hcursor : s₁.cursor = s.cursor)
    (hstart : s₁.tokenStart = s.tokenStart) (hwaiting : s₁.pending = s.pending) :
    P.Scans (s₁.single kind c) ((P.scanner s₁).single kind c) := by
  refine (h.of_cursor hcursor hstart).single (hwaiting.trans hpending) ?_ hkind
  rw [hcursor, hd]
  exact fun he => hne (Option.some.inj he)

/-- A backslash is passed before the pattern of which the delimiter is behind it. -/
lemma Inside.backslash (h : P.Inside s) (hmode : s.mode = .command) (hpending : s.pending = [])
    (hpeek : s.cursor.peek ≠ some '\n') {delimiter : Char}
    (hdelimiter : s.cursor.peekNext = some delimiter) (hne : delimiter ≠ '\n') :
    P.Scans (({ s with cursor := s.cursor.advance } : Scanner).pattern delimiter)
      (({ P.scanner s with cursor := (P.scanner s).cursor.advance } : Scanner).pattern
        delimiter) := by
  have hadvanced : P.Inside { s with cursor := s.cursor.advance } :=
    ⟨h.holds.holds_advance_of_peek hpeek, h.started.trans (position_advance _)⟩
  have hwhole : ({ P.scanner s with cursor := (P.scanner s).cursor.advance } : Scanner) =
      P.scanner { s with cursor := s.cursor.advance } := by
    simp only [scanner, h.holds.advance]
  rw [hwhole]
  refine hadvanced.pattern hmode hpending ?_ hne
  rw [Cursor.peek_advance, hdelimiter]
  exact fun he => hne (Option.some.inj he)

lemma Inside.command (h : P.Inside s) (hmode : s.mode = .command) (hpending : s.pending = []) :
    P.Scans s.command (P.scanner s).command := by
  have hplain : P.Inside { s with afterPattern := false } := h.of_cursor rfl rfl
  obtain ⟨hbegin, hinside⟩ := hplain.beginToken
  have hbegin' : ({ P.scanner s with afterPattern := false } : Scanner).beginToken =
      P.scanner ({ s with afterPattern := false } : Scanner).beginToken := hbegin
  rw [Scanner.command, Scanner.command, hbegin']
  generalize hs₁ : ({ s with afterPattern := false } : Scanner).beginToken = s₁ at hinside
  have hmode₁ : s₁.mode = .command := by rw [← hs₁]; exact hmode
  have hpending₁ : s₁.pending = [] := by rw [← hs₁]; exact hpending
  have hpeek : (P.scanner s₁).cursor.peek = s₁.cursor.peek := hinside.holds.peek
  have hnext (hc : s₁.cursor.peek ≠ some '\n') :
      (P.scanner s₁).cursor.peekNext = s₁.cursor.peekNext := hinside.holds.peekNext hc
  dsimp only
  rw [hpeek]
  split
  case h_1 hnone => exact hinside.ended hpending₁ hnone
  case h_2 hd =>
    have hforget : P.Inside s₁.forgetAddresses := hinside.of_cursor rfl rfl
    exact hforget.newline hmode₁ hpending₁ rfl rfl _
  case h_4 hd => exact hinside.comment hpending₁
  case h_9 hd =>
    rw [addresses_scanner, previous_scanner]
    split <;> exact hinside.sign hpending₁ _ _ hd (by decide) (by decide) rfl rfl rfl
  case h_11 hd => exact hinside.pattern hmode₁ hpending₁ (ne_of_eq_of_ne hd (by decide)) (by decide)
  case h_12 hd =>
    rw [hnext (ne_of_eq_of_ne hd (by decide))]
    split
    case h_4 delimiter hnewline _ hdelimiter =>
      exact hinside.backslash hmode₁ hpending₁ (ne_of_eq_of_ne hd (by decide)) hdelimiter
        (by simpa using hnewline)
    all_goals exact hinside.sign hpending₁ _ _ hd (by decide) (by decide) rfl rfl rfl
  case h_13 c hnewline _ _ _ _ _ _ _ _ _ _ hd =>
    have hne : c ≠ '\n' := by simpa using hnewline
    refine Scans.ite (fun hdigit => ?_) fun _ => Scans.ite (fun _ => ?_) fun _ =>
      Scans.ite (fun _ => ?_) fun _ => Scans.ite (fun _ => ?_) fun _ =>
        Scans.ite (fun _ => ?_) fun _ => ?_
    · have hrun (addresses : ℕ) :
          P.Scans (({ s₁ with addresses } : Scanner).run .number Char.isDigit)
            ((P.scanner { s₁ with addresses }).run .number Char.isDigit) := by
        have hcounted : P.Inside { s₁ with addresses } := hinside.of_cursor rfl rfl
        exact hcounted.run hpending₁ (by decide) (by decide)
      exact hrun _
    · exact hinside.sign hpending₁ _ .plus hd hne (by decide) rfl rfl rfl
    · exact hinside.sign hpending₁ _ .tilde hd hne (by decide) rfl rfl rfl
    · exact hinside.sign hpending₁ { s₁ with afterPattern := true } .word hd hne (by decide)
        rfl rfl rfl
    · exact hinside.sign hpending₁ { s₁.forgetAddresses with mode := .afterCommand c } .command
        hd hne (by decide) rfl rfl rfl
    · exact hinside.sign hpending₁ _ .illegal hd hne (by decide) rfl rfl rfl
  all_goals
    rename_i hd
    exact hinside.sign hpending₁ _ _ hd (by decide) (by decide) rfl rfl rfl

lemma Inside.scan (h : P.Inside s) (hpending : s.pending = []) :
    P.Scans s.scan (P.scanner s).scan := by
  rw [Scanner.scan, Scanner.scan, mode_scanner]
  cases hmode : s.mode with
  | command => exact h.command hmode hpending
  | substitution => exact h.fields hpending .flags
  | transliteration => exact h.fields hpending .ending
  | flags => exact h.flags hpending
  | fileName | label => exact h.wordOrEnding hpending (by decide)
  | text => exact h.text hpending
  | textBody => exact h.textBody hpending
  | number => exact h.numberOrEnding hpending
  | ending => exact h.ending hpending

/-! ### The next token -/

/-- The kind of the token is noted on both sides. -/
lemma Scans.noted {r r' : Token × Scanner} (h : P.Scans r r') :
    P.Scans (Scanner.noted r) (Scanner.noted r') := by
  cases h with
  | inside heq hinside htidy => exact .inside (by rw [heq]; rfl) (hinside.of_cursor rfl rfl) htidy
  | done heq hkind hdone =>
      exact .done (by rw [heq]; rfl) hkind
        ⟨hdone.follows, hdone.cursor, hdone.mode, hdone.pending, hdone.addresses,
          hdone.afterPattern⟩
  | lost heq hlost =>
      refine .lost heq ?_
      cases hlost with
      | illegal hkind => exact .illegal hkind
      | pattern text hkind hmode hahead hpending => exact .pattern text hkind hmode hahead hpending
      | first text hkind hmode hahead hpending => exact .first text hkind hmode hahead hpending
      | second text text' delimiter hkind hmode hahead hpending =>
          exact .second text text' delimiter hkind hmode hahead hpending

/-- The tokens of the passage are scanned alike in the whole. -/
lemma Inside.next (h : P.Inside s) (hpending : s.pending = []) :
    P.Scans s.next (P.scanner s).next := by
  rw [Scanner.next_of_pending_nil hpending, Scanner.next_of_pending_nil (s := P.scanner s) hpending]
  exact (h.scan hpending).noted

/-- Tokens that wait are returned alike. -/
lemma Inside.next_of_pending (h : P.Inside s) {t : Token} {pending : List Token}
    (hpending : s.pending = t :: pending) :
    s.next = (t, { s with pending, previous := some t.kind }) ∧
      (P.scanner s).next = (s.next.1, P.scanner s.next.2) ∧ P.Inside s.next.2 := by
  have halone : s.next = (t, { s with pending, previous := some t.kind }) := by
    rw [Scanner.next, hpending]
  have hwhole : (P.scanner s).next =
      (t, { P.scanner s with pending, previous := some t.kind }) := by
    rw [Scanner.next, pending_scanner, hpending]
  rw [halone, hwhole]
  exact ⟨rfl, rfl, h.of_cursor rfl rfl⟩

end Scanner

end Passage

end StreamEditor
