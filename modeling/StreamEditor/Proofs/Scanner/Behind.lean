import StreamEditor.Proofs.Program.Spelled
import StreamEditor.Proofs.Scanner.Passage

/-!
What a scanner is like behind a token.

* `Scanner.Word`: the words that labels and file names are.
* `Scanner.Behind`: the mode that a token leaves, and the tokens that wait behind it;
  `behind_next` says that so it is behind every token.
* `Behind.paired`: a text with a delimiter behind it; `word_next`: a word.
-/

namespace StreamEditor

namespace Scanner

open Token (Kind)

/-! ### Words -/

/-- The characters of labels. -/
def isLabelChar (c : Char) : Bool := !Text.isSpace c && c ≠ ';' && c ≠ '}'

/-- The characters of file names. -/
def isNameChar (c : Char) : Bool := c ≠ '\n'

/-- A word that is made of certain characters, the first of which is no blank. -/
structure Word (p : Char → Bool) (t : Text) : Prop where
  ne_nil : t ≠ []
  chars : ∀ c ∈ t, p c = true
  first : ∀ c ∈ t.head?, isBlank c = false

section Words

variable {s : Scanner}

/-- The kinds of tokens at the end of a command. -/
def endingKinds : List Kind := [.eof, .semicolon, .newline, .closeBrace, .illegal]

lemma kind_ending (s : Scanner) : s.ending.1.kind ∈ endingKinds := by
  rw [ending]
  dsimp only
  split <;> simp [single, comment, Token.endOfScript, endingKinds]

lemma word_wordOrEnding {p : Char → Bool} (h : (s.wordOrEnding p).1.kind = .word) :
    Word p (s.wordOrEnding p).1.literal := by
  rw [wordOrEnding] at h ⊢
  dsimp only at h ⊢
  split at h
  · have hkind := kind_ending
      (({ s.beginToken with mode := .ending } : Scanner).run .word p).2
    rw [h] at hkind
    exact absurd hkind (by decide)
  · rename_i hsome
    rw [if_neg hsome]
    have hne : (s.beginToken.cursor.takeWhile p).1 ≠ [] := by simpa [run] using hsome
    refine ⟨hne, List.all_eq_true.1 List.all_takeWhile, fun c hc => ?_⟩
    -- the first character of the word is the one at which the blanks end
    have hhead : (s.cursor.ahead.dropWhile isBlank).head? = some c := by
      obtain ⟨rest, hrest⟩ := List.takeWhile_prefix (l := s.cursor.ahead.dropWhile isBlank) p
      rw [← hrest]
      exact (List.head?_append_of_ne_nil _ hne).trans hc
    have hblank := List.head?_dropWhile_not isBlank s.cursor.ahead
    rw [hhead] at hblank
    simpa using hblank

/-- In the modes of labels and file names a word is a word of these. -/
lemma word_next {p : Char → Bool} (hpending : s.pending = [])
    (hscan : s.scan = s.wordOrEnding p) (h : s.next.1.kind = .word) :
    Word p s.next.1.literal := by
  rw [next_of_pending_nil hpending] at h ⊢
  rw [hscan] at h ⊢
  exact word_wordOrEnding h

lemma word_next_label (hpending : s.pending = []) (hmode : s.mode = .label)
    (h : s.next.1.kind = .word) : Word isLabelChar s.next.1.literal :=
  word_next hpending (by rw [scan, hmode]; rfl) h

lemma word_next_fileName (hpending : s.pending = []) (hmode : s.mode = .fileName)
    (h : s.next.1.kind = .word) : Word isNameChar s.next.1.literal :=
  word_next hpending (by rw [scan, hmode]; rfl) h

/-- At the end of a command there is no word. -/
lemma kind_next_ending (hpending : s.pending = []) (hmode : s.mode = .ending) :
    s.next.1.kind ∈ endingKinds := by
  rw [next_of_pending_nil hpending, scan, hmode]
  exact kind_ending s

end Words

/-! ### What waits -/

/-- What is known of a field when it is read. -/
lemma field_cases (s : Scanner) (kind : Kind) {delimiter : Char} (hdelimiter : delimiter ≠ '\\') :
    ∃ text cursor,
      (Paired text ∧ s.field kind delimiter = (true, { s with
        cursor
        pending := s.pending ++ fieldTokens text ++ [⟨kind, [delimiter]⟩] })) ∨
      (cursor.ahead = [] ∧ s.field kind delimiter = (false, { s with
        cursor
        pending := s.pending ++ fieldTokens text })) := by
  have hpaired := @paired_readUntil (· = delimiter) (decide_eq_false (Ne.symm hdelimiter))
    s.cursor.passed s.cursor.ahead
  have hended := @Cursor.ahead_of_not_found (· = delimiter) s.cursor.passed s.cursor.ahead
  rw [field]
  rcases hread : Cursor.readUntil (· = delimiter) s.cursor.passed s.cursor.ahead with
    ⟨text, found, cursor⟩
  rw [hread] at hpaired hended
  cases found with
  | false =>
      refine ⟨text, cursor, .inr ⟨hended rfl, ?_⟩⟩
      simp [fieldTokens]
  | true =>
      refine ⟨text, cursor.advance, .inl ⟨hpaired rfl, ?_⟩⟩
      simp [fieldTokens]

/-- The kinds of tokens that wait. -/
def waitingKinds : List Kind := [.slash, .delimiter, .text]

/-- Texts that a delimiter closed consist of characters and escapes; if the last token is a text,
it was not closed. -/
def Waits (unclosed : Prop) : List Token → Prop
  | [] => True
  | [t] => t.kind = .text → unclosed
  | t :: u :: rest => (t.kind = .text → Paired t.literal) ∧ Waits unclosed (u :: rest)

lemma Waits.tail {unclosed : Prop} {t : Token} {rest : List Token}
    (h : Waits unclosed (t :: rest)) : Waits unclosed rest := by
  cases rest with
  | nil => trivial
  | cons u rest => exact h.2

lemma Waits.mono {unclosed unclosed' : Prop} {l : List Token} (h : Waits unclosed l)
    (hmono : unclosed → unclosed') : Waits unclosed' l := by
  induction l with
  | nil => trivial
  | cons t rest ih =>
      cases rest with
      | nil => exact fun ht => hmono (h ht)
      | cons u rest => exact ⟨h.1, ih h.2⟩

/-- Behind a text that was not closed no delimiter comes. -/
def Unclosed (s : Scanner) : Prop :=
  s.mode = .ending ∨ (s.mode = .command ∧ s.cursor.ahead = [])

/-- What a scanner is like behind a token. -/
structure Behind (t : Token) (s : Scanner) : Prop where
  kinds : ∀ u ∈ s.pending, u.kind ∈ waitingKinds
  waits : Waits s.Unclosed (t :: s.pending)
  command : t.kind = .command → s.pending = [] ∧ s.mode = .afterCommand (t.firstChar.getD ' ')
  colon : t.kind = .colon → s.pending = [] ∧ s.mode = .label
  word : t.kind = .word → s.pending = [] ∧
    (t.firstChar.getD ' ' = 'w' → s.mode = .fileName ∨ s.mode = .ending)

section Behind

variable {t : Token} {s : Scanner}

/-- Where nothing waits. -/
lemma Behind.of_nil (hpending : s.pending = []) (htext : t.kind = .text → s.Unclosed)
    (hcommand : t.kind = .command → s.mode = .afterCommand (t.firstChar.getD ' '))
    (hcolon : t.kind = .colon → s.mode = .label)
    (hword : t.kind = .word → t.firstChar.getD ' ' = 'w' → s.mode = .fileName ∨ s.mode = .ending) :
    Behind t s where
  kinds := by
    rw [hpending]
    exact fun u hu => absurd hu List.not_mem_nil
  waits := by
    rw [hpending]
    exact htext
  command := fun h => ⟨hpending, hcommand h⟩
  colon := fun h => ⟨hpending, hcolon h⟩
  word := fun h => ⟨hpending, hword h⟩

/-- Most tokens say nothing about the mode. -/
lemma Behind.of_kind (hpending : s.pending = [])
    (hkind : t.kind ∉ [Kind.command, .colon, .word, .text]) : Behind t s := by
  have hne : ∀ kind ∈ [Kind.command, .colon, .word, .text], t.kind ≠ kind :=
    fun kind h he => hkind (he ▸ h)
  exact .of_nil hpending (fun h => absurd h (hne _ (by decide)))
    (fun h => absurd h (hne _ (by decide))) (fun h => absurd h (hne _ (by decide)))
    fun h => absurd h (hne _ (by decide))

/-- Other tokens may wait only behind a delimiter or a text. -/
lemma Behind.of_waiting (hkind : t.kind ∈ waitingKinds)
    (hkinds : ∀ u ∈ s.pending, u.kind ∈ waitingKinds) (hwaits : Waits s.Unclosed (t :: s.pending)) :
    Behind t s := by
  have hne : ∀ kind ∉ waitingKinds, t.kind ≠ kind := fun kind h he => h (he ▸ hkind)
  exact ⟨hkinds, hwaits, fun h => absurd h (hne _ (by decide)),
    fun h => absurd h (hne _ (by decide)), fun h => absurd h (hne _ (by decide))⟩

lemma behind_single {kind : Kind} {c : Char} (hpending : s.pending = [])
    (hkind : kind ∉ [Kind.command, .colon, .word, .text]) :
    Behind (s.single kind c).1 (s.single kind c).2 :=
  .of_kind hpending hkind

lemma behind_word {c : Char} (hpending : s.pending = []) (hmode : c = 'w' → s.mode = .fileName) :
    Behind (s.single .word c).1 (s.single .word c).2 :=
  .of_nil hpending (fun h => by cases h) (fun h => by cases h) (fun h => by cases h)
    fun _ hc => .inl (hmode hc)

/-- Behind the letter of a command. -/
lemma behind_letter {c : Char} (hpending : s.pending = []) (hmode : s.mode = .afterCommand c) :
    Behind (s.single .command c).1 (s.single .command c).2 :=
  .of_nil hpending (fun h => by cases h) (fun _ => hmode) (fun h => by cases h)
    fun h => by cases h

lemma behind_colon {c : Char} (hpending : s.pending = []) (hmode : s.mode = .label) :
    Behind (s.single .colon c).1 (s.single .colon c).2 :=
  .of_nil hpending (fun h => by cases h) (fun h => by cases h) (fun _ => hmode)
    fun h => by cases h

lemma behind_run {kind : Kind} {p : Char → Bool} (hpending : s.pending = [])
    (hkind : kind ∉ [Kind.command, .colon, .word, .text]) :
    Behind (s.run kind p).1 (s.run kind p).2 :=
  .of_kind hpending hkind

lemma behind_comment (hpending : s.pending = []) : Behind s.comment.1 s.comment.2 :=
  .of_kind hpending (by simp [comment])

lemma behind_end (hpending : s.pending = []) : Behind .endOfScript s :=
  .of_kind hpending (by decide)

lemma behind_ending (hpending : s.pending = []) : Behind s.ending.1 s.ending.2 := by
  rw [ending]
  dsimp only
  split
  case h_1 => exact behind_end hpending
  case h_5 => exact behind_comment hpending
  all_goals exact behind_single hpending (by decide)

lemma kinds_fieldTokens (text : Text) : ∀ u ∈ fieldTokens text, u.kind ∈ waitingKinds := by
  rw [fieldTokens]
  split <;> simp [waitingKinds]

lemma behind_pattern {delimiter : Char} (hpending : s.pending = []) (hmode : s.mode = .command)
    (hdelimiter : delimiter ≠ '\\') : Behind (s.pattern delimiter).1 (s.pattern delimiter).2 := by
  obtain ⟨cursor, mode, pending, addresses, previous, afterPattern, tokenStart⟩ := s
  obtain rfl : mode = .command := hmode
  obtain rfl : pending = [] := hpending
  rw [pattern]
  dsimp only
  obtain ⟨text, cursor', ⟨hpaired, hfield⟩ | ⟨hended, hfield⟩⟩ := field_cases
    ⟨cursor.advance, .command, [], addresses + 1, previous, afterPattern, tokenStart⟩ .slash
    hdelimiter
  all_goals
    simp only [hfield, List.nil_append]
    refine .of_waiting (by simp [waitingKinds]) ?_ ?_
  · simp only [List.mem_append, List.mem_singleton, or_imp, forall_and, forall_eq]
    exact ⟨kinds_fieldTokens text, by simp [waitingKinds]⟩
  · cases text <;> simp [fieldTokens, Waits, hpaired]
  · exact kinds_fieldTokens text
  · cases text <;> simp [fieldTokens, Waits, Unclosed, hended]

lemma behind_pastFields {delimiter : Char} {after : Mode} (hpending : s.pending = [])
    (hmode : s.mode = .ending) (hdelimiter : delimiter ≠ '\\') :
    Behind ⟨.delimiter, [delimiter]⟩ (s.pastFields delimiter after) := by
  obtain ⟨cursor, mode, pending, addresses, previous, afterPattern, tokenStart⟩ := s
  obtain rfl : mode = .ending := hmode
  obtain rfl : pending = [] := hpending
  rw [pastFields]
  obtain ⟨first, cursor₁, ⟨hfirst, hfield₁⟩ | ⟨hended, hfield₁⟩⟩ := field_cases
    ⟨cursor, .ending, [], addresses, previous, afterPattern, tokenStart⟩ .delimiter hdelimiter
  · obtain ⟨second, cursor₂, ⟨hsecond, hfield₂⟩ | ⟨hended, hfield₂⟩⟩ := field_cases
      ⟨cursor₁, .ending, fieldTokens first ++ [⟨.delimiter, [delimiter]⟩], addresses, previous,
        afterPattern, tokenStart⟩ .delimiter hdelimiter
    all_goals
      simp only [hfield₁, if_true, List.nil_append, hfield₂]
      refine .of_waiting (by simp [waitingKinds]) ?_ ?_
    · simp only [List.mem_append, List.mem_singleton, or_imp, forall_and, forall_eq]
      exact ⟨⟨⟨kinds_fieldTokens first, by simp [waitingKinds]⟩, kinds_fieldTokens second⟩,
        by simp [waitingKinds]⟩
    · cases first <;> cases second <;> simp [fieldTokens, Waits, hfirst, hsecond]
    · simp only [Bool.false_eq_true, if_false, List.mem_append, List.mem_singleton, or_imp,
        forall_and, forall_eq]
      exact ⟨⟨kinds_fieldTokens first, by simp [waitingKinds]⟩, kinds_fieldTokens second⟩
    · cases first <;> cases second <;> simp [fieldTokens, Waits, Unclosed, hfirst]
  · simp only [hfield₁, List.nil_append, Bool.false_eq_true, if_false]
    refine .of_waiting (by simp [waitingKinds]) (kinds_fieldTokens first) ?_
    cases first <;> simp [fieldTokens, Waits, Unclosed]

lemma behind_fields {after : Mode} (hpending : s.pending = []) :
    Behind (s.fields after).1 (s.fields after).2 := by
  cases hpeek : s.cursor.peek with
  | none =>
      rw [fields_of_peek_none hpeek]
      exact behind_end hpending
  | some delimiter =>
      by_cases hd : delimiter = '\n' ∨ delimiter = '\\'
      · rw [fields_of_illegal hpeek hd]
        exact behind_single hpending (by decide)
      · rw [fields_of_peek hpeek hd]
        exact behind_pastFields hpending rfl fun he => hd (.inr he)

lemma behind_flags (hpending : s.pending = []) : Behind s.flags.1 s.flags.2 := by
  have hbegin : s.beginToken.pending = [] := hpending
  rw [flags]
  split
  · exact behind_end hbegin
  · exact behind_word hbegin fun _ => rfl
  · rename_i c hc _
    split
    · exact behind_word hbegin fun hw => absurd hw (by simpa using hc)
    split
    · exact behind_run hbegin (by decide)
    split
    · exact behind_ending hbegin
    · exact behind_single hbegin (by decide)

lemma behind_wordOrEnding {p : Char → Bool} (hpending : s.pending = []) :
    Behind (s.wordOrEnding p).1 (s.wordOrEnding p).2 := by
  rw [wordOrEnding]
  dsimp only
  split
  · exact behind_ending hpending
  · exact .of_nil hpending (fun h => by cases h) (fun h => by cases h) (fun h => by cases h)
      fun _ _ => .inr rfl

lemma behind_numberOrEnding (hpending : s.pending = []) :
    Behind s.numberOrEnding.1 s.numberOrEnding.2 := by
  rw [numberOrEnding]
  dsimp only
  split
  · exact behind_ending hpending
  · exact behind_run hpending (by decide)

lemma behind_textBody (hpending : s.pending = []) : Behind s.textBody.1 s.textBody.2 := by
  rw [textBody_eq]
  exact .of_nil hpending (fun _ => .inl rfl) (fun h => by cases h) (fun h => by cases h)
    fun h => by cases h

lemma behind_text (hpending : s.pending = []) : Behind s.text.1 s.text.2 := by
  rw [text]
  split
  · exact behind_single hpending (by decide)
  · exact behind_textBody hpending

lemma behind_command (hpending : s.pending = []) (hmode : s.mode = .command) :
    Behind s.command.1 s.command.2 := by
  rw [command]
  dsimp only
  generalize hs₁ : ({ s with afterPattern := false } : Scanner).beginToken = s₁
  have hmode₁ : s₁.mode = .command := by rw [← hs₁]; exact hmode
  have hpending₁ : s₁.pending = [] := by rw [← hs₁]; exact hpending
  split
  case h_1 => exact behind_end hpending₁
  case h_4 => exact behind_comment hpending₁
  case h_8 => exact behind_colon hpending₁ rfl
  case h_9 => split <;> exact behind_single hpending₁ (by decide)
  case h_11 => exact behind_pattern hpending₁ hmode₁ (by decide)
  case h_12 =>
    split
    case h_4 delimiter _ hbackslash _ =>
      exact behind_pattern (s := { s₁ with cursor := s₁.cursor.advance }) hpending₁ hmode₁
        (by simpa using hbackslash)
    all_goals exact behind_single hpending₁ (by decide)
  case h_13 c _ _ _ _ _ _ _ _ _ _ _ _ =>
    split
    · exact behind_run hpending₁ (by decide)
    split
    · exact behind_single hpending₁ (by decide)
    split
    · exact behind_single hpending₁ (by decide)
    split
    · rename_i hflag
      refine behind_word hpending₁ ?_
      rintro rfl
      simp at hflag
    split
    · exact behind_letter hpending₁ rfl
    · exact behind_single hpending₁ (by decide)
  all_goals exact behind_single hpending₁ (by decide)

lemma behind_scan (hpending : s.pending = []) : Behind s.scan.1 s.scan.2 := by
  rw [scan]
  cases hmode : s.mode with
  | command => exact behind_command hpending hmode
  | substitution | transliteration => exact behind_fields hpending
  | flags => exact behind_flags hpending
  | fileName | label => exact behind_wordOrEnding hpending
  | text => exact behind_text hpending
  | textBody => exact behind_textBody hpending
  | number => exact behind_numberOrEnding hpending
  | ending => exact behind_ending hpending

/-- What is known of the tokens that wait is known behind the next one. -/
lemma behind_next (hkinds : ∀ u ∈ s.pending, u.kind ∈ waitingKinds)
    (hwaits : Waits s.Unclosed s.pending) : Behind s.next.1 s.next.2 := by
  cases hpending : s.pending with
  | nil =>
      rw [next_of_pending_nil hpending]
      have hscan := behind_scan hpending
      exact ⟨hscan.kinds, hscan.waits, hscan.command, hscan.colon, hscan.word⟩
  | cons u pending =>
      rw [hpending, List.forall_mem_cons] at hkinds
      rw [hpending] at hwaits
      rw [Scanner.next, hpending]
      exact .of_waiting hkinds.1 hkinds.2 hwaits

lemma Behind.next (h : Behind t s) : Behind s.next.1 s.next.2 := behind_next h.kinds h.waits.tail

/-- So it is if the end of the command is looked for. -/
lemma Behind.next_ending (h : Behind t s) :
    Behind ({ s with mode := .ending } : Scanner).next.1
      ({ s with mode := .ending } : Scanner).next.2 :=
  behind_next h.kinds (h.waits.tail.mono fun _ => .inl rfl)

/-- A text with a delimiter behind it consists of characters and escapes. -/
lemma Behind.paired (h : Behind t s) (ht : t.kind = .text)
    (hnext : s.next.1.kind = .slash ∨ s.next.1.kind = .delimiter) : Paired t.literal := by
  have hwaits := h.waits
  cases hpending : s.pending with
  | cons u pending =>
      rw [hpending] at hwaits
      exact hwaits.1 ht
  | nil =>
      -- nothing waits, so what comes next is the end of a command or of the script
      rw [hpending] at hwaits
      have hno : s.next.1.kind ∉ [Kind.slash, .delimiter] := by
        rcases hwaits ht with hending | ⟨hcommand, hahead⟩
        · have hkind := kind_next_ending hpending hending
          intro hmem
          exact absurd hkind (by revert hmem; cases s.next.1.kind <;> decide)
        · have hend : s.next.1 = .endOfScript := by
            obtain ⟨⟨passed, ahead⟩, mode, pending, addresses, previous, afterPattern, start⟩ := s
            obtain rfl : ahead = [] := hahead
            obtain rfl : mode = .command := hcommand
            obtain rfl : pending = [] := hpending
            rfl
          rw [hend]
          decide
      exact absurd (by simpa using hnext) hno

end Behind

end Scanner

end StreamEditor
