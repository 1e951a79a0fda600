import StreamEditor.Proofs.Program.WellFormed
import StreamEditor.Proofs.Program.Writable

/-!
The tokens of a printed program.

* `Command.tokens`, `Program.lineTokens`: the tokens of a command, and of all lines.
* `Scanner.Lexes`, `Scanner.LexesAfter`: the tokens that a scanner returns first from a text; there
  is one lemma for each sort of token, with anything that may follow.
* `lexes_action`, `lexes_command`: a printed command is scanned as its tokens;
  `lexes_renderCommands`: so are all lines.
-/

namespace StreamEditor

variable {library : Regex.Library}

open Scanner (fieldTokens)

/-! ### Tokens -/

def Address.tokens : Address → List Token
  | line n => [⟨.number, Text.decimal n⟩]
  | last => [⟨.dollar, ['$']⟩]
  | pattern regex =>
      ⟨.slash, ['/']⟩ :: (fieldTokens ((regex.map (·.source)).getD []) ++ [⟨.slash, ['/']⟩])
  | step first every =>
      [⟨.number, Text.decimal first⟩, ⟨.tilde, ['~']⟩, ⟨.number, Text.decimal every⟩]
  | zero => [⟨.number, ['0']⟩]

def RangeEnd.tokens : RangeEnd → List Token
  | address a => a.tokens
  | following n => [⟨.plus, ['+']⟩, ⟨.number, Text.decimal n⟩]
  | multiple n => [⟨.tilde, ['~']⟩, ⟨.number, Text.decimal n⟩]

def Selection.tokens : Selection → List Token
  | all => []
  | single a => a.tokens
  | range start stop _ => start.tokens ++ ⟨.comma, [',']⟩ :: stop.tokens

/-- The tokens of two fields, with their delimiters. -/
def Scanner.fieldsTokens (first second : Text) : List Token :=
  ⟨.delimiter, ['/']⟩ :: (fieldTokens first ++ ⟨.delimiter, ['/']⟩ ::
    (fieldTokens second ++ [⟨.delimiter, ['/']⟩]))

/-- The tokens of the flag that names where a substitution writes to. -/
def Target.flagTokens (files : List OutputFile) : Option Target → List Token
  | some target => [⟨.word, ['w']⟩, ⟨.word, target.name files⟩]
  | none => []

/-- The tokens of the flags of a substitution. -/
def Substitution.flagTokens (files : List OutputFile) (s : Substitution) : List Token :=
  (if s.occurrence > 1 then [⟨.number, Text.decimal s.occurrence⟩] else []) ++
    (if s.everywhere then [⟨.word, ['g']⟩] else []) ++ (if s.print then [⟨.word, ['p']⟩] else []) ++
    Target.flagTokens files s.write

def Action.tokens (files : List OutputFile) (letter : Char) : Action → List Token
  | block _ => [⟨.openBrace, ['{']⟩]
  | blockEnd => [⟨.closeBrace, ['}']⟩]
  | label name => [⟨.colon, [':']⟩, ⟨.word, name⟩]
  | branch _ (some name) _ => [⟨.command, [letter]⟩, ⟨.word, name⟩]
  | substitute s =>
      ⟨.command, [letter]⟩ :: (Scanner.fieldsTokens ((s.regex.map (·.source)).getD [])
        s.template.scanned ++ s.flagTokens files)
  | transliterate y => ⟨.command, [letter]⟩ :: Scanner.fieldsTokens y.source y.target
  | insert text | append text | change text =>
      [⟨.command, [letter]⟩, ⟨.backslash, ['\\']⟩, ⟨.text, text⟩]
  | quit code _ =>
      ⟨.command, [letter]⟩ :: if code = 0 then [] else [⟨.number, Text.decimal code⟩]
  | appendFile name | appendFileLine name => [⟨.command, [letter]⟩, ⟨.word, name⟩]
  | write target | writeFirstLine target => [⟨.command, [letter]⟩, ⟨.word, target.name files⟩]
  | list (some width) => [⟨.command, [letter]⟩, ⟨.number, Text.decimal width⟩]
  | _ => [⟨.command, [letter]⟩]

lemma Substitution.flagTokens_ne_eof {files : List OutputFile} (s : Substitution) :
    ∀ t ∈ s.flagTokens files, t.kind ≠ .eof := by
  simp only [flagTokens, Target.flagTokens, List.forall_mem_append]
  refine ⟨⟨⟨?_, ?_⟩, ?_⟩, ?_⟩ <;> split <;> simp

lemma Action.tokens_ne_eof {files : List OutputFile} (letter : Char) (a : Action) :
    ∀ t ∈ a.tokens files letter, t.kind ≠ .eof := by
  have hfield : ∀ text, ∀ t ∈ fieldTokens text, t.kind ≠ .eof := by
    intro text
    rw [fieldTokens]
    split <;> simp
  have hfields : ∀ first second, ∀ t ∈ Scanner.fieldsTokens first second, t.kind ≠ .eof := by
    intro first second
    simp only [Scanner.fieldsTokens, List.forall_mem_cons, List.forall_mem_append]
    simpa using ⟨hfield first, hfield second⟩
  cases a with
  | branch condition goal target => cases goal <;> simp [tokens]
  | list width => cases width <;> simp [tokens]
  | quit code autoprint =>
      rw [tokens]
      split <;> simp
  | substitute s =>
      rw [tokens, List.forall_mem_cons, List.forall_mem_append]
      exact ⟨by simp, hfields _ _, s.flagTokens_ne_eof⟩
  | transliterate y =>
      rw [tokens, List.forall_mem_cons]
      exact ⟨by simp, hfields _ _⟩
  | _ => simp [tokens]

lemma Address.tokens_ne_eof (a : Address) : ∀ t ∈ a.tokens, t.kind ≠ .eof := by
  cases a with
  | pattern regex =>
      rw [tokens, fieldTokens]
      split <;> simp
  | _ => simp [tokens]

lemma Selection.tokens_ne_eof (s : Selection) : ∀ t ∈ s.tokens, t.kind ≠ .eof := by
  cases s with
  | all => simp [tokens]
  | single a => exact a.tokens_ne_eof
  | range start stop slot =>
      rw [tokens, List.forall_mem_append, List.forall_mem_cons]
      refine ⟨start.tokens_ne_eof, by simp, ?_⟩
      cases stop with
      | address a => exact a.tokens_ne_eof
      | _ => simp [RangeEnd.tokens]

/-- The kinds of tokens at which a command begins behind its addresses. -/
def Token.startKinds : List Token.Kind := [.openBrace, .closeBrace, .colon, .command]

/-- The first token of what a command does. -/
lemma Action.exists_tokens (files : List OutputFile) (letter : Char) (a : Action) :
    ∃ t ts, a.tokens files letter = t :: ts ∧ t.kind ∈ Token.startKinds := by
  have h : ∀ (t : Token) (ts : List Token), t.kind ∈ Token.startKinds →
      ∃ t' ts', t :: ts = t' :: ts' ∧ t'.kind ∈ Token.startKinds :=
    fun t ts ht => ⟨t, ts, rfl, ht⟩
  cases a with
  | branch condition goal target => cases goal <;> exact h _ _ (by simp [Token.startKinds])
  | list width => cases width <;> exact h _ _ (by simp [Token.startKinds])
  | _ => exact h _ _ (by simp [Token.startKinds])

/-- The tokens of a command. -/
def Command.tokens (files : List OutputFile) (c : Command) : List Token :=
  c.selection.tokens ++ ((if c.negated then [⟨.bang, ['!']⟩] else []) ++
    c.action.tokens files c.letter)

lemma Command.tokens_ne_eof {files : List OutputFile} (c : Command) :
    ∀ t ∈ c.tokens files, t.kind ≠ .eof := by
  rw [tokens, List.forall_mem_append, List.forall_mem_append]
  refine ⟨c.selection.tokens_ne_eof, ?_, c.action.tokens_ne_eof c.letter⟩
  split <;> simp

/-- The end of a line. -/
def Token.lineEnd : Token := ⟨.newline, ['\n']⟩

/-- The tokens of commands, one to a line. -/
def Program.lineTokens (files : List OutputFile) (commands : List Command) : List Token :=
  commands.flatMap fun c => c.tokens files ++ [.lineEnd]

namespace Scanner

open Token (Kind lineEnd)
open StreamEditor.Parser (plainAction)

variable {mode : Mode} {addresses n : ℕ} {previous : Option Kind} {w : Text} {ts : List Token}

/-- In a mode the scanner returns these tokens first, whatever was before. -/
def Lexes (mode : Mode) (ahead : Text) (ts : List Token) : Prop :=
  ∀ passed addresses previous afterPattern tokenStart,
    Feeds ⟨⟨passed, ahead⟩, mode, [], addresses, previous, afterPattern, tokenStart⟩ ts

/-- Between commands it does so after some addresses and a token. -/
def LexesAfter (addresses : ℕ) (previous : Option Kind) (ahead : Text) (ts : List Token) : Prop :=
  ∀ passed afterPattern tokenStart,
    Feeds ⟨⟨passed, ahead⟩, .command, [], addresses, previous, afterPattern, tokenStart⟩ ts

lemma Lexes.after (h : Lexes .command w ts) (addresses : ℕ) (previous : Option Kind) :
    LexesAfter addresses previous w ts := fun _ _ _ => h _ _ _ _ _

/-- The text does not go on with such a character. -/
def Stops (p : Char → Bool) (w : Text) : Prop := ∀ c ∈ w.head?, p c = false

/-! ### Signs -/

lemma lexesAfter_end : LexesAfter addresses previous [] [.endOfScript] :=
  fun _ _ _ => ⟨rfl, trivial⟩

/-- The modes in which a command can end. -/
def lineModes : List Mode := [.command, .flags, .fileName, .label, .number, .ending]

lemma lexes_newline (hmode : mode ∈ lineModes) (h : LexesAfter 0 (some .newline) w ts) :
    Lexes mode ('\n' :: w) (lineEnd :: ts) := by
  intro passed addresses previous afterPattern tokenStart
  simp only [lineModes, List.mem_cons, List.not_mem_nil, or_false] at hmode
  rcases hmode with rfl | rfl | rfl | rfl | rfl | rfl <;> exact ⟨rfl, h _ _ _⟩

lemma lexesAfter_dollar (h : LexesAfter (addresses + 1) (some .dollar) w ts) :
    LexesAfter addresses previous ('$' :: w) (⟨.dollar, ['$']⟩ :: ts) :=
  fun _ _ _ => ⟨rfl, h _ _ _⟩

lemma lexesAfter_comma (hprevious : endsAddress previous = true)
    (h : LexesAfter 1 (some .comma) w ts) :
    LexesAfter 1 previous (',' :: w) (⟨.comma, [',']⟩ :: ts) := by
  intro passed afterPattern tokenStart
  have hnext : next ⟨⟨passed, ',' :: w⟩, .command, [], 1, previous, afterPattern, tokenStart⟩ =
      (⟨.comma, [',']⟩, ⟨⟨',' :: passed, w⟩, .command, [], 1, some .comma, false,
        passed.length⟩) := by
    have hcomma : command ⟨⟨passed, ',' :: w⟩, .command, [], 1, previous, afterPattern,
        tokenStart⟩ =
        if (decide (1 = 1) && endsAddress previous) = true then
          single ⟨⟨passed, ',' :: w⟩, .command, [], 1, previous, false, passed.length⟩ .comma ','
        else
          single ⟨⟨passed, ',' :: w⟩, .command, [], 1, previous, false, passed.length⟩ .illegal
            ',' := rfl
    rw [next_of_pending_nil rfl]
    simp only [scan, hcomma, hprevious]
    rfl
  exact ⟨by rw [hnext], by rw [hnext]; exact h _ _ _⟩

lemma lexesAfter_plus (h : LexesAfter addresses (some .plus) w ts) :
    LexesAfter addresses (some .comma) ('+' :: w) (⟨.plus, ['+']⟩ :: ts) :=
  fun _ _ _ => ⟨rfl, h _ _ _⟩

lemma lexesAfter_tilde (hprevious : previous = some .number ∨ previous = some .comma)
    (h : LexesAfter addresses (some .tilde) w ts) :
    LexesAfter addresses previous ('~' :: w) (⟨.tilde, ['~']⟩ :: ts) := by
  rcases hprevious with rfl | rfl <;> exact fun _ _ _ => ⟨rfl, h _ _ _⟩

lemma lexes_bang (h : Lexes .command w ts) : Lexes .command ('!' :: w) (⟨.bang, ['!']⟩ :: ts) :=
  fun _ _ _ _ _ => ⟨rfl, h _ _ _ _ _⟩

lemma lexes_openBrace (h : Lexes .command w ts) :
    Lexes .command ('{' :: w) (⟨.openBrace, ['{']⟩ :: ts) :=
  fun _ _ _ _ _ => ⟨rfl, h _ _ _ _ _⟩

lemma lexes_closeBrace (h : Lexes .ending w ts) :
    Lexes .command ('}' :: w) (⟨.closeBrace, ['}']⟩ :: ts) :=
  fun _ _ _ _ _ => ⟨rfl, h _ _ _ _ _⟩

lemma lexes_colon (h : Lexes .label w ts) : Lexes .command (':' :: w) (⟨.colon, [':']⟩ :: ts) :=
  fun _ _ _ _ _ => ⟨rfl, h _ _ _ _ _⟩

/-- Behind the letter of a command the scanner reads its argument. -/
lemma lexes_letter {posix : Bool} {letter : Char} {kind : Argument}
    (hletter : Argument.ofLetter? posix letter = some (kind, n)) (h : Lexes kind.mode w ts) :
    Lexes .command (letter :: w) (⟨.command, [letter]⟩ :: ts) := by
  unfold Argument.ofLetter? at hletter
  dsimp only at hletter
  split at hletter <;> cases hletter <;> exact fun _ _ _ _ _ => ⟨rfl, h _ _ _ _ _⟩

/-! ### Blanks, numbers and words -/

lemma beginToken_blank (passed : Text) (pending : List Token) (afterPattern : Bool)
    (tokenStart : ℕ) :
    beginToken ⟨⟨passed, ' ' :: w⟩, mode, pending, addresses, previous, afterPattern, tokenStart⟩ =
      beginToken ⟨⟨' ' :: passed, w⟩, mode, pending, addresses, previous, afterPattern,
        tokenStart⟩ := by
  simp [beginToken, markStart, Cursor.skipBlanks, Cursor.takeWhile, isBlank]

/-- A blank before a token is passed. -/
lemma next_blank (hmode : mode ∈ lineModes ∨ mode = .text) (passed : Text) (afterPattern : Bool)
    (tokenStart : ℕ) :
    next ⟨⟨passed, ' ' :: w⟩, mode, [], addresses, previous, afterPattern, tokenStart⟩ =
      next ⟨⟨' ' :: passed, w⟩, mode, [], addresses, previous, afterPattern, tokenStart⟩ := by
  rw [next_of_pending_nil rfl, next_of_pending_nil rfl]
  simp only [lineModes, List.mem_cons, List.not_mem_nil, or_false] at hmode
  rcases hmode with (rfl | rfl | rfl | rfl | rfl | rfl) | rfl <;>
    simp only [scan, command, ending, flags, wordOrEnding, numberOrEnding, text, beginToken_blank]

lemma lexes_blank (hmode : mode ∈ lineModes ∨ mode = .text) (h : Lexes mode w ts) :
    Lexes mode (' ' :: w) ts := by
  intro passed addresses previous afterPattern tokenStart
  have hblank := h (' ' :: passed) addresses previous afterPattern tokenStart
  cases ts with
  | nil => trivial
  | cons t ts =>
      rw [Feeds, next_blank hmode]
      exact hblank

lemma lexesAfter_blanks (k : ℕ) (h : LexesAfter addresses previous w ts) :
    LexesAfter addresses previous (List.replicate k ' ' ++ w) ts := by
  induction k with
  | zero => exact h
  | succ k ih =>
      intro passed afterPattern tokenStart
      have hblank := ih (' ' :: passed) afterPattern tokenStart
      cases ts with
      | nil => trivial
      | cons t ts =>
          rw [List.replicate_succ, List.cons_append, Feeds, next_blank (.inl (by decide))]
          exact hblank

/-- Characters up to one of another sort are taken together. -/
lemma takeWhile_append {p : Char → Bool} {t : Text} (ht : ∀ c ∈ t, p c = true) (hw : Stops p w)
    (passed : Text) :
    Cursor.takeWhile p ⟨passed, t ++ w⟩ = (t, ⟨t.reverse ++ passed, w⟩) := by
  have htake : w.takeWhile p = [] := by
    cases w with
    | nil => rfl
    | cons c w => rw [List.takeWhile_cons, hw c rfl]; rfl
  have hdrop : w.dropWhile p = w := by
    cases w with
    | nil => rfl
    | cons c w => rw [List.dropWhile_cons, hw c rfl]; rfl
  simp only [Cursor.takeWhile, List.takeWhile_append_of_pos ht, List.dropWhile_append_of_pos ht,
    htake, hdrop, List.append_nil]

/-- A digit is none of the signs of a script. -/
lemma exists_digit {t : Text} (hne : t ≠ []) (hdigits : ∀ c ∈ t, c.isDigit = true) :
    ∃ d rest, t = d :: rest ∧
      d ∈ ['0', '1', '2', '3', '4', '5', '6', '7', '8', '9'] := by
  obtain ⟨d, rest, rfl⟩ := List.exists_cons_of_ne_nil hne
  refine ⟨d, rest, rfl, ?_⟩
  have hd := hdigits d List.mem_cons_self
  simp only [Char.isDigit, Bool.and_eq_true, decide_eq_true_eq, ge_iff_le,
    UInt32.le_iff_toNat_le] at hd
  change 48 ≤ d.toNat ∧ d.toNat ≤ 57 at hd
  obtain ⟨hlow, hhigh⟩ := hd
  rw [← Char.ofNat_toNat d]
  interval_cases d.toNat <;> decide

/-- The number of addresses counts a number, unless it says how far a range goes. -/
def counted (addresses : ℕ) (previous : Option Kind) : ℕ :=
  if previous ≠ some .tilde && previous ≠ some .plus then addresses + 1 else addresses

lemma lexesAfter_number (k : ℕ) (hw : Stops Char.isDigit w)
    (h : LexesAfter (counted addresses previous) (some .number) w ts) :
    LexesAfter addresses previous (Text.decimal k ++ w) (⟨.number, Text.decimal k⟩ :: ts) := by
  have hdigits : ∀ c ∈ Text.decimal k, c.isDigit = true := fun c => Text.isDigit_of_mem_decimal
  obtain ⟨d, rest, hk, hd⟩ := exists_digit (Text.decimal_ne_nil k) hdigits
  intro passed afterPattern tokenStart
  have hrun := takeWhile_append hdigits hw passed
  have hnext : next ⟨⟨passed, Text.decimal k ++ w⟩, .command, [], addresses, previous, afterPattern,
      tokenStart⟩ = noted (run ⟨⟨passed, Text.decimal k ++ w⟩, .command, [],
        counted addresses previous, previous, false, passed.length⟩ .number Char.isDigit) := by
    rw [hk]
    simp only [List.mem_cons, List.not_mem_nil, or_false] at hd
    rcases hd with rfl | rfl | rfl | rfl | rfl | rfl | rfl | rfl | rfl | rfl <;> rfl
  rw [run, hrun] at hnext
  exact ⟨by rw [hnext]; rfl, by rw [hnext]; exact h _ _ _⟩

/-- The number behind a command. -/
lemma lexes_number (k : ℕ) (hw : Stops Char.isDigit w) (h : Lexes .ending w ts) :
    Lexes .number (Text.decimal k ++ w) (⟨.number, Text.decimal k⟩ :: ts) := by
  have hdigits : ∀ c ∈ Text.decimal k, c.isDigit = true := fun c => Text.isDigit_of_mem_decimal
  obtain ⟨d, rest, hk, hd⟩ := exists_digit (Text.decimal_ne_nil k) hdigits
  intro passed addresses previous afterPattern tokenStart
  have hbegin : beginToken ⟨⟨passed, Text.decimal k ++ w⟩, .number, [], addresses, previous,
      afterPattern, tokenStart⟩ = ⟨⟨passed, Text.decimal k ++ w⟩, .number, [], addresses, previous,
        afterPattern, passed.length⟩ := by
    rw [hk]
    simp only [List.mem_cons, List.not_mem_nil, or_false] at hd
    rcases hd with rfl | rfl | rfl | rfl | rfl | rfl | rfl | rfl | rfl | rfl <;> rfl
  have hnext : next ⟨⟨passed, Text.decimal k ++ w⟩, .number, [], addresses, previous, afterPattern,
      tokenStart⟩ = (⟨.number, Text.decimal k⟩, ⟨⟨(Text.decimal k).reverse ++ passed, w⟩, .ending,
        [], addresses, some .number, afterPattern, passed.length⟩) := by
    rw [next_of_pending_nil rfl]
    simp only [scan, numberOrEnding, hbegin, run, takeWhile_append hdigits hw]
    rw [if_neg (by simpa using Text.decimal_ne_nil k)]
    rfl
  exact ⟨by rw [hnext], by rw [hnext]; exact h _ _ _ _ _⟩

/-- The modes in which a word is read. -/
lemma lexes_word {p : Char → Bool} {name : Text}
    (hscan : ∀ s : Scanner, s.mode = mode → s.scan = s.wordOrEnding p) (hname : Word p name)
    (hw : Stops p w) (h : Lexes .ending w ts) :
    Lexes mode (name ++ w) (⟨.word, name⟩ :: ts) := by
  intro passed addresses previous afterPattern tokenStart
  have hbegin : beginToken ⟨⟨passed, name ++ w⟩, mode, [], addresses, previous, afterPattern,
      tokenStart⟩ = ⟨⟨passed, name ++ w⟩, mode, [], addresses, previous, afterPattern,
        passed.length⟩ := by
    obtain ⟨c, rest, rfl⟩ := List.exists_cons_of_ne_nil hname.ne_nil
    have hblank := hname.first c rfl
    simp [beginToken, markStart, Cursor.skipBlanks, Cursor.takeWhile, hblank, Cursor.position]
  have hnext : next ⟨⟨passed, name ++ w⟩, mode, [], addresses, previous, afterPattern,
      tokenStart⟩ = (⟨.word, name⟩, ⟨⟨name.reverse ++ passed, w⟩, .ending, [], addresses,
        some .word, afterPattern, passed.length⟩) := by
    rw [next_of_pending_nil rfl, hscan _ rfl]
    simp only [wordOrEnding, hbegin, run, takeWhile_append hname.chars hw]
    rw [if_neg (by simpa using hname.ne_nil)]
    rfl
  exact ⟨by rw [hnext], by rw [hnext]; exact h _ _ _ _ _⟩

lemma stops_newline {p : Char → Bool} (hp : p '\n' = false) : Stops p ('\n' :: w) := by
  rintro c hc
  cases hc
  exact hp

/-- A label up to the end of its line. -/
lemma lexes_label {name : Text} (hname : Word isLabelChar name)
    (h : LexesAfter 0 (some .newline) w ts) :
    Lexes .label (name ++ '\n' :: w) (⟨.word, name⟩ :: lineEnd :: ts) :=
  lexes_word (fun s hs => by rw [scan, hs]; rfl) hname (stops_newline (by decide))
    (lexes_newline (by decide) h)

/-- A file name up to the end of its line. -/
lemma lexes_fileName {name : Text} (hname : Word isNameChar name)
    (h : LexesAfter 0 (some .newline) w ts) :
    Lexes .fileName (name ++ '\n' :: w) (⟨.word, name⟩ :: lineEnd :: ts) :=
  lexes_word (fun s hs => by rw [scan, hs]; rfl) hname (stops_newline (by decide))
    (lexes_newline (by decide) h)

/-! ### Text between delimiters -/

/-- Tokens that wait are returned first, and the last one is remembered. -/
lemma feeds_waiting {s : Scanner} (pending : List Token) (t : Token)
    (h : Feeds { s with pending := [], previous := some t.kind } ts) (previous : Option Kind) :
    Feeds { s with pending := pending ++ [t], previous } (pending ++ t :: ts) := by
  induction pending generalizing previous with
  | nil => exact ⟨rfl, h⟩
  | cons u pending ih => exact ⟨rfl, ih (some u.kind)⟩

/-- An address between slashes. -/
lemma lexesAfter_pattern {quoted source : Text} (hsource : FieldReads quoted source)
    (h : LexesAfter (addresses + 1) (some .slash) w ts) :
    LexesAfter addresses previous ('/' :: (quoted ++ '/' :: w))
      (⟨.slash, ['/']⟩ :: (fieldTokens source ++ ⟨.slash, ['/']⟩ :: ts)) := by
  intro passed afterPattern tokenStart
  let opening : Scanner := ⟨⟨'/' :: passed, quoted ++ '/' :: w⟩, .command, [], addresses + 1,
    previous, false, passed.length⟩
  have hfield : opening.field .slash '/' = _ := field_eq (hsource ('/' :: passed) w)
  have hnext : next ⟨⟨passed, '/' :: (quoted ++ '/' :: w)⟩, .command, [], addresses, previous,
      afterPattern, tokenStart⟩ = noted (pattern ⟨⟨passed, '/' :: (quoted ++ '/' :: w)⟩, .command,
        [], addresses, previous, false, passed.length⟩ '/') := rfl
  rw [pattern] at hnext
  simp only [Cursor.advance, opening] at hnext hfield
  simp only [hfield, List.nil_append] at hnext
  refine ⟨by rw [hnext]; rfl, ?_⟩
  rw [hnext]
  exact feeds_waiting (s := ⟨⟨'/' :: (quoted.reverse ++ '/' :: passed), w⟩, .command, [],
    addresses + 1, none, true, passed.length⟩) (fieldTokens source) ⟨.slash, ['/']⟩ (h _ _ _) _

/-- The fields of a command, which are scanned at once. -/
lemma lexes_fields {after : Mode} {quoted quoted' first second : Text}
    (hscan : ∀ s : Scanner, s.mode = mode → s.scan = s.fields after)
    (hfirst : FieldReads quoted first) (hsecond : FieldReads quoted' second)
    (h : Lexes after w ts) :
    Lexes mode ('/' :: (quoted ++ '/' :: (quoted' ++ '/' :: w)))
      (fieldsTokens first second ++ ts) := by
  intro passed addresses previous afterPattern tokenStart
  have hfields := fields_eq (s := ⟨⟨passed, '/' :: (quoted ++ '/' :: (quoted' ++ '/' :: w))⟩, mode,
    [], addresses, previous, afterPattern, tokenStart⟩) after rfl
    (field_eq (hfirst _ _)) (field_eq (hsecond _ _))
  have htokens : fieldsTokens first second ++ ts = ⟨.delimiter, ['/']⟩ ::
      (fieldTokens first ++ [⟨.delimiter, ['/']⟩] ++ fieldTokens second ++
        ⟨.delimiter, ['/']⟩ :: ts) := by
    simp [fieldsTokens]
  rw [htokens, Feeds, next_of_pending_nil rfl, hscan _ rfl, hfields]
  refine ⟨rfl, ?_⟩
  exact feeds_waiting (s := ⟨⟨'/' :: (quoted'.reverse ++ '/' :: (quoted.reverse ++ '/' :: passed)),
    w⟩, after, [], addresses, none, afterPattern, passed.length⟩)
    (fieldTokens first ++ [⟨.delimiter, ['/']⟩] ++ fieldTokens second) ⟨.delimiter, ['/']⟩
    (h _ _ _ _ _) _

/-- A text up to the end of its line reads as another. -/
def LineReads (quoted text : Text) : Prop :=
  ∀ passed rest, Cursor.readUntil (· = '\n') passed (quoted ++ '\n' :: rest) =
    (text, true, ⟨quoted.reverse ++ passed, '\n' :: rest⟩)

lemma lineReads_nil : LineReads [] [] := by
  intro passed rest
  rw [List.nil_append, Cursor.readUntil_cons (by decide)]
  rfl

lemma LineReads.bare {c : Char} {quoted text : Text} (hnewline : c ≠ '\n') (hbackslash : c ≠ '\\')
    (h : LineReads quoted text) : LineReads (c :: quoted) (c :: text) := by
  intro passed rest
  rw [List.cons_append, Cursor.readUntil_cons hbackslash, if_neg (by simpa using hnewline), h]
  simp

/-- Text without escapes is read as it is. -/
lemma lineReads_self {t : Text} (ht : '\n' ∉ t ∧ '\\' ∉ t) : LineReads t t := by
  induction t with
  | nil => exact lineReads_nil
  | cons c t ih =>
      simp only [List.mem_cons, not_or] at ht
      obtain ⟨⟨hnewline, ht⟩, hbackslash, ht'⟩ := ht
      exact (ih ⟨ht, ht'⟩).bare (Ne.symm hnewline) (Ne.symm hbackslash)

/-- Behind its backslash a text begins on the next line. -/
lemma next_textBody {quoted text : Text} (htext : LineReads quoted text) (passed : Text)
    (afterPattern : Bool) (tokenStart : ℕ) :
    next ⟨⟨'\\' :: passed, '\n' :: (quoted ++ '\n' :: w)⟩, .textBody, [], addresses, previous,
        afterPattern, tokenStart⟩ =
      (⟨.text, text⟩, ⟨⟨quoted.reverse ++ '\n' :: '\\' :: passed, '\n' :: w⟩, .ending, [],
        addresses, some .text, afterPattern, passed.length + 2⟩) := by
  have hstart : textStart ⟨⟨'\\' :: passed, '\n' :: (quoted ++ '\n' :: w)⟩, .textBody, [],
      addresses, previous, afterPattern, tokenStart⟩ =
        ⟨'\n' :: '\\' :: passed, quoted ++ '\n' :: w⟩ := rfl
  rw [next_of_pending_nil rfl]
  simp only [scan, textBody_eq, hstart, htext _ _]
  rfl

/-- The text of a command, on the line after its backslash. -/
lemma lexes_text {quoted text : Text} (htext : LineReads quoted text)
    (h : LexesAfter 0 (some .newline) w ts) :
    Lexes .text ('\\' :: '\n' :: (quoted ++ '\n' :: w))
      (⟨.backslash, ['\\']⟩ :: ⟨.text, text⟩ :: lineEnd :: ts) := by
  intro passed addresses previous afterPattern tokenStart
  refine ⟨rfl, ?_⟩
  have hline : Lexes .ending ('\n' :: w) (lineEnd :: ts) := lexes_newline (by decide) h
  change (next ⟨⟨'\\' :: passed, '\n' :: (quoted ++ '\n' :: w)⟩, .textBody, [], addresses,
    some .backslash, afterPattern, passed.length⟩).1 = _ ∧ Feeds (next ⟨⟨'\\' :: passed,
      '\n' :: (quoted ++ '\n' :: w)⟩, .textBody, [], addresses, some .backslash, afterPattern,
        passed.length⟩).2 _
  rw [next_textBody htext]
  exact ⟨rfl, hline _ _ _ _ _⟩

/-! ### Flags -/

lemma lexes_occurrence (k : ℕ) (hw : Stops Char.isDigit w) (h : Lexes .flags w ts) :
    Lexes .flags ((if k > 1 then Text.decimal k else []) ++ w)
      ((if k > 1 then [⟨.number, Text.decimal k⟩] else []) ++ ts) := by
  split
  case isFalse => exact h
  have hdigits : ∀ c ∈ Text.decimal k, c.isDigit = true := fun c => Text.isDigit_of_mem_decimal
  obtain ⟨d, rest, hk, hd⟩ := exists_digit (Text.decimal_ne_nil k) hdigits
  intro passed addresses previous afterPattern tokenStart
  have hrun := takeWhile_append hdigits hw passed
  have hnext : next ⟨⟨passed, Text.decimal k ++ w⟩, .flags, [], addresses, previous, afterPattern,
      tokenStart⟩ = noted (run ⟨⟨passed, Text.decimal k ++ w⟩, .flags, [], addresses, previous,
        afterPattern, passed.length⟩ .number Char.isDigit) := by
    rw [hk]
    simp only [List.mem_cons, List.not_mem_nil, or_false] at hd
    rcases hd with rfl | rfl | rfl | rfl | rfl | rfl | rfl | rfl | rfl | rfl <;> rfl
  rw [run, hrun] at hnext
  exact ⟨by rw [hnext]; rfl, by rw [hnext]; exact h _ _ _ _ _⟩

lemma lexes_everywhere (everywhere : Bool) (h : Lexes .flags w ts) :
    Lexes .flags ((if everywhere then ['g'] else []) ++ w)
      ((if everywhere then [⟨.word, ['g']⟩] else []) ++ ts) := by
  cases everywhere with
  | false => exact h
  | true => exact fun _ _ _ _ _ => ⟨rfl, h _ _ _ _ _⟩

lemma lexes_print (print : Bool) (h : Lexes .flags w ts) :
    Lexes .flags ((if print then ['p'] else []) ++ w)
      ((if print then [⟨.word, ['p']⟩] else []) ++ ts) := by
  cases print with
  | false => exact h
  | true => exact fun _ _ _ _ _ => ⟨rfl, h _ _ _ _ _⟩

lemma lexes_write (h : Lexes .fileName w ts) : Lexes .flags ('w' :: w) (⟨.word, ['w']⟩ :: ts) :=
  fun _ _ _ _ _ => ⟨rfl, h _ _ _ _ _⟩

/-! ### Addresses -/

/-- The tokens of an address, behind which the next sign is not taken for a part of it. -/
lemma lexesAfter_address {a : Address} (ha : ∀ re ∈ a.regex?, FieldReads re.source re.source)
    (hcounted : counted addresses previous = addresses + 1) (hw : Stops Char.isDigit w)
    (h : ∀ previous, endsAddress previous = true → LexesAfter (addresses + 1) previous w ts) :
    LexesAfter addresses previous (a.render ++ w) (a.tokens ++ ts) := by
  cases a with
  | line k =>
      refine lexesAfter_number k hw ?_
      rw [hcounted]
      exact h _ rfl
  | last => exact lexesAfter_dollar (h _ rfl)
  | zero =>
      refine lexesAfter_number 0 hw ?_
      rw [hcounted]
      exact h _ rfl
  | step first every =>
      have hevery : LexesAfter (addresses + 1) (some .tilde) (Text.decimal every ++ w)
          (⟨.number, Text.decimal every⟩ :: ts) := lexesAfter_number every hw (h _ rfl)
      rw [Address.render, List.append_assoc]
      refine lexesAfter_number first ?_ ?_
      · rintro c hc
        cases hc
        rfl
      · rw [hcounted]
        exact lexesAfter_tilde (.inl rfl) hevery
  | pattern regex =>
      have hregex : FieldReads ((regex.map (·.source)).getD [])
          ((regex.map (·.source)).getD []) := by
        cases regex with
        | none => exact Quoted.readsAs_nil.fieldReads
        | some re => exact ha re rfl
      have hpattern : LexesAfter addresses previous _ _ := lexesAfter_pattern hregex (h _ rfl)
      cases regex with
      | none => exact hpattern
      | some re =>
          simp only [Address.render, Address.tokens, List.cons_append, List.append_assoc]
          exact hpattern

lemma lexesAfter_rangeEnd {stop : RangeEnd}
    (hstop : ∀ re ∈ stop.regex?, FieldReads re.source re.source) (hw : Stops Char.isDigit w)
    (h : Lexes .command w ts) :
    LexesAfter 1 (some .comma) (stop.render ++ w) (stop.tokens ++ ts) := by
  cases stop with
  | address a => exact lexesAfter_address hstop rfl hw fun _ _ => h.after _ _
  | following k => exact lexesAfter_plus (lexesAfter_number k hw (h.after _ _))
  | multiple k => exact lexesAfter_tilde (.inr rfl) (lexesAfter_number k hw (h.after _ _))

/-- The tokens of a selection at the beginning of a line. -/
lemma lexesAfter_selection {s : Selection}
    (hs : ∀ re ∈ s.expressions, FieldReads re.source re.source)
    (hcounted : counted 0 previous = 1) (hw : Stops Char.isDigit w) (h : Lexes .command w ts) :
    LexesAfter 0 previous (s.render ++ w) (s.tokens ++ ts) := by
  cases s with
  | all => exact h.after 0 previous
  | single a =>
      exact lexesAfter_address (fun re hre => hs re (by simpa [Selection.expressions] using hre))
        hcounted hw fun _ _ => h.after _ _
  | range start stop slot =>
      simp only [Selection.expressions, List.mem_append, Option.mem_toList] at hs
      have hstop := lexesAfter_rangeEnd (fun re hre => hs re (.inr hre)) hw h
      rw [Selection.render, Selection.tokens, List.append_assoc, List.append_assoc]
      refine lexesAfter_address (fun re hre => hs re (.inl hre)) hcounted ?_ fun previous hends =>
        lexesAfter_comma hends hstop
      rintro c hc
      cases hc
      rfl

/-! ### Commands -/

/-- The name of a target is a file name. -/
lemma word_target {files : List OutputFile} {target : Target}
    (htarget : ∀ i, target = .file i → ∃ f, files[i]? = some f ∧ f.Writable) :
    Word isNameChar (target.name files) := by
  cases target with
  | output =>
      have hfirst : ∀ c ∈ (Text.ofString "/dev/stdout").head?, isBlank c = false := by
        simp [Text.ofString, isBlank]
      exact ⟨show Text.ofString "/dev/stdout" ≠ [] by decide,
        List.all_eq_true.1 (show (Text.ofString "/dev/stdout").all isNameChar = true by decide),
        hfirst⟩
  | errors =>
      have hfirst : ∀ c ∈ (Text.ofString "/dev/stderr").head?, isBlank c = false := by
        simp [Text.ofString, isBlank]
      exact ⟨show Text.ofString "/dev/stderr" ≠ [] by decide,
        List.all_eq_true.1 (show (Text.ofString "/dev/stderr").all isNameChar = true by decide),
        hfirst⟩
  | file i =>
      obtain ⟨f, hf, hword⟩ := htarget i rfl
      rw [Target.name, hf]
      exact hword.word

/-- The flags of a substitution up to the end of its line. -/
lemma lexes_flags {files : List OutputFile} {s : Substitution}
    (hwrite : ∀ t ∈ s.write, Word isNameChar (t.name files))
    (h : LexesAfter 0 (some .newline) w ts) :
    Lexes .flags ((if s.occurrence > 1 then Text.decimal s.occurrence else [])
        ++ ((if s.everywhere then ['g'] else []) ++ ((if s.print then ['p'] else [])
          ++ ((match s.write with
            | some target => 'w' :: ' ' :: target.name files
            | none => []) ++ '\n' :: w))))
      (s.flagTokens files ++ lineEnd :: ts) := by
  obtain ⟨regex, template, occurrence, everywhere, print, write⟩ := s
  simp only [Substitution.flagTokens, List.append_assoc]
  refine lexes_occurrence occurrence ?_ (lexes_everywhere everywhere (lexes_print print ?_))
  · rintro c hc
    cases everywhere <;> cases print <;> cases write <;> cases hc <;> rfl
  · cases write with
    | none => exact lexes_newline (by decide) h
    | some target =>
        exact lexes_write (lexes_blank (.inl (by decide)) (lexes_fileName (hwrite target rfl) h))

lemma lexes_substitution {files : List OutputFile} {s : Substitution}
    (hregex : ∀ re ∈ s.regex, FieldReads re.source re.source)
    (htemplate : ∃ replacement, s.template = .compile replacement)
    (hwrite : ∀ t ∈ s.write, Word isNameChar (t.name files))
    (h : LexesAfter 0 (some .newline) w ts) :
    Lexes .command (s.render files ++ '\n' :: w)
      ((Action.substitute s).tokens files 's' ++ lineEnd :: ts) := by
  obtain ⟨replacement, htemplate⟩ := htemplate
  have hsource : FieldReads ((s.regex.map (·.source)).getD [])
      ((s.regex.map (·.source)).getD []) := by
    cases hs : s.regex with
    | none => exact Quoted.readsAs_nil.fieldReads
    | some re => exact hregex re hs
  have hsecond : FieldReads s.template.render s.template.scanned := by
    rw [htemplate]
    exact Template.fieldReads_render replacement
  have hfields : Lexes .substitution _ _ := lexes_fields (fun s hs => by rw [scan, hs]) hsource
    hsecond (lexes_flags hwrite h)
  have hs : Argument.ofLetter? false 's' = some (.substitution, 2) := rfl
  have hletter := lexes_letter hs hfields
  simp only [Substitution.render, Action.tokens, List.append_assoc, List.cons_append,
    List.nil_append] at hletter ⊢
  exact hletter

/-- Two sets between slashes. -/
lemma lexes_sets {quoted quoted' first second : Text} (hfirst : FieldReads quoted first)
    (hsecond : FieldReads quoted' second) (h : LexesAfter 0 (some .newline) w ts) :
    Lexes .command ('y' :: '/' :: (quoted ++ '/' :: (quoted' ++ '/' :: '\n' :: w)))
      (⟨.command, ['y']⟩ :: (fieldsTokens first second ++ lineEnd :: ts)) := by
  have hfields : Lexes .transliteration _ _ := lexes_fields (fun s hs => by rw [scan, hs])
    hfirst hsecond (lexes_newline (by decide) h)
  have hy : Argument.ofLetter? false 'y' = some (.transliteration, 2) := rfl
  exact lexes_letter hy hfields

lemma lexes_transliteration {files : List OutputFile} {y : Transliteration}
    (hsets : ∀ c ∈ y.source ++ y.target, c.isAlphanum = true)
    (h : LexesAfter 0 (some .newline) w ts) :
    Lexes .command ((Action.transliterate y).render files 'y' ++ '\n' :: w)
      ((Action.transliterate y).tokens files 'y' ++ lineEnd :: ts) := by
  rw [List.forall_mem_append] at hsets
  have hreads : ∀ t : Text, (∀ c ∈ t, c.isAlphanum = true) → FieldReads t t := by
    refine fun t ht => (Quoted.readsAs_self fun c hc => ?_).fieldReads
    have hc := ht c hc
    constructor
    all_goals
      rintro rfl
      exact absurd hc (by decide)
  have hletter := lexes_sets (hreads _ hsets.1) (hreads _ hsets.2) h
  simp only [Action.render, Action.tokens, Text.escaped_alphanum hsets.1,
    Text.escaped_alphanum hsets.2, List.append_assoc, List.cons_append,
    List.nil_append] at hletter ⊢
  exact hletter

lemma lexes_textArgument {files : List OutputFile} {posix : Bool} {letter : Char} {text : Text}
    (hletter : Argument.ofLetter? posix letter = some (.text, n))
    (htext : '\n' ∉ text ∧ '\\' ∉ text) (h : LexesAfter 0 (some .newline) w ts) :
    Lexes .command ((Action.ofText letter text).render files letter ++ '\n' :: w)
      ((Action.ofText letter text).tokens files letter ++ lineEnd :: ts) := by
  have hpieces : Text.pieces '\n' text = [text] := by
    clear h hletter
    induction text with
    | nil => rfl
    | cons c text ih =>
        simp only [List.mem_cons, not_or] at htext
        obtain ⟨⟨hnewline, htext⟩, -, hbackslash⟩ := htext
        rw [Text.pieces, if_neg (Ne.symm hnewline), ih ⟨htext, hbackslash⟩]
  have hbody := lexes_letter hletter (lexes_text (lineReads_self htext) h)
  unfold Action.ofText
  split <;> simpa [Action.render, Action.tokens, hpieces] using hbody

lemma lexes_plain {files : List OutputFile} {posix : Bool} {letter : Char}
    (hletter : Argument.ofLetter? posix letter = some (.nothing, n))
    (h : LexesAfter 0 (some .newline) w ts) :
    Lexes .command ((plainAction letter).render files letter ++ '\n' :: w)
      ((plainAction letter).tokens files letter ++ lineEnd :: ts) := by
  have hline := lexes_letter hletter (lexes_newline (by decide) h)
  unfold plainAction
  split <;> exact hline

lemma lexes_numberArgument {files : List OutputFile} {posix : Bool} {letter : Char} {a : Action}
    (hletter : Argument.ofLetter? posix letter = some (.number, n))
    {o : Options} (ha : Argument.number.Writes o letter a) (h : LexesAfter 0 (some .newline) w ts) :
    Lexes .command (a.render files letter ++ '\n' :: w)
      (a.tokens files letter ++ lineEnd :: ts) := by
  have hnone := lexes_letter hletter (lexes_newline (by decide) h)
  have hsome : ∀ k, Lexes .command (letter :: ' ' :: (Text.decimal k ++ '\n' :: w))
      (⟨.command, [letter]⟩ :: ⟨.number, Text.decimal k⟩ :: lineEnd :: ts) := fun k =>
    lexes_letter hletter (lexes_blank (.inl (by decide)) (lexes_number k (stops_newline rfl)
      (lexes_newline (by decide) h)))
  rw [Argument.Writes] at ha
  split at ha
  · rename_i hl
    subst hl
    obtain ⟨width, rfl, -⟩ := ha
    cases width with
    | none => exact hnone
    | some k => exact hsome k
  · obtain ⟨code, rfl, -⟩ := ha
    rw [Action.render, Action.tokens]
    split
    · exact hnone
    · exact hsome code

/-- The source of a pattern that holds no slash is read as it is. -/
lemma fieldReads_source {re : Regex} (hre : re.Writable) (hslash : '/' ∉ re.source) :
    FieldReads re.source re.source := (hre.spelled.readsAs hslash).fieldReads

/-- The tokens of a command letter and its argument. -/
lemma lexes_argument {files : List OutputFile} {o : Options} {letter : Char} {kind : Argument}
    {a : Action} (hletter : Argument.ofLetter? o.posix letter = some (kind, n))
    (ha : kind.Writes o letter a) (hregex : ∀ re ∈ a.regex?, '/' ∉ re.source)
    (htext : ∀ t ∈ a.text?, '\n' ∉ t ∧ '\\' ∉ t)
    (hsets : ∀ y, a = .transliterate y → ∀ x ∈ y.source ++ y.target, x.isAlphanum = true)
    (htarget : ∀ t ∈ a.target?, Word isNameChar (t.name files))
    (h : LexesAfter 0 (some .newline) w ts) :
    Lexes .command (a.render files letter ++ '\n' :: w)
      (a.tokens files letter ++ lineEnd :: ts) := by
  have hname : ∀ {name : Text}, kind.mode = .fileName → Word isNameChar name →
      Lexes .command (letter :: ' ' :: (name ++ '\n' :: w))
        (⟨.command, [letter]⟩ :: ⟨.word, name⟩ :: lineEnd :: ts) := by
    intro name hmode hname
    refine lexes_letter hletter ?_
    rw [hmode]
    exact lexes_blank (.inl (by decide)) (lexes_fileName hname h)
  cases kind with
  | nothing =>
      obtain rfl := ha
      exact lexes_plain hletter h
  | label =>
      obtain ⟨goal, rfl, hgoal⟩ := ha
      cases goal with
      | none => exact lexes_letter hletter (lexes_newline (by decide) h)
      | some name =>
          exact lexes_letter hletter (lexes_blank (.inl (by decide))
            (lexes_label (hgoal name rfl) h))
  | number => exact lexes_numberArgument hletter ha h
  | readName =>
      obtain ⟨-, name, hword, rfl⟩ := ha
      split <;> exact hname rfl hword
  | writeName =>
      obtain ⟨-, target, rfl⟩ := ha
      split at htarget
      · rename_i hW
        rw [if_pos hW]
        exact hname rfl (htarget target rfl)
      · rename_i hW
        rw [if_neg hW]
        exact hname rfl (htarget target rfl)
  | text =>
      obtain ⟨text, rfl⟩ := ha
      refine lexes_textArgument hletter (htext text ?_) h
      unfold Action.ofText
      split <;> rfl
  | substitution =>
      obtain ⟨s, rfl, hs, -⟩ := ha
      obtain rfl : letter = 's' := Argument.eq_of_substitution hletter
      exact lexes_substitution (fun re hre => fieldReads_source (hs.regex re hre) (hregex re hre))
        hs.template htarget h
  | transliteration =>
      obtain ⟨y, rfl, -⟩ := ha
      obtain rfl : letter = 'y' := Argument.eq_of_transliteration hletter
      exact lexes_transliteration (hsets y rfl) h

/-- The tokens of what a command does, up to the end of its line. -/
lemma lexes_action {files : List OutputFile} {o : Options} {extended : Bool} {c : Command}
    (hwritable : c.Writable o) (hprintable : c.Printable extended)
    (htarget : ∀ t ∈ c.action.target?, Word isNameChar (t.name files))
    (h : LexesAfter 0 (some .newline) w ts) :
    Lexes .command (c.action.render files c.letter ++ '\n' :: w)
      (c.action.tokens files c.letter ++ lineEnd :: ts) := by
  cases hwritable with
  | openBlock hletter haction =>
      rw [hletter, haction]
      exact lexes_openBrace (lexes_newline (by decide) h)
  | closeBlock hletter haction =>
      rw [hletter, haction]
      exact lexes_closeBrace (lexes_newline (by decide) h)
  | label hletter haction _ _ hname =>
      rw [haction]
      exact lexes_colon (lexes_label hname h)
  | command hletter haction =>
      refine lexes_argument hletter haction (fun re hre => ?_) hprintable.text hprintable.sets
        htarget h
      exact (hprintable.regexes re (List.mem_append_right _ (Option.mem_toList.2 hre))).2

/-- Where the first token is no number the text begins with no digit. -/
lemma Lexes.stops {t : Token} (h : Lexes .command w (t :: ts)) (ht : t.kind ≠ .number) :
    Stops Char.isDigit w := by
  rintro c hc
  by_contra hdigit
  obtain ⟨rest, rfl⟩ := List.head?_eq_some_iff.1 hc
  have hd : ∃ d ∈ ['0', '1', '2', '3', '4', '5', '6', '7', '8', '9'], c = d := by
    obtain ⟨d, _, heq, hmem⟩ := exists_digit (t := [c]) (List.cons_ne_nil _ _)
      (by simpa using hdigit)
    cases heq
    exact ⟨c, hmem, rfl⟩
  have hnext := (h [] 0 none false 0).1
  refine ht ?_
  rw [← hnext]
  simp only [List.mem_cons, List.not_mem_nil, or_false, exists_eq_or_imp, exists_eq_left] at hd
  rcases hd with rfl | rfl | rfl | rfl | rfl | rfl | rfl | rfl | rfl | rfl <;> rfl

/-- The tokens of a command, up to the end of its line. -/
lemma lexes_command {files : List OutputFile} {o : Options} {extended : Bool} {c : Command}
    (hwritable : c.Writable o) (hprintable : c.Printable extended)
    (htarget : ∀ t ∈ c.action.target?, Word isNameChar (t.name files))
    (hcounted : counted 0 previous = 1) (h : LexesAfter 0 (some .newline) w ts) :
    LexesAfter 0 previous (c.render files ++ '\n' :: w) (c.tokens files ++ lineEnd :: ts) := by
  have haction := lexes_action hwritable hprintable htarget h
  obtain ⟨t, us, htokens, hkind⟩ := c.action.exists_tokens files c.letter
  have hsource : ∀ re ∈ c.selection.expressions, FieldReads re.source re.source := fun re hre =>
    fieldReads_source (hwritable.selection.expressions re hre)
      (hprintable.regexes re (List.mem_append_left _ hre)).2
  rw [Command.render, Command.tokens]
  simp only [List.append_assoc]
  refine lexesAfter_selection hsource hcounted ?_ ?_
  · cases c.negated with
    | false =>
        rw [htokens] at haction
        refine haction.stops ?_
        rintro hnumber
        rw [hnumber] at hkind
        exact absurd hkind (by decide)
    | true =>
        rintro d hd
        cases hd
        rfl
  · cases c.negated with
    | false => exact haction
    | true => exact lexes_bang haction

/-- The tokens of the lines of a program. -/
lemma lexes_renderCommands {files : List OutputFile} {o : Options} {extended : Bool}
    {commands : List Command} (hwritable : ∀ c ∈ commands, c.Writable o)
    (hprintable : ∀ c ∈ commands, c.Printable extended)
    (htarget : ∀ c ∈ commands, ∀ t ∈ c.action.target?, Word isNameChar (t.name files))
    (hcounted : counted 0 previous = 1) (depth : ℕ) :
    LexesAfter 0 previous (Program.renderCommands files depth commands)
      (Program.lineTokens files commands ++ [.endOfScript]) := by
  induction commands generalizing depth previous with
  | nil => exact lexesAfter_end
  | cons c commands ih =>
      rw [List.forall_mem_cons] at hwritable hprintable htarget
      have hcounted' : counted 0 (some .newline) = 1 := rfl
      have hrest := ih hwritable.2 hprintable.2 htarget.2 hcounted'
      rw [Program.renderCommands, Program.lineTokens, List.flatMap_cons]
      simp only [List.append_assoc, List.cons_append]
      exact lexesAfter_blanks _ (lexes_command hwritable.1 hprintable.1 htarget.1 hcounted
        (hrest _))

end Scanner

end StreamEditor
