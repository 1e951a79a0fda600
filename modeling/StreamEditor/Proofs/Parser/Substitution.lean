import StreamEditor.Proofs.Parser.Yields

/-!
Reading a script that is one command, above all a substitution wherever its pattern occurs.

* `Scanner.Feeds`, `Parser.Ahead`: the tokens to come.
* `Parser.Onward`: the parts of the parser that only pass tokens change nothing else.
* `Parser.run_statements_line`: a command without addresses, on a line of its own.
* `Program.parse_one`, `Program.parse_one_error`: a script that is one command says what its
  argument is, and fails where its argument does.
* `feeds_substitution`, `Program.parse_substitution`: a script that is one substitution.
-/

namespace StreamEditor

variable {library : Regex.Library}

/-- The last line of a script is ended. -/
lemma Script.text_ofText_concat (script : Text) {c : Char} (hc : c ≠ '\n') :
    (ofText (script ++ [c])).text = script ++ [c] ++ ['\n'] := by
  change [] ++ terminated _ = _
  rw [terminated, List.getLast?_concat, if_neg (by simpa using hc), List.nil_append]

/-- A substitution in all places. -/
def Substitution.ofAll (re : Regex) (template : Template) : Substitution where
  regex := some re
  template
  occurrence := 1
  everywhere := true
  print := false
  write := none

/-- The command that substitutes in all places of all records. -/
def Command.substituteEverywhere (re : Regex) (template : Template) (place : Location) : Command :=
  ⟨'s', .all, false, .substitute (.ofAll re template), place⟩

namespace Scanner

/-- The scanner returns these tokens first. -/
def Feeds : Scanner → List Token → Prop
  | _, [] => True
  | s, t :: ts => s.next.1 = t ∧ Feeds s.next.2 ts

/-- The token of a field; an empty one has none. -/
def fieldTokens (field : Text) : List Token := if field = [] then [] else [⟨.text, field⟩]

/-- Tokens that wait are returned before others. -/
lemma feeds_pending {s : Scanner} {ts : List Token} (pending : List Token)
    (h : ∀ previous, Feeds { s with pending := [], previous } ts) (previous : Option Token.Kind) :
    Feeds { s with pending, previous } (pending ++ ts) := by
  induction pending generalizing previous with
  | nil => exact h previous
  | cons t pending ih => exact ⟨rfl, ih (some t.kind)⟩

lemma field_eq {s : Scanner} {kind : Token.Kind} {delimiter : Char} {text passed ahead : Text}
    (h : Cursor.readUntil (· = delimiter) s.cursor.passed s.cursor.ahead =
      (text, true, ⟨passed, delimiter :: ahead⟩)) :
    s.field kind delimiter =
      (true, { s with
        cursor := ⟨delimiter :: passed, ahead⟩
        pending := s.pending ++ fieldTokens text ++ [⟨kind, [delimiter]⟩] }) := by
  rw [field, h]
  cases text with
  | nil => rfl
  | cons c text => rfl

/-- A field between slashes reads as a text. -/
def FieldReads (quoted text : Text) : Prop :=
  ∀ passed rest, Cursor.readUntil (· = '/') passed (quoted ++ '/' :: rest) =
    (text, true, ⟨quoted.reverse ++ passed, '/' :: rest⟩)

/-- The tokens of a substitution in all places. -/
def substitutionTokens (first second : Text) : List Token :=
  ⟨.command, ['s']⟩ :: ⟨.delimiter, ['/']⟩ :: (fieldTokens first ++ ⟨.delimiter, ['/']⟩ ::
    (fieldTokens second ++ [⟨.delimiter, ['/']⟩, ⟨.word, ['g']⟩, ⟨.newline, ['\n']⟩,
      .endOfScript]))

lemma feeds_flags (passed : Text) (tokenStart : ℕ) (previous : Option Token.Kind) :
    Feeds ⟨⟨passed, ['g', '\n']⟩, .flags, [], 0, previous, false, tokenStart⟩
      [⟨.word, ['g']⟩, ⟨.newline, ['\n']⟩, .endOfScript] :=
  ⟨rfl, rfl, rfl, trivial⟩

/-- A scanner behind the first delimiter of two fields. -/
def opened (s : Scanner) (passed ahead : Text) : Scanner :=
  { s with
    cursor := ⟨'/' :: passed, ahead⟩
    mode := .ending
    tokenStart := passed.length }

/-- Both fields are read at once. -/
lemma fields_eq {s s₁ s₂ : Scanner} {passed ahead : Text} (after : Mode)
    (hcursor : s.cursor = ⟨passed, '/' :: ahead⟩)
    (hfirst : (s.opened passed ahead).field .delimiter '/' = (true, s₁))
    (hsecond : s₁.field .delimiter '/' = (true, s₂)) :
    s.fields after = (⟨.delimiter, ['/']⟩, { s₂ with mode := after }) := by
  obtain ⟨cursor, mode, pending, addresses, previous, afterPattern, tokenStart⟩ := s
  obtain rfl : cursor = _ := hcursor
  rw [opened] at hfirst
  rw [fields]
  simp only [markStart, Cursor.peek, Cursor.advance, Cursor.position, List.head?_cons]
  rw [if_neg (by decide)]
  simp only [hfirst, hsecond, if_true]

/-- The fields of a command wait behind the first delimiter. -/
lemma next_fields {mode after : Mode} {quoted quoted' first second : Text}
    (hscan : ∀ s : Scanner, s.mode = mode → s.scan = s.fields after)
    (hfirst : FieldReads quoted first) (hsecond : FieldReads quoted' second) (passed rest : Text)
    (addresses : ℕ) (previous : Option Token.Kind) (afterPattern : Bool) (tokenStart : ℕ) :
    next ⟨⟨passed, '/' :: (quoted ++ '/' :: (quoted' ++ '/' :: rest))⟩, mode, [], addresses,
        previous, afterPattern, tokenStart⟩ =
      (⟨.delimiter, ['/']⟩, ⟨⟨'/' :: (quoted'.reverse ++ '/' :: (quoted.reverse ++ '/' :: passed)),
        rest⟩, after, fieldTokens first ++ [⟨.delimiter, ['/']⟩] ++ fieldTokens second ++
          [⟨.delimiter, ['/']⟩], addresses, some .delimiter, afterPattern, passed.length⟩) := by
  have hfields := fields_eq (s := ⟨⟨passed, '/' :: (quoted ++ '/' :: (quoted' ++ '/' :: rest))⟩,
    mode, [], addresses, previous, afterPattern, tokenStart⟩) after rfl
    (field_eq (hfirst _ _)) (field_eq (hsecond _ _))
  have hscanned := hscan ⟨⟨passed, '/' :: (quoted ++ '/' :: (quoted' ++ '/' :: rest))⟩, mode, [],
    addresses, previous, afterPattern, tokenStart⟩ rfl
  rw [next]
  simp only [hscanned, hfields]
  rfl

lemma feeds_substitution {quoted quoted' first second : Text} (hfirst : FieldReads quoted first)
    (hsecond : FieldReads quoted' second) :
    Feeds (.start ('s' :: '/' :: (quoted ++ '/' :: (quoted' ++ ['/', 'g', '\n']))))
      (substitutionTokens first second) := by
  refine ⟨rfl, ?_⟩
  have hscan : ∀ s : Scanner, s.mode = .substitution → s.scan = s.fields .flags :=
    fun s hs => by rw [scan, hs]
  have hnext := next_fields hscan hfirst hsecond ['s'] ['g', '\n'] 0 (some .command) false 0
  have hstart : (next (.start ('s' :: '/' :: (quoted ++ '/' :: (quoted' ++ ['/', 'g', '\n']))))).2 =
      ⟨⟨['s'], '/' :: (quoted ++ '/' :: (quoted' ++ '/' :: ['g', '\n']))⟩, .substitution,
        [], 0, some .command, false, 0⟩ := rfl
  rw [hstart]
  refine ⟨by rw [hnext], ?_⟩
  rw [hnext]
  have h := feeds_pending
    (s := ⟨⟨'/' :: (quoted'.reverse ++ '/' :: (quoted.reverse ++ '/' :: ['s'])), ['g', '\n']⟩,
      .flags, [], 0, none, false, 1⟩)
    (fieldTokens first ++ [⟨.delimiter, ['/']⟩] ++ fieldTokens second ++ [⟨.delimiter, ['/']⟩])
    (feeds_flags _ 1) (some .delimiter)
  simpa using h

end Scanner

namespace Parser

open Scanner (Feeds fieldTokens substitutionTokens)
open Token (Kind)

/-- The current token and those to come. -/
def Ahead (p : Parser) : List Token → Prop
  | [] => True
  | t :: ts => p.token = t ∧ Feeds p.scanner ts

/-- Only tokens are passed between two states of the parser. -/
structure Onward (p q : Parser) : Prop where
  draft : q.draft = p.draft
  script : q.script = p.script
  options : q.options = p.options

lemma Onward.refl (p : Parser) : Onward p p := ⟨rfl, rfl, rfl⟩

lemma Onward.trans {p q r : Parser} (h : Onward p q) (h' : Onward q r) : Onward p r :=
  ⟨h'.draft.trans h.draft, h'.script.trans h.script, h'.options.trans h.options⟩

lemma onward_advanced (p : Parser) : Onward p p.advanced := ⟨rfl, rfl, rfl⟩

lemma Ahead.advanced {p : Parser} {t : Token} {ts : List Token} (h : Ahead p (t :: ts)) :
    Ahead p.advanced ts := by
  cases ts with
  | nil => trivial
  | cons u ts => exact h.2

/-- A part succeeds with a result, passes tokens up to those that are then ahead, and changes
nothing else. -/
def Reads {α : Type} (m : Parse α) (p : Parser) (a : α) (ts : List Token) : Prop :=
  ∃ q, m.run p = .ok (a, q) ∧ Onward p q ∧ Ahead q ts

section Reads

variable {α β : Type} {m : Parse α} {f : α → Parse β} {p : Parser} {a : α} {b : β} {t : Token}
  {ts us : List Token}

lemma run_bind_of_ok {q : Parser} (h : m.run p = .ok (a, q)) :
    (m >>= f).run p = (f a).run q := by
  rw [run_bind, h]
  rfl

lemma run_get_bind (f : Parser → Parse β) :
    (MonadState.get >>= f : Parse β).run p = (f p).run p := rfl

lemma run_literalIf_of_eq {kind : Kind} (h : p.token.kind = kind) :
    (literalIf kind).run p = .ok (some p.token.literal, p.advanced) := by
  refine (run_get_bind _).trans ?_
  rw [if_pos h]
  rfl

lemma run_literalIf_of_ne {kind : Kind} (h : p.token.kind ≠ kind) :
    (literalIf kind).run p = .ok (none, p) := by
  refine (run_get_bind _).trans ?_
  rw [if_neg h]
  rfl

lemma Reads.pure (h : Ahead p ts) : Reads (Pure.pure a) p a ts := ⟨p, rfl, .refl p, h⟩

lemma Reads.bind (hm : Reads m p a ts)
    (hf : ∀ q, Onward p q → Ahead q ts → Reads (f a) q b us) : Reads (m >>= f) p b us := by
  obtain ⟨q, hrun, honward, hahead⟩ := hm
  obtain ⟨r, hrun', honward', hahead'⟩ := hf q honward hahead
  exact ⟨r, (run_bind_of_ok hrun).trans hrun', honward.trans honward', hahead'⟩

lemma reads_get {f : Parser → Parse β} (h : Reads (f p) p b us) :
    Reads (MonadState.get >>= f) p b us := h

lemma reads_advance (h : Ahead p (t :: ts)) : Reads advance p ⟨⟩ ts :=
  ⟨p.advanced, rfl, onward_advanced p, h.advanced⟩

lemma reads_isAt (kind : Kind) (h : Ahead p (t :: ts)) :
    Reads (isAt kind) p (decide (t.kind = kind)) (t :: ts) :=
  ⟨p, by rw [← h.1]; rfl, .refl p, h⟩

lemma reads_literalIf {kind : Kind} (h : Ahead p (t :: ts)) (ht : t.kind = kind) :
    Reads (literalIf kind) p (some t.literal) ts := by
  obtain ⟨rfl, -⟩ := id h
  exact ⟨p.advanced, run_literalIf_of_eq ht, onward_advanced p, h.advanced⟩

lemma reads_literalIf_of_ne (kind : Kind) (h : Ahead p (t :: ts)) (ht : t.kind ≠ kind) :
    Reads (literalIf kind) p none (t :: ts) := by
  obtain ⟨rfl, -⟩ := id h
  exact ⟨p, run_literalIf_of_ne ht, .refl p, h⟩

lemma reads_currentChar {c : Char} {kind : Kind} (h : Ahead p (⟨kind, [c]⟩ :: ts)) :
    Reads currentChar p c (⟨kind, [c]⟩ :: ts) :=
  reads_get (by rw [h.1]; exact .pure h)

/-- The token of a field, which may be missing, is passed. -/
lemma reads_literalText {text : Text} (h : Ahead p (fieldTokens text ++ t :: ts))
    (ht : t.kind ≠ .text) :
    ∃ found, found.getD [] = text ∧ Reads (literalIf .text) p found (t :: ts) := by
  cases text with
  | nil => exact ⟨none, rfl, reads_literalIf_of_ne .text h ht⟩
  | cons c text => exact ⟨some (c :: text), rfl, reads_literalIf h rfl⟩

/-- A field and the delimiter before it are passed. -/
lemma reads_field {letter : Char} {text delimiter : Text}
    (h : Ahead p (⟨.delimiter, delimiter⟩ :: (fieldTokens text ++ t :: ts))) (ht : t.kind ≠ .text) :
    Reads (field letter) p text (t :: ts) := by
  refine (reads_isAt .delimiter h).bind fun q _ hq => ?_
  rw [decide_eq_true rfl, if_pos rfl]
  refine (reads_advance hq).bind fun r _ hr => ?_
  obtain ⟨found, rfl, hfound⟩ := reads_literalText hr ht
  exact hfound.bind fun q _ h => .pure h

lemma reads_fields {letter : Char} {first second delimiter : Text}
    (h : Ahead p (t :: ⟨.delimiter, delimiter⟩ :: (fieldTokens first ++ ⟨.delimiter, delimiter⟩ ::
      (fieldTokens second ++ ⟨.delimiter, delimiter⟩ :: ts)))) :
    Reads (fields letter) p (first, second) (⟨.delimiter, delimiter⟩ :: ts) := by
  refine (reads_advance h).bind fun q _ h => ?_
  refine (reads_isAt .illegal h).bind fun q _ h => ?_
  rw [decide_eq_false nofun, if_neg Bool.false_ne_true]
  refine (reads_field h nofun).bind fun q _ h => (reads_field h nofun).bind fun q _ h => ?_
  refine (reads_isAt .delimiter h).bind fun q _ h => ?_
  rw [decide_eq_true rfl, if_pos rfl]
  exact .pure h

/-- The flag for all places. -/
lemma reads_flags {place : Location} {flags : SubstitutionFlags} (hflags : flags.everywhere = false)
    (fuel : ℕ) {newline : Text} (h : Ahead p (⟨.word, ['g']⟩ :: ⟨.newline, newline⟩ :: ts)) :
    Reads (substitutionFlags place (fuel + 2) flags) p { flags with everywhere := true }
      (⟨.newline, newline⟩ :: ts) := by
  refine reads_get ?_
  rw [h.1]
  refine (reads_currentChar h).bind fun q _ h => ?_
  rw [if_neg (by decide)]
  simp only [SubstitutionFlags.add?, hflags, Bool.false_eq_true, if_false]
  refine (reads_advance h).bind fun q _ h => reads_get ?_
  rw [h.1]
  exact .pure h

lemma reads_compilePattern {pattern : Text} {options : Regex.Options} {re : Regex}
    (hpattern : pattern ≠ [])
    (hre : Regex.compile? options (unescapePattern pattern) = some re) (h : Ahead p ts) :
    Reads (compilePattern pattern options) p (some re) ts := by
  rw [compilePattern, if_neg (by simpa using hpattern), hre]
  exact .pure h

lemma reads_substitution (place : Location) {first second newline : Text} {re : Regex}
    (hfirst : first ≠ [])
    (hre : Regex.compile? ⟨p.options.extended, false, false⟩ (unescapePattern first) = some re)
    (hgroups : (Template.compile second).maxGroup < re.groupCount)
    (h : Ahead p (t :: ⟨.delimiter, ['/']⟩ :: (fieldTokens first ++ ⟨.delimiter, ['/']⟩ ::
      (fieldTokens second ++ ⟨.delimiter, ['/']⟩ :: ⟨.word, ['g']⟩ :: ⟨.newline, newline⟩ ::
        ts)))) :
    Reads (substitution place) p (.substitute (.ofAll re (.compile second)))
      (⟨.newline, newline⟩ :: ts) := by
  refine (reads_fields h).bind fun q₁ h₁ h => ?_
  refine (reads_advance h).bind fun q₂ h₂ h => reads_get ?_
  obtain ⟨fuel, hfuel⟩ : ∃ fuel, q₂.bound = fuel + 2 := ⟨q₂.bound - 2, by
    simp only [Parser.bound, Scanner.bound]
    omega⟩
  rw [hfuel]
  refine (reads_flags rfl fuel h).bind fun q₃ h₃ h => ?_
  refine (reads_isAt .illegal h).bind fun q₄ h₄ h => ?_
  rw [decide_eq_false nofun, if_neg Bool.false_ne_true]
  have hoptions : q₂.options = p.options := (h₁.trans h₂).options
  refine (reads_compilePattern hfirst (by rw [← hre, hoptions]) h).bind fun q₅ h₅ h => ?_
  rw [if_neg (by simpa using hgroups)]
  exact .pure h

lemma run_expectEnd {newline : Text} (h : Ahead p (⟨.newline, newline⟩ :: ts)) :
    expectEnd.run p = .ok ((), p) := by
  have hnewline : (p.token.isSeparator || p.token.kind = .closeBrace) = true := by
    rw [h.1]
    rfl
  rw [expectEnd]
  change (if (p.token.isSeparator || p.token.kind = .closeBrace) = true then pure ()
    else complain .extraCharacters : Parse Unit).run p = _
  rw [if_pos hnewline]
  rfl

/-- The parser with a command added to its program. -/
def pushed (p : Parser) (c : Command) : Parser := { p with commands := p.commands ++ [c] }

/-- A command is read by its letter and argument, and added. -/
lemma run_command (selection : Selection) (negated : Bool) {place : Location} {letter : Char}
    {kind : Argument} {addresses : ℕ} {action : Action} {q : Parser}
    (htoken : p.token = ⟨.command, [letter]⟩)
    (hletter : Argument.ofLetter? p.options.posix letter = some (kind, addresses))
    (haddresses : ¬addresses < selection.addressCount)
    (hargument : (argument letter place kind).run p = .ok (action, q)) :
    (command selection negated place).run p =
      .ok ((), q.pushed ⟨letter, selection, negated, action, place⟩) := by
  have hchar : currentChar.run p = .ok (letter, p) := by
    change Except.ok (p.token.firstChar.getD ' ', p) = _
    rw [htoken]
    rfl
  refine (run_get_bind _).trans ((run_bind_of_ok hchar).trans ?_)
  simp only [hletter, if_neg haddresses]
  exact run_bind_of_ok hargument

/-- A command without addresses is read from its letter on. -/
lemma run_statement_of_command (hkind : p.token.kind = .command) :
    statement.run p = (command .all false p.place >>= fun _ => expectEnd).run p := by
  have hselection : selection.run p = .ok (.all, p) := by
    refine (run_get_bind _).trans ?_
    rw [hkind]
    rfl
  have hnegation : negation.run p = .ok (false, p) := by
    change (if decide (p.token.kind = .bang) = true then _ else pure false : Parse Bool).run p = _
    rw [hkind]
    rfl
  refine (run_bind_of_ok hselection).trans ((run_bind_of_ok hnegation).trans
    ((run_get_bind _).trans ?_))
  simp only [hkind]

section OneCommand

variable {letter : Char} {kind : Argument} {addresses : ℕ} {action : Action} {q : Parser}
  {newline : Text}

/-- A command that is alone on its line is added, and the next line comes. -/
lemma run_statements_line (htoken : p.token = ⟨.command, [letter]⟩)
    (hletter : Argument.ofLetter? p.options.posix letter = some (kind, addresses))
    (hargument : (argument letter p.place kind).run p = .ok (action, q))
    (hahead : Ahead q (⟨.newline, newline⟩ :: ts)) (fuel : ℕ) :
    (statements (fuel + 2)).run p =
      (statements fuel).run (q.pushed ⟨letter, .all, false, action, p.place⟩).advanced := by
  have hkind : p.token.kind = .command := by rw [htoken]
  have hcommand : (command .all false p.place).run p =
      .ok ((), q.pushed ⟨letter, .all, false, action, p.place⟩) :=
    run_command .all false htoken hletter (Nat.not_lt_zero _) hargument
  generalize (⟨letter, .all, false, action, p.place⟩ : Command) = c at hcommand ⊢
  have hstatement : statement.run p = .ok ((), q.pushed c) :=
    (run_statement_of_command hkind).trans ((run_bind_of_ok hcommand).trans
      (run_expectEnd (p := q.pushed c) hahead))
  have hnewline : (q.pushed c).token.kind = .newline := by
    change q.token.kind = .newline
    rw [hahead.1]
  refine (run_get_bind _).trans ?_
  simp only [hkind]
  refine (run_bind_of_ok hstatement).trans ((run_get_bind _).trans ?_)
  simp only [hnewline]
  exact run_bind_of_ok rfl

/-- Nothing comes behind the line of the only command. -/
lemma run_wholeScript_one (htoken : p.token = ⟨.command, [letter]⟩)
    (hletter : Argument.ofLetter? p.options.posix letter = some (kind, addresses))
    (hargument : (argument letter p.place kind).run p = .ok (action, q))
    (hahead : Ahead q [⟨.newline, newline⟩, .endOfScript]) (hblocks : q.openBlocks = []) :
    wholeScript.run p =
      .ok ((), (q.pushed ⟨letter, .all, false, action, p.place⟩).advanced) := by
  obtain ⟨fuel, hfuel⟩ : ∃ fuel, p.bound = fuel + 1 + 2 := ⟨p.bound - 3, by
    simp only [Parser.bound, Scanner.bound]
    omega⟩
  have hline := run_statements_line htoken hletter hargument hahead (fuel + 1)
  generalize (⟨letter, .all, false, action, p.place⟩ : Command) = c at hline ⊢
  have hlast : (q.pushed c).advanced.token = .endOfScript := hahead.advanced.1
  have heof : (q.pushed c).advanced.token.kind = .eof := by
    rw [hlast]
    rfl
  have hopen : (q.pushed c).advanced.openBlocks = [] := hblocks
  have hend : (statements (fuel + 1)).run (q.pushed c).advanced =
      .ok ((), (q.pushed c).advanced) := by
    refine (run_get_bind _).trans ?_
    simp only [heof]
    rfl
  refine (run_get_bind _).trans ?_
  rw [hfuel]
  refine (run_bind_of_ok (hline.trans hend)).trans ((run_get_bind _).trans ?_)
  simp only [hopen]
  rfl

/-- A script fails where the argument of its first command does. -/
lemma run_wholeScript_error {failure : Failure} (htoken : p.token = ⟨.command, [letter]⟩)
    (hletter : Argument.ofLetter? p.options.posix letter = some (kind, addresses))
    (hargument : (argument letter p.place kind).run p = .error failure) :
    wholeScript.run p = .error failure := by
  have hkind : p.token.kind = .command := by rw [htoken]
  have hchar : currentChar.run p = .ok (letter, p) := by
    change Except.ok (p.token.firstChar.getD ' ', p) = _
    rw [htoken]
    rfl
  have hfailed : ∀ {β : Type} (f : Action → Parse β),
      (argument letter p.place kind >>= f).run p = .error failure := fun f => by
    rw [run_bind, hargument]
    rfl
  have hcommand : (command .all false p.place).run p = .error failure := by
    refine (run_get_bind _).trans ((run_bind_of_ok hchar).trans ?_)
    have hcount : ¬addresses < Selection.addressCount .all := Nat.not_lt_zero _
    simp only [hletter, if_neg hcount]
    exact hfailed _
  have hstatement : statement.run p = .error failure := by
    rw [run_statement_of_command hkind, run_bind, hcommand]
    rfl
  have hstatements : (statements p.bound).run p = .error failure := by
    refine (run_get_bind _).trans ?_
    simp only [hkind]
    rw [run_bind, hstatement]
    rfl
  refine (run_get_bind _).trans ?_
  rw [run_bind, hstatements]
  rfl

end OneCommand

end Reads

/-- A script that is one substitution wherever its pattern occurs, for all records, between
slashes. -/
def substitutionScript (quoted quoted' : Text) : Text :=
  's' :: '/' :: (quoted ++ '/' :: (quoted' ++ ['/', 'g']))

lemma ahead_start {quoted quoted' first second : Text} (hfirst : Scanner.FieldReads quoted first)
    (hsecond : Scanner.FieldReads quoted' second) (o : Options) :
    Ahead (.start (.ofText (substitutionScript quoted quoted')) o)
      (substitutionTokens first second) := by
  have hscript : substitutionScript quoted quoted' =
      's' :: '/' :: (quoted ++ '/' :: (quoted' ++ ['/'])) ++ ['g'] := by
    simp [substitutionScript]
  have htext : (Script.ofText (substitutionScript quoted quoted')).text =
      's' :: '/' :: (quoted ++ '/' :: (quoted' ++ ['/', 'g', '\n'])) := by
    rw [hscript, Script.text_ofText_concat _ (by decide)]
    simp
  have hfeeds := Scanner.feeds_substitution hfirst hsecond
  rw [← htext] at hfeeds
  exact hfeeds

end Parser

/-! ### Programs of one command -/

namespace Program

open StreamEditor.Parser (Ahead argument)

variable {script : Text} {o : Options} {letter : Char} {kind : Argument} {addresses : ℕ}

/-- A script that is one command without addresses is read as such. Labels and branches are left out
here: they have more to them. -/
lemma parse_one [Regex.Library] {action : Action} {q : Parser} {newline : Text}
    (htoken : (Parser.start (.ofText script) o).token = ⟨.command, [letter]⟩)
    (hletter : Argument.ofLetter? o.posix letter = some (kind, addresses))
    (hargument : (argument letter (Parser.start (.ofText script) o).place kind).run
      (.start (.ofText script) o) = .ok (action, q))
    (hdraft : q.draft = ⟨[], [], 0, []⟩)
    (hahead : Ahead q [⟨.newline, newline⟩, .endOfScript])
    (hlabel : ∀ name, action ≠ .label name)
    (hbranch : ∀ condition name target, action ≠ .branch condition name target) :
    parse (.ofText script) o = .ok
      ⟨[⟨letter, .all, false, action, (Parser.start (.ofText script) o).place⟩], [], [], 0,
        (Script.ofText script).asksForQuiet⟩ := by
  obtain ⟨hcommands, hfiles, hranges, hblocks⟩ := Parser.Draft.mk.inj hdraft
  have hrun := Parser.run_wholeScript_one htoken hletter hargument hahead hblocks
  generalize (Parser.start (.ofText script) o).place = place at hrun ⊢
  have hcollected : collectLabels 0 [] [⟨letter, .all, false, action, place⟩] = .ok [] := by
    rw [collectLabels]
    split
    · exact absurd ‹_› (hlabel _)
    · rfl
  have hdefined : undefinedLabel? [] ⟨letter, .all, false, action, place⟩ = none := by
    rw [undefinedLabel?]
    split
    · exact absurd ‹_› (hbranch _ _ _)
    · rfl
  have hresolved : resolve [] ⟨letter, .all, false, action, place⟩ =
      ⟨letter, .all, false, action, place⟩ := by
    rw [resolve]
    split
    · exact absurd ‹_› (hbranch _ _ _)
    · rfl
  rw [parse, hrun]
  simp only [bind, Except.bind, Parser.advanced, Parser.pushed, hcommands, hfiles, hranges,
    List.nil_append, hcollected, List.filterMap_cons, hdefined, List.filterMap_nil, List.map_cons,
    hresolved, List.map_nil]
  rfl

/-- A script fails where the argument of its only command does. -/
lemma parse_one_error {failure : Failure}
    (htoken : (Parser.start (.ofText script) o).token = ⟨.command, [letter]⟩)
    (hletter : Argument.ofLetter? o.posix letter = some (kind, addresses))
    (hargument : (argument letter (Parser.start (.ofText script) o).place kind).run
      (.start (.ofText script) o) = .error failure) :
    parse (.ofText script) o = .error failure := by
  rw [parse, Parser.run_wholeScript_error htoken hletter hargument]
  rfl

/-- The script is read as a program with the one command. -/
lemma parse_substitution {quoted quoted' first second : Text} {re : Regex}
    (hfirst : Scanner.FieldReads quoted first) (hsecond : Scanner.FieldReads quoted' second)
    (hne : first ≠ [])
    (hre : Regex.compile? ⟨o.extended, false, false⟩ (unescapePattern first) = some re)
    (hgroups : (Template.compile second).maxGroup < re.groupCount) :
    ∃ p place, parse (.ofText (Parser.substitutionScript quoted quoted')) o = .ok p ∧
      p.commands = [.substituteEverywhere re (.compile second) place] := by
  have hahead := Parser.ahead_start hfirst hsecond o
  obtain ⟨q, hargument, honward, hq⟩ :=
    Parser.reads_substitution (Parser.start _ o).place hne hre hgroups hahead
  exact ⟨_, _, parse_one hahead.1 rfl hargument honward.draft hq nofun nofun, rfl⟩

end Program

end StreamEditor
