import StreamEditor.Proofs.Parser.Delimited
import StreamEditor.Proofs.Parser.Fuel
import StreamEditor.Proofs.Program.Printed
import StreamEditor.Proofs.Scanner.Preceded
import StreamEditor.Regex.Builtin

/-!
The choice of a delimiter plays no part.

* `Program.SameOutcome`: the same program, or a failure with the same text, but for places.
* `Parser.beside`: two scripts that go on with the same text.
* `Program.sameOutcome_of_statement`: where first statements are read alike, so are the scripts.
* `Program.delimiter_transparent`: a substitution and an address mean the same between any
  delimiters.
-/

namespace StreamEditor

open StreamEditor.Parser (Tandem start unread)
open Scanner (Beside)

/-- The same program, or a failure with the same text, but for places. -/
inductive Program.SameOutcome : Except Failure Program → Except Failure Program → Prop
  | ok {p q : Program} (h : p.Alike q) (hquiet : p.quiet = q.quiet) : SameOutcome (.ok p) (.ok q)
  | error {f f' : Failure} (h : f.Alike (fun _ _ => True) f') : SameOutcome (.error f) (.error f')

/-- Two scripts whose scanners are beside each other. Places do not count. -/
def Parser.beside (script script' : Script) (o : Options) : Tandem where
  script
  script'
  options := o
  options' := o
  scanners := Beside
  places := fun _ _ => True
  extended := rfl
  sandbox := id
  posix := id
  next := Beside.next
  ending := Beside.ending
  bound := Beside.bound
  place := fun _ => trivial

section Outcome

variable {script script' : Script} {o : Options}

/-- Programs that are read side by side are the same, and so are failures. -/
lemma Program.sameOutcome_of_ends {r r' : Except Failure Program}
    (h : (Parser.beside script script' o).Ends (Matched (Parser.beside script script' o)) r r') :
    SameOutcome r r' := by
  cases h with
  | ok h =>
      refine .ok ⟨h.commands.imp fun c c' hc => ?_, h.labels.symm, ?_, h.rangeCount.symm⟩
        h.quiet.symm
      · exact ⟨c'.place, (Command.mk.injEq ..).mpr
          ⟨hc.letter, hc.selection, hc.negated, hc.action.eq rfl, rfl⟩⟩
      · exact (map_eq_of_forall₂ h.outputFiles fun f f' hf => hf.name).symm
  | error h => exact .error h
  | stricter f r h => exact absurd rfl h

/-- Where the first statements are read alike, so are the scripts. -/
lemma Program.sameOutcome_of_statement [Regex.Library]
    (hquiet : script'.asksForQuiet = script.asksForQuiet)
    (hturn : Parser.Setting.turn (start script o).token.kind = Parser.statement)
    (hturn' : Parser.Setting.turn (start script' o).token.kind = Parser.statement)
    (hkind : (start script o).token.kind ≠ .eof) (hkind' : (start script' o).token.kind ≠ .eof)
    (h : (Parser.beside script script' o).AgreeAt Eq Parser.statement Parser.statement
      (start script o) (start script' o)) :
    SameOutcome (parse script o) (parse script' o) := by
  obtain ⟨fuel, hbound, hbound'⟩ : ∃ fuel, (start script o).bound ≤ fuel + 1 ∧
      (start script' o).bound ≤ fuel + 1 :=
    ⟨(start script o).bound + (start script' o).bound, by omega, by omega⟩
  have hstatements : (Parser.beside script script' o).AgreeAt Eq (Parser.statements (fuel + 1))
      (Parser.statements (fuel + 1)) (start script o) (start script' o) := by
    rw [Tandem.AgreeAt, Parser.Setting.run_statements_succ hkind,
      Parser.Setting.run_statements_succ hkind', hturn, hturn']
    exact h.bind fun _ _ _ => Tandem.agree_statements _
  refine sameOutcome_of_ends (ends_parse hquiet ?_)
  change Tandem.Ends _ _ (Parser.wholeScript.run (start script o))
    (Parser.wholeScript.run (start script' o))
  rw [Parser.run_wholeScript_start hbound, Parser.run_wholeScript_start hbound']
  exact hstatements.bind fun _ _ _ => Tandem.agree_allClosed

end Outcome

namespace Parser

variable {library : Regex.Library}

open Scanner (past)
open Token (Kind)

variable {script script' : Script} {o : Options} {d d' : Char} {pattern replacement rest : Text}

/-- Parsers that are ready for the same text are tied from the next token on. -/
lemma tied_advanced {s : Scanner} (cursor : Cursor) (t t' : Token)
    (hmode : s.mode = .flags ∨ s.mode = .command) (hpending : s.pending = [])
    (hahead : cursor.ahead = s.cursor.ahead) (h : s.cursor.previous ≠ some '\\')
    (h' : cursor.previous ≠ some '\\') (tokenStart : ℕ) :
    (beside script script' o).Tied
      ({ unread script o with token := t, scanner := s } : Parser).advanced
      ({ unread script' o with
        token := t'
        scanner := { s with cursor, tokenStart } } : Parser).advanced := by
  obtain ⟨htoken, hbeside⟩ := Scanner.beside_next hmode hpending hahead h h' tokenStart
  exact ⟨rfl, rfl, rfl, rfl, hbeside, htoken, ⟨.nil, .nil, rfl, rfl⟩⟩

/-- At the letter of a substitution the statement is that alone. -/
lemma run_statement_of_letter {p : Parser} (htoken : p.token = ⟨.command, ['s']⟩) :
    statement.run p = ((substitution p.place >>= fun a =>
      push ⟨'s', .all, false, a, p.place⟩) >>= fun _ => expectEnd).run p := by
  obtain ⟨script, options, scanner, token, commands, outputFiles, rangeCount, openBlocks⟩ := p
  obtain rfl : token = ⟨.command, ['s']⟩ := htoken
  rw [statement_eq]
  exact (run_bind_of_ok rfl).trans rfl

lemma start_of_letter (h : script.text = 's' :: rest) :
    start script o = { unread script o with
      token := ⟨.command, ['s']⟩
      scanner := ⟨⟨['s'], rest⟩, .substitution, [], 0, some .command, false, 0⟩ } := by
  rw [start, h]
  rfl

/-- What is the same of a part is the same of what goes on with its result. -/
lemma run_bind_congr {α β : Type} {m n : Parse α} {p q : Parser} (h : m.run p = n.run q)
    (f : α → Parse β) : (m >>= f).run p = (n >>= f).run q := by
  rw [run_bind, run_bind, h]

/-- The parsers behind the fields of two substitutions are tied. -/
lemma tied_behindFields (hd : Delimits d) (hd' : Delimits d')
    (h : script.text = 's' :: (fieldsText d pattern replacement ++ rest))
    (h' : script'.text = 's' :: (fieldsText d' pattern replacement ++ rest)) :
    (beside script script' o).Tied ((start script o).behindFields d pattern replacement rest)
      ((start script' o).behindFields d' pattern replacement rest) := by
  rw [start_of_letter h, start_of_letter h']
  exact tied_advanced (s := ⟨⟨(fieldsText d pattern replacement).reverse ++ ['s'], rest⟩, .flags,
    [], 0, some .delimiter, false, 1⟩) ⟨(fieldsText d' pattern replacement).reverse ++ ['s'], rest⟩
      _ _ (.inl rfl) rfl rfl (hd.previous_ne (getLast?_fieldsText _ _ _) _ _)
      (hd'.previous_ne (getLast?_fieldsText _ _ _) _ _) 1

/-- The parsers behind the patterns of two addresses are tied. -/
lemma tied_behindAddress (hd : Delimits d) (hd' : Delimits d') (script script' : Script)
    (o : Options) (pattern rest : Text) :
    (beside script script' o).Tied ((unread script o).behindAddress d pattern rest)
      ((unread script' o).behindAddress d' pattern rest) :=
  tied_advanced (s := ⟨⟨(addressText d pattern).reverse ++ [], rest⟩, .command, [], 1, some .slash,
    true, 0⟩) ⟨(addressText d' pattern).reverse ++ [], rest⟩ _ _ (.inr rfl) rfl rfl
      (hd.previous_ne (getLast?_addressText _ _) _ _)
      (hd'.previous_ne (getLast?_addressText _ _) _ _) 0

/-- A substitution is read alike between any delimiters. -/
lemma agreeAt_substitution (hd : Delimits d) (hd' : Delimits d') (hpattern : WellPaired d pattern)
    (hpattern' : WellPaired d' pattern) (hreplacement : WellPaired d replacement)
    (hreplacement' : WellPaired d' replacement)
    (h : script.text = 's' :: (fieldsText d pattern replacement ++ rest))
    (h' : script'.text = 's' :: (fieldsText d' pattern replacement ++ rest)) :
    (beside script script' o).AgreeAt Eq statement statement (start script o)
      (start script' o) := by
  have hread {script : Script} {d : Char} (hd : Delimits d) (hpattern : WellPaired d pattern)
      (hreplacement : WellPaired d replacement)
      (h : script.text = 's' :: (fieldsText d pattern replacement ++ rest)) :
      statement.run (start script o) =
        ((substitutionBehind (start script o).place pattern replacement >>= fun a =>
          push ⟨'s', .all, false, a, (start script o).place⟩) >>= fun _ => expectEnd).run
            ((start script o).behindFields d pattern replacement rest) := by
    have hsubstitution := run_substitution (p := start script o) hd hpattern hreplacement
      (by rw [start_of_letter h]) (by rw [start_of_letter h]) (by rw [start_of_letter h])
      (start script o).place
    refine (run_statement_of_letter (by rw [start_of_letter h])).trans ?_
    exact run_bind_congr (run_bind_congr hsubstitution _) _
  rw [Tandem.AgreeAt, hread hd hpattern hreplacement h, hread hd' hpattern' hreplacement' h']
  refine ((Tandem.agree_substitutionBehind trivial pattern replacement).bind fun a a' ha => ?_).and
    (fun _ => Tandem.agree_expectEnd) _ _ (tied_behindFields hd hd' h h')
  have hc : (beside script script' o).Commands ⟨'s', .all, false, a, (start script o).place⟩
      ⟨'s', .all, false, a', (start script' o).place⟩ := ⟨rfl, rfl, rfl, ha, trivial⟩
  exact Tandem.agree_push hc

/-- An address is read alike between any delimiters. -/
lemma agreeAt_address (hd : Delimits d) (hd' : Delimits d') (hpattern : WellPaired d pattern)
    (hpattern' : WellPaired d' pattern) (h : script.text = addressText d pattern ++ rest)
    (h' : script'.text = addressText d' pattern ++ rest) :
    (beside script script' o).AgreeAt Eq statement statement (start script o)
      (start script' o) := by
  have hread {script : Script} {d : Char} (hd : Delimits d) (hpattern : WellPaired d pattern)
      (h : script.text = addressText d pattern ++ rest) :
      statement.run (start script o) =
        ((patternBehind pattern >>= selectionBehind) >>= statementBehind).run
          ((unread script o).behindAddress d pattern rest) := by
    obtain ⟨htoken, haddress⟩ := run_address (p := unread script o) hd hpattern rfl rfl h
    have hselection := run_selection_of_address (p := start script o)
      (.inr (.inr (by rw [start_eq, htoken])))
    rw [statement_eq]
    exact run_bind_congr (hselection.trans (run_bind_congr haddress _)) _
  rw [Tandem.AgreeAt, hread hd hpattern h, hread hd' hpattern' h']
  exact ((Tandem.agree_patternBehind pattern).and Tandem.agree_selectionBehind).and
    Tandem.agree_statementBehind _ _ (tied_behindAddress hd hd' script script' o pattern rest)

end Parser

namespace Program

/-- The choice of a delimiter plays no part. What is written between two delimiters is read as it is
meant, up to behind the second. From there on a substitution is what its pattern, its replacement
and the flags that follow make it, and an address what its pattern and flags do; so the scripts that
begin with them have the same outcome with any other delimiter. -/
theorem delimiter_transparent [Regex.Library] {d d' : Char} {pattern replacement : Text}
    (hd : Delimits d) (hd' : Delimits d') (hpattern : WellPaired d pattern)
    (hpattern' : WellPaired d' pattern) (hreplacement : WellPaired d replacement)
    (hreplacement' : WellPaired d' replacement) (o : Options) (rest : Text) :
    (∀ passed, ∃ cursor, Cursor.readUntil (· = d) passed (delimited d pattern ++ d :: rest) =
        (pattern, true, cursor) ∧
      cursor.advance = ⟨d :: ((delimited d pattern).reverse ++ passed), rest⟩) ∧
    (∀ (p : Parser) (place : Location), p.scanner.mode = .substitution → p.scanner.pending = [] →
      p.scanner.cursor.ahead = fieldsText d pattern replacement ++ rest →
      (Parser.substitution place).run p = (Parser.substitutionBehind place pattern replacement).run
        (p.behindFields d pattern replacement rest)) ∧
    (∀ p : Parser, p.scanner.mode = .command → p.scanner.pending = [] →
      p.scanner.cursor.ahead = addressText d pattern ++ rest →
      Parser.address.run p.advanced = (Parser.patternBehind pattern).run
        (p.behindAddress d pattern rest)) ∧
    (∀ script script' : Script,
      script.text = 's' :: (fieldsText d pattern replacement ++ rest) →
      script'.text = 's' :: (fieldsText d' pattern replacement ++ rest) →
      SameOutcome (parse script o) (parse script' o)) ∧
    ∀ script script' : Script, script.text = addressText d pattern ++ rest →
      script'.text = addressText d' pattern ++ rest →
      SameOutcome (parse script o) (parse script' o) := by
  refine ⟨fun passed => ⟨_, Cursor.readUntil_delimited hd.ne_backslash hpattern passed rest, rfl⟩,
    fun p place hmode hpending hahead =>
      Parser.run_substitution hd hpattern hreplacement hmode hpending hahead place,
    fun p hmode hpending hahead => (Parser.run_address hd hpattern hmode hpending hahead).2, ?_, ?_⟩
  · intro script script' h h'
    have hkind {script : Script} {d : Char}
        (h : script.text = 's' :: (fieldsText d pattern replacement ++ rest)) :
        (start script o).token.kind = .command := by
      rw [Parser.start_of_letter h]
    have hquiet {script : Script} {d : Char}
        (h : script.text = 's' :: (fieldsText d pattern replacement ++ rest)) :
        script.asksForQuiet = false := by
      rw [Script.asksForQuiet, h]
      rfl
    refine sameOutcome_of_statement (by rw [hquiet h, hquiet h']) (by rw [hkind h]; rfl)
      (by rw [hkind h']; rfl) (by rw [hkind h]; decide) (by rw [hkind h']; decide) ?_
    exact Parser.agreeAt_substitution hd hd' hpattern hpattern' hreplacement hreplacement' h h'
  · intro script script' h h'
    have hkind {script : Script} {d : Char} (hd : Delimits d) (hpattern : WellPaired d pattern)
        (h : script.text = addressText d pattern ++ rest) :
        (start script o).token.kind = .slash := by
      have htoken := (Parser.run_address (p := unread script o) hd hpattern rfl rfl h).1
      rw [Parser.start_eq, htoken]
    have hquiet {script : Script} {d : Char} (h : script.text = addressText d pattern ++ rest) :
        script.asksForQuiet = false := by
      rw [Script.asksForQuiet, h]
      rfl
    have hslash := hkind hd hpattern h
    have hslash' := hkind hd' hpattern' h'
    refine sameOutcome_of_statement (by rw [hquiet h, hquiet h']) (by rw [hslash]; rfl)
      (by rw [hslash']; rfl) (by rw [hslash]; decide) (by rw [hslash']; decide) ?_
    exact Parser.agreeAt_address hd hd' hpattern hpattern' h h'

/-- Between commas and between bars, where each is escaped in its own way. -/
theorem delimiter_transparent_comma :
    (∃ cursor, Cursor.readUntil (· = ',') [] ['a', '\\', ',', 'b', '|', '\\', '.', ','] =
        (['a', ',', 'b', '|', '\\', '.'], true, cursor) ∧
      cursor.advance = ⟨[',', '.', '\\', '|', 'b', ',', '\\', 'a'], []⟩) ∧
      SameOutcome
        (parse (.ofText ['s', ',', 'a', '\\', ',', 'b', '|', '\\', '.', ',', '|', '&', ',', 'g'])
          .standard)
        (parse (.ofText
          ['s', '|', 'a', ',', 'b', '\\', '|', '\\', '.', '|', '\\', '|', '&', '|', 'g'])
          .standard) ∧
      SameOutcome
        (parse (.ofText ['\\', ',', 'a', '\\', ',', 'b', '|', '\\', '.', ',', 'd']) .standard)
        (parse (.ofText ['\\', '|', 'a', ',', 'b', '\\', '|', '\\', '.', '|', 'd']) .standard) := by
  have hcomma : Delimits ',' := ⟨by decide, by decide⟩
  have hbar : Delimits '|' := ⟨by decide, by decide⟩
  have hpattern {d : Char} (hd : '.' ≠ d) : WellPaired d ['a', ',', 'b', '|', '\\', '.'] :=
    .bare (by decide) (.bare (by decide) (.bare (by decide) (.bare (by decide)
      (.pair hd (by decide) .nil))))
  have hreplacement {d : Char} : WellPaired d ['|', '&'] :=
    .bare (by decide) (.bare (by decide) .nil)
  obtain ⟨-, -, -, hsubstitution, -⟩ := delimiter_transparent hcomma hbar (hpattern (by decide))
    (hpattern (by decide)) hreplacement hreplacement .standard ['g', '\n']
  obtain ⟨-, -, -, -, haddress⟩ := delimiter_transparent hcomma hbar (hpattern (by decide))
    (hpattern (by decide)) hreplacement hreplacement .standard ['d', '\n']
  obtain ⟨hread, -⟩ := delimiter_transparent hcomma hbar (hpattern (by decide))
    (hpattern (by decide)) hreplacement hreplacement .standard []
  exact ⟨hread [], hsubstitution (.ofText _) (.ofText _) rfl rfl,
    haddress (.ofText _) (.ofText _) rfl rfl⟩

end Program

end StreamEditor
