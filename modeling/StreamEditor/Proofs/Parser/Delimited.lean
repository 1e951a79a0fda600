import StreamEditor.Proofs.Parser.Tandem
import StreamEditor.Proofs.Scanner.Delimited

/-!
Reading fields and patterns between delimiters of one's choice.

* `Parser.waiting`: the parser at a token that waited.
* `Parser.run_field`, `Parser.run_fields`: fields that wait are read.
* `Parser.behindFields`, `Parser.behindAddress`: the parser behind the delimiter that closes them.
* `Parser.run_substitution`, `Parser.run_address`: from there on the delimiter plays no part.
-/

namespace StreamEditor.Parser

variable {library : Regex.Library}

open Scanner (fieldTokens past)
open Token (Kind)

section Waiting

variable {p : Parser} {t : Token} {text : Text} {rest : List Token}

/-- The parser at a token that waited before others. -/
def waiting (p : Parser) (t : Token) (rest : List Token) : Parser :=
  { p with
    token := t
    scanner := { p.scanner with pending := rest, previous := some t.kind } }

lemma advanced_of_pending (h : p.scanner.pending = t :: rest) : p.advanced = p.waiting t rest := by
  rw [advanced, Scanner.next, h]
  rfl

lemma run_isAt (kind : Kind) (p : Parser) :
    (isAt kind).run p = .ok (decide (p.token.kind = kind), p) := rfl

/-- The literal of a field is read; an empty field has none. -/
lemma run_literalText (h : p.scanner.pending = fieldTokens text ++ t :: rest)
    (ht : t.kind ≠ .text) :
    ∃ found, found.getD [] = text ∧
      (literalIf .text).run p.advanced = .ok (found, p.waiting t rest) := by
  cases text with
  | nil =>
      have hnext : p.advanced = p.waiting t rest := advanced_of_pending h
      refine ⟨none, rfl, ?_⟩
      rw [hnext]
      refine (run_get_bind _).trans ?_
      dsimp only
      split
      · exact absurd ‹_› ht
      · rfl
  | cons c text =>
      have hnext : p.advanced = p.waiting ⟨.text, c :: text⟩ (t :: rest) := advanced_of_pending h
      refine ⟨some (c :: text), rfl, ?_⟩
      rw [hnext]
      rfl

/-- A field behind its delimiter is read up to the token that follows it. -/
lemma run_field (letter : Char) (htoken : p.token.kind = .delimiter)
    (h : p.scanner.pending = fieldTokens text ++ t :: rest) (ht : t.kind ≠ .text) :
    (field letter).run p = .ok (text, p.waiting t rest) := by
  obtain ⟨found, rfl, hfound⟩ := run_literalText h ht
  refine (run_bind_of_ok (run_isAt .delimiter p)).trans ?_
  rw [decide_eq_true htoken, if_pos rfl]
  refine (run_bind_of_ok (q := p.advanced) rfl).trans ?_
  exact run_bind_of_ok hfound

/-- Two fields that wait are read up to the delimiter that closes them. -/
lemma run_fields (letter : Char) {first second delimiter : Text}
    (htoken : p.advanced.token = ⟨.delimiter, delimiter⟩)
    (h : p.advanced.scanner.pending = fieldTokens first ++ ⟨.delimiter, delimiter⟩ ::
      (fieldTokens second ++ [⟨.delimiter, delimiter⟩])) :
    (fields letter).run p =
      .ok ((first, second), p.advanced.waiting ⟨.delimiter, delimiter⟩ []) := by
  have hfirst := run_field letter (by rw [htoken]) h nofun
  have hsecond := run_field (p := p.advanced.waiting ⟨.delimiter, delimiter⟩
    (fieldTokens second ++ [⟨.delimiter, delimiter⟩])) letter rfl rfl nofun
  refine (run_bind_of_ok (q := p.advanced) rfl).trans ?_
  refine (run_bind_of_ok (run_isAt .illegal _)).trans ?_
  rw [htoken, decide_eq_false nofun, if_neg Bool.false_ne_true]
  exact (run_bind_of_ok hfirst).trans ((run_bind_of_ok hsecond).trans rfl)

end Waiting

variable {p : Parser} {d : Char} {pattern replacement rest : Text}

/-- The parser at the first token behind the delimiter that closes the fields of a substitution. -/
def behindFields (p : Parser) (d : Char) (pattern replacement rest : Text) : Parser :=
  ({ p with
    token := ⟨.delimiter, [d]⟩
    scanner := { p.scanner.past (fieldsText d pattern replacement) rest [] .delimiter with
      mode := .flags } } : Parser).advanced

/-- The parser at the first token behind the delimiter that closes the pattern of an address. -/
def behindAddress (p : Parser) (d : Char) (pattern rest : Text) : Parser :=
  ({ p with
    token := ⟨.slash, [d]⟩
    scanner := { p.scanner.past (addressText d pattern) rest [] .slash with
      addresses := p.scanner.addresses + 1
      afterPattern := true } } : Parser).advanced

/-- With any delimiter a substitution is what its pattern, its replacement and the flags behind them
make it. -/
lemma run_substitution [Regex.Library] (hd : Delimits d) (hpattern : WellPaired d pattern)
    (hreplacement : WellPaired d replacement) (hmode : p.scanner.mode = .substitution)
    (hpending : p.scanner.pending = [])
    (hahead : p.scanner.cursor.ahead = fieldsText d pattern replacement ++ rest)
    (place : Location) :
    (substitution place).run p = (substitutionBehind place pattern replacement).run
      (p.behindFields d pattern replacement rest) := by
  have hnext := Scanner.next_fieldsText hd hpattern hreplacement hmode hpending hahead
  have hfields : (fields 's').run p =
      .ok ((pattern, replacement), p.advanced.waiting ⟨.delimiter, [d]⟩ []) :=
    run_fields 's' (by rw [advanced, hnext]) (by rw [advanced, hnext]; rfl)
  have hclosed : (p.advanced.waiting ⟨.delimiter, [d]⟩ []).advanced =
      p.behindFields d pattern replacement rest := by
    rw [behindFields]
    refine congrArg advanced ?_
    rw [advanced, hnext]
    rfl
  rw [substitution_eq]
  refine (run_bind_of_ok hfields).trans ((run_bind_of_ok rfl).trans ?_)
  rw [hclosed]

/-- With any delimiter an address is what its pattern and the flags behind it make it. -/
lemma run_address [Regex.Library] (hd : Delimits d) (hpattern : WellPaired d pattern)
    (hmode : p.scanner.mode = .command) (hpending : p.scanner.pending = [])
    (hahead : p.scanner.cursor.ahead = addressText d pattern ++ rest) :
    p.advanced.token = ⟨.slash, [d]⟩ ∧ address.run p.advanced =
      (patternBehind pattern).run (p.behindAddress d pattern rest) := by
  have hnext := Scanner.next_addressText hd hpattern hmode hpending hahead
  have htoken : p.advanced.token = ⟨.slash, [d]⟩ := by rw [advanced, hnext]
  have hwaiting : p.advanced.scanner.pending = fieldTokens pattern ++ [⟨.slash, [d]⟩] := by
    rw [advanced, hnext]
    rfl
  have hclosed : (p.advanced.waiting ⟨.slash, [d]⟩ []).advanced =
      p.behindAddress d pattern rest := by
    rw [behindAddress]
    refine congrArg advanced ?_
    rw [advanced, hnext]
    rfl
  obtain ⟨found, hfound, hread⟩ := run_literalText hwaiting Token.Kind.noConfusion
  refine ⟨htoken, (run_get_bind _).trans ?_⟩
  rw [htoken]
  dsimp only
  rw [patternAddress_eq]
  refine (run_bind_of_ok rfl).trans ((run_bind_of_ok hread).trans ?_)
  refine (run_bind_of_ok (run_isAt .slash _)).trans ?_
  rw [hfound]
  refine (run_bind_of_ok (q := (p.advanced.waiting ⟨.slash, [d]⟩ []).advanced) rfl).trans ?_
  rw [hclosed]

end StreamEditor.Parser
