import StreamEditor.Proofs.Parser.Substitution
import StreamEditor.Proofs.Scanner.Passage

/-!
Texts between delimiters of one's choice.

* `WellPaired`: the texts that a delimiter leaves as they are, once its own occurrences are escaped.
* `delimited`: such a text as it is written; `readUntil_delimited` reads it back.
* `fieldsText`, `addressText`: the fields of a substitution, and an address, as they are written.
* `Scanner.next_fieldsText`, `Scanner.next_addressText`: what a scanner makes of them.
-/

namespace StreamEditor

/-- A text of single characters other than the backslash and of backslashes that each stand before
another character; this is neither the delimiter nor a newline. -/
inductive WellPaired (d : Char) : Text → Prop
  | nil : WellPaired d []
  | bare {c : Char} {t : Text} (hc : c ≠ '\\') (h : WellPaired d t) : WellPaired d (c :: t)
  | pair {c : Char} {t : Text} (hd : c ≠ d) (hn : c ≠ '\n') (h : WellPaired d t) :
      WellPaired d ('\\' :: c :: t)

/-- A text with a backslash before each delimiter that does not follow one. -/
def delimited (d : Char) : Text → Text
  | [] => []
  | ['\\'] => ['\\']
  | '\\' :: c :: t => '\\' :: c :: delimited d t
  | c :: t => if c = d then '\\' :: c :: delimited d t else c :: delimited d t

lemma delimited_cons {c : Char} (hc : c ≠ '\\') (d : Char) (t : Text) :
    delimited d (c :: t) = if c = d then '\\' :: c :: delimited d t else c :: delimited d t := by
  rw [delimited]
  · exact fun h => absurd h hc
  · exact fun _ _ h => absurd h hc

/-- A character that may stand for a delimiter. -/
structure Delimits (d : Char) : Prop where
  ne_newline : d ≠ '\n'
  ne_backslash : d ≠ '\\'

namespace Cursor

lemma readUntil_pair (stop : Char → Bool) (passed rest : Text) (c : Char) :
    readUntil stop passed ('\\' :: c :: rest) =
      let (text, found, after) := readUntil stop (c :: '\\' :: passed) rest
      if stop c || c = '\n' then (c :: text, found, after)
      else ('\\' :: c :: text, found, after) := by
  rw [readUntil]

/-- What is written between delimiters is read as it is meant, up to the one behind it. -/
lemma readUntil_delimited {d : Char} {t : Text} (hd : d ≠ '\\') (ht : WellPaired d t)
    (passed rest : Text) :
    readUntil (· = d) passed (delimited d t ++ d :: rest) =
      (t, true, ⟨(delimited d t).reverse ++ passed, d :: rest⟩) := by
  induction ht generalizing passed with
  | nil =>
      rw [delimited, List.nil_append, readUntil_cons hd, if_pos (decide_eq_true rfl)]
      rfl
  | @bare c t hc _ ih =>
      rw [delimited_cons hc]
      split
      · rename_i hcd
        rw [List.cons_append, List.cons_append, readUntil_pair, ih]
        simp [hcd]
      · rename_i hcd
        rw [List.cons_append, readUntil_cons hc, if_neg (by simpa using hcd), ih]
        simp
  | @pair c t hcd hn _ ih =>
      rw [delimited, List.cons_append, List.cons_append, readUntil_pair, ih]
      simp [hcd, hn]

end Cursor

/-- The two fields of a substitution between three delimiters. -/
def fieldsText (d : Char) (pattern replacement : Text) : Text :=
  d :: (delimited d pattern ++ d :: (delimited d replacement ++ [d]))

/-- An address between two delimiters, the first of which is introduced as such. -/
def addressText (d : Char) (pattern : Text) : Text := '\\' :: d :: (delimited d pattern ++ [d])

lemma getLast?_fieldsText (d : Char) (pattern replacement : Text) :
    (fieldsText d pattern replacement).getLast? = some d := by
  simp [fieldsText, List.getLast?_cons, List.getLast?_append]

lemma getLast?_addressText (d : Char) (pattern : Text) :
    (addressText d pattern).getLast? = some d := by
  simp [addressText, List.getLast?_cons, List.getLast?_append]

/-- Behind a delimiter nothing is escaped. -/
lemma Delimits.previous_ne {d : Char} {text : Text} (hd : Delimits d) (h : text.getLast? = some d)
    (passed ahead : Text) : Cursor.previous ⟨text.reverse ++ passed, ahead⟩ ≠ some '\\' := by
  have hprevious : Cursor.previous ⟨text.reverse ++ passed, ahead⟩ = some d := by
    simp [Cursor.previous, List.head?_append, List.head?_reverse, h]
  rw [hprevious]
  exact fun he => hd.ne_backslash (Option.some.inj he)

namespace Scanner

open Token (Kind)

variable {s : Scanner} {d : Char} {pattern replacement rest : Text}

/-- The scanner behind a text that has been scanned to its end, and what waits of it. -/
def past (s : Scanner) (text rest : Text) (pending : List Token) (kind : Kind) : Scanner :=
  { s with
    cursor := ⟨text.reverse ++ s.cursor.passed, rest⟩
    pending
    previous := some kind
    tokenStart := s.cursor.position }

/-- The fields of a substitution wait behind its first delimiter. -/
lemma next_fieldsText (hd : Delimits d) (hpattern : WellPaired d pattern)
    (hreplacement : WellPaired d replacement) (hmode : s.mode = .substitution)
    (hpending : s.pending = [])
    (hahead : s.cursor.ahead = fieldsText d pattern replacement ++ rest) :
    s.next = (⟨.delimiter, [d]⟩, { s.past (fieldsText d pattern replacement) rest
      (fieldTokens pattern ++ ⟨.delimiter, [d]⟩ :: (fieldTokens replacement ++ [⟨.delimiter, [d]⟩]))
      .delimiter with mode := .flags }) := by
  obtain ⟨⟨passed, ahead⟩, mode, pending, addresses, previous, afterPattern, tokenStart⟩ := s
  obtain rfl : mode = .substitution := hmode
  obtain rfl : pending = [] := hpending
  obtain rfl : ahead = fieldsText d pattern replacement ++ rest := hahead
  have hchar : ¬(d = '\n' ∨ d = '\\') := fun h => h.elim hd.ne_newline hd.ne_backslash
  have hwritten : fieldsText d pattern replacement ++ rest =
      d :: (delimited d pattern ++ d :: (delimited d replacement ++ d :: rest)) := by
    simp [fieldsText]
  let start : Scanner := ⟨⟨passed, d :: (delimited d pattern ++ d :: (delimited d replacement ++
    d :: rest))⟩, .substitution, [], addresses, previous, afterPattern, tokenStart⟩
  have hfields : start.fields .flags = _ := fields_of_peek rfl hchar .flags
  have hfirst : start.behindDelimiter.field .delimiter d = _ :=
    field_eq (Cursor.readUntil_delimited hd.ne_backslash hpattern (d :: passed)
      (delimited d replacement ++ d :: rest))
  rw [hwritten, next_of_pending_nil rfl, scan, hfields]
  simp only [pastFields, hfirst, if_true]
  rw [field_eq (Cursor.readUntil_delimited hd.ne_backslash hreplacement _ rest)]
  simp [noted, past, markStart, behindDelimiter, Cursor.position, fieldsText, start]

/-- A backslash introduces the delimiter of an address. -/
lemma command_of_backslash {passed ahead : Text} (hd : Delimits d)
    (hcursor : s.cursor = ⟨passed, '\\' :: d :: ahead⟩) :
    s.command = Scanner.pattern { s with
      cursor := ⟨'\\' :: passed, d :: ahead⟩
      afterPattern := false
      tokenStart := passed.length } d := by
  have hbegin : ({ s with afterPattern := false } : Scanner).beginToken = { s with
      afterPattern := false
      tokenStart := passed.length } := by
    rw [beginToken, markStart, hcursor]
    rfl
  rw [command]
  dsimp only
  rw [hbegin, hcursor]
  split
  case h_12 =>
    -- the character behind the backslash is the delimiter
    split
    case h_1 h => cases h
    case h_2 h => exact absurd (Option.some.inj h) hd.ne_newline
    case h_3 h => exact absurd (Option.some.inj h) hd.ne_backslash
    case h_4 h =>
      cases h
      rfl
  case h_13 hne h => exact absurd (Option.some.inj h).symm hne
  all_goals
    rename_i h
    cases h

/-- The pattern of an address waits behind its first delimiter. -/
lemma next_addressText (hd : Delimits d) (hpattern : WellPaired d pattern)
    (hmode : s.mode = .command) (hpending : s.pending = [])
    (hahead : s.cursor.ahead = addressText d pattern ++ rest) :
    s.next = (⟨.slash, [d]⟩, { s.past (addressText d pattern) rest
      (fieldTokens pattern ++ [⟨.slash, [d]⟩]) .slash with
        addresses := s.addresses + 1
        afterPattern := true }) := by
  have hread := Cursor.readUntil_delimited hd.ne_backslash hpattern
    (d :: '\\' :: s.cursor.passed) rest
  have hcursor : s.cursor =
      ⟨s.cursor.passed, '\\' :: d :: (delimited d pattern ++ d :: rest)⟩ := by
    have hwritten : addressText d pattern ++ rest =
        '\\' :: d :: (delimited d pattern ++ d :: rest) := by
      simp [addressText]
    rw [← hwritten, ← hahead]
  rw [next_of_pending_nil hpending, scan, hmode]
  dsimp only
  rw [command_of_backslash hd hcursor, Scanner.pattern]
  simp only [Cursor.advance]
  rw [field_eq hread]
  simp [noted, past, Cursor.position, addressText, hpending]

end Scanner

end StreamEditor
