import StreamEditor.Cursor
import StreamEditor.Text.Ranges
import StreamEditor.Token

/-!
The tokens of a script, whose meaning depends on the command in which they stand.

* `Scanner.Mode`: what the next token may be.
* `Cursor.readUntil`: reads up to a character that is not escaped.
* `Scanner.next`: the next token and the scanner after it; at the end of the script this is
  the end token for ever.
* `Scanner.tokens`: all tokens of a script.
-/

namespace StreamEditor

namespace Cursor

/-- Reads up to the first character that satisfies `stop`, and tells whether there is one; the
cursor then stands before it. A backslash before such a character or before a newline is
removed and takes that meaning away; other pairs of a backslash and a character are kept. -/
def readUntil (stop : Char → Bool) (passed : Text) : Text → Text × Bool × Cursor
  | [] => ([], false, ⟨passed, []⟩)
  | ['\\'] => (['\\'], false, ⟨'\\' :: passed, []⟩)
  | '\\' :: next :: rest =>
      let (text, found, after) := readUntil stop (next :: '\\' :: passed) rest
      if stop next || next = '\n' then (next :: text, found, after)
      else ('\\' :: next :: text, found, after)
  | c :: rest =>
      if stop c then ([], true, ⟨passed, c :: rest⟩)
      else
        let (text, found, after) := readUntil stop (c :: passed) rest
        (c :: text, found, after)

end Cursor

/-- What the next token may be. -/
inductive Scanner.Mode where
  /-- Addresses, command letters and the structure of the script. -/
  | command
  /-- The delimiter, the pattern and the replacement of a substitution. -/
  | substitution
  /-- The delimiter and the two sets of a transliteration. -/
  | transliteration
  /-- The flags of a substitution. -/
  | flags
  /-- The rest of the line, as a file name. -/
  | fileName
  | label
  /-- Text, with or without a backslash before it. -/
  | text
  /-- Text after its backslash. -/
  | textBody
  /-- An optional number. -/
  | number
  /-- The end of a command. -/
  | ending
  deriving DecidableEq, Repr, Inhabited

namespace Scanner.Mode

/-- The word for a mode. -/
def name : Mode → String
  | command => "Command"
  | substitution => "SubstFields"
  | transliteration => "TranslitFields"
  | flags => "SubstFlags"
  | fileName => "FileName"
  | label => "Label"
  | text => "Text"
  | textBody => "TextBody"
  | number => "Number"
  | ending => "End"

/-- All modes. -/
def all : List Mode :=
  [command, substitution, transliteration, flags, fileName, label, text, textBody, number, ending]

/-- The mode that a word names. -/
def ofName? (word : String) : Option Mode := all.find? (·.name = word)

/-- The mode after the letter of a command. -/
def afterCommand : Char → Mode
  | 's' => substitution
  | 'y' => transliteration
  | 'a' | 'i' | 'c' => text
  | 'b' | 't' | 'T' => label
  | 'r' | 'R' | 'w' | 'W' => fileName
  | 'q' | 'Q' | 'l' | 'L' => number
  | _ => command

end Scanner.Mode

/-- A reader of tokens. -/
structure Scanner where
  cursor : Cursor
  mode : Scanner.Mode
  /-- Tokens that were read together with one already returned. -/
  pending : List Token
  /-- How many addresses the command has so far. -/
  addresses : Nat
  /-- The kind of the token last returned. -/
  previous : Option Token.Kind
  /-- True right after an address that is a regular expression. -/
  afterPattern : Bool
  /-- Where the token last read begins. -/
  tokenStart : Nat
  deriving DecidableEq, Repr

namespace Scanner

open Token (Kind)

/-- The scanner before the first token of a script. -/
def start (script : Text) : Scanner :=
  { cursor := .start script
    mode := .command
    pending := []
    addresses := 0
    previous := none
    afterPattern := false
    tokenStart := 0 }

/-- The line, counted from zero, and the column, counted from one, of the token last read. -/
def lineColumn (s : Scanner) : Nat × Nat := s.cursor.lineColumn s.tokenStart

/-- Marks the place of the cursor as the beginning of a token. -/
def markStart (s : Scanner) : Scanner := { s with tokenStart := s.cursor.position }

/-- Passes blanks and begins a token. -/
def beginToken (s : Scanner) : Scanner := { s with cursor := s.cursor.skipBlanks }.markStart

/-- Forgets the addresses of the command that ends. -/
def forgetAddresses (s : Scanner) : Scanner := { s with addresses := 0, afterPattern := false }

/-- Makes the character ahead a token. -/
def single (s : Scanner) (kind : Kind) (c : Char) : Token × Scanner :=
  (⟨kind, [c]⟩, { s with cursor := s.cursor.advance })

/-- Makes the characters ahead that satisfy `p` a token. -/
def run (s : Scanner) (kind : Kind) (p : Char → Bool) : Token × Scanner :=
  let (literal, cursor) := s.cursor.takeWhile p
  (⟨kind, literal⟩, { s with cursor })

/-- Passes a comment and the newline that ends it. -/
def comment (s : Scanner) : Token × Scanner :=
  let (_, cursor) := s.cursor.takeWhile (· ≠ '\n')
  (⟨.newline, ['#']⟩, { s.forgetAddresses with cursor := cursor.advance, mode := .command })

/-- Reads up to `delimiter`, passes it, and adds what was read to the tokens that wait, between
delimiters of kind `kind`. Tells whether the delimiter was found. -/
def field (s : Scanner) (kind : Kind) (delimiter : Char) : Bool × Scanner :=
  let (text, found, cursor) := Cursor.readUntil (· = delimiter) s.cursor.passed s.cursor.ahead
  let texts := if text.isEmpty then [] else [⟨.text, text⟩]
  let closing := if found then [⟨kind, [delimiter]⟩] else []
  (found,
    { s with
      cursor := if found then cursor.advance else cursor
      pending := s.pending ++ texts ++ closing })

/-- Reads an address between two occurrences of the character ahead. -/
def pattern (s : Scanner) (delimiter : Char) : Token × Scanner :=
  let opened := { s with cursor := s.cursor.advance, addresses := s.addresses + 1 }
  let (found, closed) := opened.field .slash delimiter
  (⟨.slash, [delimiter]⟩, { closed with afterPattern := found })

/-- Reads the fields of a substitution (after which come its flags) or of a transliteration. -/
def fields (s : Scanner) (after : Mode) : Token × Scanner :=
  let s := s.markStart
  match s.cursor.peek with
  | none => (.endOfScript, { s with mode := .ending })
  | some delimiter =>
      if delimiter = '\n' || delimiter = '\\' then
        { s with mode := .ending }.single .illegal delimiter
      else
        let opened := { s with cursor := s.cursor.advance, mode := .ending }
        let (first, s) := opened.field .delimiter delimiter
        let (second, s) := if first then s.field .delimiter delimiter else (false, s)
        (⟨.delimiter, [delimiter]⟩, if second then { s with mode := after } else s)

/-- Reads the end of a command. -/
def ending (s : Scanner) : Token × Scanner :=
  let s := s.beginToken
  match s.cursor.peek with
  | none => (.endOfScript, s)
  | some ';' => { s.forgetAddresses with mode := .command }.single .semicolon ';'
  | some '\n' => { s.forgetAddresses with mode := .command }.single .newline '\n'
  | some '}' => s.single .closeBrace '}'
  | some '#' => s.comment
  | some c => s.single .illegal c

/-- Reads a flag of a substitution. -/
def flags (s : Scanner) : Token × Scanner :=
  let s := s.beginToken
  match s.cursor.peek with
  | none => (.endOfScript, s)
  | some 'w' => { s with mode := .fileName }.single .word 'w'
  | some c =>
      if ['g', 'p', 'i', 'I', 'm', 'M', 'e'].contains c then s.single .word c
      else if c.isDigit then s.run .number Char.isDigit
      else if [';', '\n', '}', '#'].contains c then { s with mode := .ending }.ending
      else s.single .illegal c

/-- Reads a word that is made of the characters that satisfy `p`; if there is none, the end of
the command. -/
def wordOrEnding (s : Scanner) (p : Char → Bool) : Token × Scanner :=
  let (token, s) := { s.beginToken with mode := .ending }.run .word p
  if token.literal.isEmpty then s.ending else (token, s)

/-- Reads a number; if there is none, the end of the command. -/
def numberOrEnding (s : Scanner) : Token × Scanner :=
  let (token, s) := { s.beginToken with mode := .ending }.run .number Char.isDigit
  if token.literal.isEmpty then s.ending else (token, s)

/-- Reads text up to the first newline that is not escaped. -/
def textBody (s : Scanner) : Token × Scanner :=
  let cursor :=
    if s.cursor.previous = some '\\' && s.cursor.peek = some '\n' then s.cursor.advance
    else s.cursor
  let s := { s with cursor }.markStart
  let (text, _, cursor) := Cursor.readUntil (· = '\n') s.cursor.passed s.cursor.ahead
  (⟨.text, text⟩, { s with cursor, mode := .ending })

/-- Reads the backslash before text, or the text itself. -/
def text (s : Scanner) : Token × Scanner :=
  let s := s.beginToken
  if s.cursor.peek = some '\\' then { s with mode := .textBody }.single .backslash '\\'
  else s.textBody

/-- True if a comma may follow a token of this kind. -/
def endsAddress : Option Kind → Bool
  | some .number | some .dollar | some .slash | some .word => true
  | _ => false

/-- True for the letters of commands; the scanner knows them by their form alone. -/
def isCommandLetter (c : Char) : Bool := c.isAlpha || c = '='

/-- Reads an address, a command letter, or a sign of the script's structure. -/
def command (s : Scanner) : Token × Scanner :=
  let afterPattern := s.afterPattern
  let s := { s with afterPattern := false }.beginToken
  match s.cursor.peek with
  | none => (.endOfScript, s)
  | some '\n' => s.forgetAddresses.single .newline '\n'
  | some ';' => s.forgetAddresses.single .semicolon ';'
  | some '#' => s.comment
  | some '{' => s.forgetAddresses.single .openBrace '{'
  | some '}' => { s.forgetAddresses with mode := .ending }.single .closeBrace '}'
  | some '!' => s.single .bang '!'
  | some ':' => { s.forgetAddresses with mode := .label }.single .colon ':'
  | some ',' =>
      if s.addresses = 1 && endsAddress s.previous then s.single .comma ','
      else s.single .illegal ','
  | some '$' => { s with addresses := s.addresses + 1 }.single .dollar '$'
  | some '/' => s.pattern '/'
  | some '\\' =>
      match s.cursor.peekNext with
      | none | some '\n' | some '\\' => s.single .illegal '\\'
      | some delimiter => { s with cursor := s.cursor.advance }.pattern delimiter
  | some c =>
      if c.isDigit then
        let counts := s.previous ≠ some .tilde && s.previous ≠ some .plus
        let addresses := if counts then s.addresses + 1 else s.addresses
        { s with addresses }.run .number Char.isDigit
      else if c = '+' && s.previous = some .comma then s.single .plus c
      else if c = '~' && (s.previous = some .number || s.previous = some .comma) then
        s.single .tilde c
      else if (c = 'I' || c = 'M') && afterPattern then
        { s with afterPattern := true }.single .word c
      else if isCommandLetter c then
        { s.forgetAddresses with mode := .afterCommand c }.single .command c
      else s.single .illegal c

/-- Reads a token from the text ahead. -/
def scan (s : Scanner) : Token × Scanner :=
  match s.mode with
  | .command => s.command
  | .substitution => s.fields .flags
  | .transliteration => s.fields .ending
  | .flags => s.flags
  | .fileName => s.wordOrEnding (· ≠ '\n')
  | .label => s.wordOrEnding fun c => !Text.isSpace c && c ≠ ';' && c ≠ '}'
  | .text => s.text
  | .textBody => s.textBody
  | .number => s.numberOrEnding
  | .ending => s.ending

/-- The next token, and the scanner after it. -/
def next (s : Scanner) : Token × Scanner :=
  let (token, after) :=
    match s.pending with
    | token :: pending => (token, { s with pending })
    | [] => s.scan
  (token, { after with previous := some token.kind })

/-- The tokens up to and including the end of the script, at most `limit` of them, each with
the scanner after it. -/
def collect : Nat → Scanner → List (Token × Scanner)
  | 0, _ => []
  | limit + 1, s =>
      let (token, after) := s.next
      (token, after) :: if token.kind = .eof then [] else collect limit after

/-- A number of tokens that suffices to reach the end of the script: at most two for each
character ahead, and those that wait. -/
def bound (s : Scanner) : Nat := 2 * s.cursor.ahead.length + s.pending.length + 2

/-- The remaining tokens, the end of the script included, each with the scanner after it. -/
def trail (s : Scanner) : List (Token × Scanner) := collect s.bound s

/-- The remaining tokens before the end of the script. -/
def tokens (s : Scanner) : List Token :=
  (s.trail.map (·.1)).filter (·.kind ≠ .eof)

end Scanner

end StreamEditor
