import StreamEditor.Text.Quoted

/-!
Tokens of the script language.

* `Token.Kind`: what a token is; `Kind.name` is the word for it.
* `Token`: a kind together with the piece of script that it stands for.
-/

namespace StreamEditor

/-- What a token is. -/
inductive Token.Kind where
  /-- The letter of a command. -/
  | command
  /-- A decimal number. -/
  | number
  /-- The address of the last line. -/
  | dollar
  /-- Separates the two addresses of a range. -/
  | comma
  | semicolon
  /-- The end of a line; also stands for a comment. -/
  | newline
  /-- Introduces a label. -/
  | colon
  /-- Negates a selection. -/
  | bang
  | openBrace
  | closeBrace
  /-- Introduces the text of a command. -/
  | backslash
  | plus
  | tilde
  /-- A flag, a file name or a label. -/
  | word
  /-- A delimiter of an address. -/
  | slash
  /-- A delimiter of the fields of a command. -/
  | delimiter
  /-- What stands between delimiters, or the text of a command. -/
  | text
  /-- A character that has no meaning where it stands. -/
  | illegal
  /-- The end of the script. -/
  | eof
  deriving DecidableEq, Repr, Inhabited

namespace Token.Kind

/-- The word for a kind of token. -/
def name : Kind → String
  | command => "CMD"
  | number => "INT"
  | dollar => "DOLLAR"
  | comma => "COMMA"
  | semicolon => "SEMICOLON"
  | newline => "NEWLINE"
  | colon => "COLON"
  | bang => "EXPLMARK"
  | openBrace => "LBRACE"
  | closeBrace => "RBRACE"
  | backslash => "BACKSLASH"
  | plus => "PLUS"
  | tilde => "TILDE"
  | word => "IDENT"
  | slash => "SLASH"
  | delimiter => "DIV"
  | text => "LIT"
  | illegal => "ILLEGAL"
  | eof => "EOF"

end Token.Kind

/-- A kind together with the piece of script that it stands for. -/
structure Token where
  kind : Token.Kind
  literal : Text
  deriving DecidableEq, Repr, Inhabited

namespace Token

/-- The end of the script. -/
def endOfScript : Token := ⟨.eof, []⟩

/-- True if the token ends a command. -/
def isSeparator (t : Token) : Bool :=
  t.kind = .newline || t.kind = .semicolon || t.kind = .eof

/-- The first character of the literal. -/
def firstChar (t : Token) : Option Char := t.literal.head?

/-- The kind and the quoted literal. -/
def render (t : Token) : Text :=
  Text.ofString t.kind.name ++ '(' :: Text.quoted t.literal ++ [')']

end Token

end StreamEditor
