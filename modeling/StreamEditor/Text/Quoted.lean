import StreamEditor.Text
import StreamEditor.Text.Printable

/-!
The quoted form of a text, in which nothing is invisible: controls, characters that are not
shown as they are and marks that join their predecessor are written by escapes.

* `Quoting`: which quotation marks are escaped, and whether joining marks are.
* `quoted`: a text between double quotes; `escaped`: the text alone, as shown between the
  delimiters of a command, where only a leading mark lacks a character to join.
-/

namespace StreamEditor.Text

/-- The decisions of a quoted form. -/
structure Quoting where
  /-- The quotation marks that are escaped. -/
  marks : List Char
  /-- Whether a mark that joins its predecessor is written by its code point. -/
  extenders : Bool

/-- An escape that gives the code point in hexadecimal digits. -/
def codeEscape (c : Char) : Text :=
  ['\\', 'u', '{'] ++ Nat.toDigits 16 c.toNat ++ ['}']

namespace Quoting

/-- The quoted form of a character. -/
def char (style : Quoting) (c : Char) : Text :=
  if c = '\x00' then ['\\', '0']
  else if c = '\t' then ['\\', 't']
  else if c = '\n' then ['\\', 'n']
  else if c = '\r' then ['\\', 'r']
  else if c = '\\' || style.marks.contains c then ['\\', c]
  else if style.extenders && isExtender c then codeEscape c
  else if isPrintable c then [c]
  else codeEscape c

end Quoting

/-- A text between double quotes. -/
def quoted (t : Text) : Text :=
  '"' :: t.flatMap (Quoting.char ⟨['"'], true⟩) ++ ['"']

/-- A text with escapes and without enclosing quotes. -/
def escaped : Text → Text
  | [] => []
  | c :: rest =>
      Quoting.char ⟨['\'', '"'], true⟩ c ++ rest.flatMap (Quoting.char ⟨['\'', '"'], false⟩)

end StreamEditor.Text
