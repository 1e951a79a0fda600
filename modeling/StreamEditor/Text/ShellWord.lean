import StreamEditor.Text
import StreamEditor.Text.Printable
import StreamEditor.Text.Ranges

/-!
File names in messages, written so that a shell would read the name back.

* `shellWord`: single quotes where they suffice, else double quotes, else alternating pieces;
  names with controls use escapes inside `$'…'`.
* `shellWordIfNeeded`: the bare name if a shell reads it as one word.
-/

namespace StreamEditor.Text

/-- True for the controls that reorder the text around them. -/
def isReordering (c : Char) : Bool :=
  inRanges c.toNat [(0x202A, 0x202E), (0x2066, 0x2069)]

/-- True for characters that could disturb the line in which a name is shown. -/
def isDisturbing (c : Char) : Bool :=
  c.toNat < 0x20 || (0x7F ≤ c.toNat && c.toNat < 0xA0) || c = '\u2028' || c = '\u2029'

/-- Characters that mean something to a shell wherever they stand. -/
def isShellSpecial (c : Char) : Bool :=
  ['|', '&', ';', '<', '>', '(', ')', '$', '`', '\\', '"', '\'', '*', '?', '[', ']', '=', '^',
    '{', '}', ' '].contains c

/-- True if a shell would not read the name as one word, or shows it misleadingly. -/
def needsShellQuotes : Text → Bool
  | [] => true
  | c :: rest =>
      ['~', '#', '!'].contains c || isExtender c
        || (c :: rest).any fun d => isShellSpecial d || isSpace d || d = '\u2800'

/-- A byte as an escape of two hexadecimal digits. -/
def hexByte (b : UInt8) : Text :=
  let digit (n : Nat) : Char := ((Nat.toDigits 16 n).headD '0').toUpper
  ['\\', 'x', digit (b.toNat / 16), digit (b.toNat % 16)]

/-- The escapes between `$'` and `'`. A hexadecimal digit after an escape of a byte would be
read as part of it, so the quotes are closed and opened again before it. -/
def shellEscapes : Bool → Text → Text
  | _, [] => []
  | afterByte, c :: rest =>
      if c = '\n' then '\\' :: 'n' :: shellEscapes false rest
      else if c = '\t' then '\\' :: 't' :: shellEscapes false rest
      else if c = '\r' then '\\' :: 'r' :: shellEscapes false rest
      else if isDisturbing c || isReordering c then
        (String.utf8EncodeChar c).flatMap hexByte ++ shellEscapes true rest
      else if afterByte && (c.isDigit || ('a' ≤ c && c ≤ 'f') || ('A' ≤ c && c ≤ 'F')) then
        '\'' :: '$' :: '\'' :: c :: shellEscapes false rest
      else if c = '\\' || c = '\'' then '\\' :: c :: shellEscapes false rest
      else c :: shellEscapes false rest

/-- A text between two copies of a mark. -/
def enclosed (mark : Char) (t : Text) : Text := mark :: t ++ [mark]

/-- A name in quotes. -/
def shellWord (t : Text) : Text :=
  if t.any fun c => isDisturbing c || isReordering c then
    ['$', '\''] ++ shellEscapes false t ++ ['\'']
  else if !t.contains '\'' then enclosed '\'' t
  else if !t.any fun c => ['"', '`', '$', '\\'].contains c then enclosed '"' t
  else
    let part (p : Text) : Text := if p.isEmpty then [] else enclosed '\'' p
    match pieces '\'' t with
    | [] => []
    | first :: others => part first ++ others.flatMap fun p => ['\\', '\''] ++ part p

/-- A name, in quotes only if a shell would not read it back otherwise. -/
def shellWordIfNeeded (t : Text) : Text :=
  if needsShellQuotes t || t.any fun c => isDisturbing c || isReordering c then shellWord t
  else t

end StreamEditor.Text
