import StreamEditor.Cursor

/-!
Character escapes: a backslash and what follows it, standing for one character.

* `escape?`: the character that the text after a backslash begins to write, and the number of
  characters that write it.
* `unescapeText`, `unescapeSet`, `unescapePattern`: the escapes of inserted text, of the sets
  of a transliteration and of a regular expression. All three read from left to right by
  `expand` and leave a text without backslashes as it is.
-/

namespace StreamEditor

namespace Escape

/-- The letters that stand for one control character. -/
def letter? : Char → Option Char
  | 'a' => some '\x07'
  | 'f' => some '\x0c'
  | 'n' => some '\n'
  | 'r' => some '\r'
  | 't' => some '\t'
  | 'v' => some '\x0b'
  | _ => none

/-- The value of a digit in a radix. -/
def digit? (radix : Nat) (c : Char) : Option Nat :=
  let value :=
    if c.isDigit then c.toNat - '0'.toNat
    else if 'a' ≤ c && c ≤ 'z' then c.toNat - 'a'.toNat + 10
    else if 'A' ≤ c && c ≤ 'Z' then c.toNat - 'A'.toNat + 10
    else radix
  if value < radix then some value else none

/-- The value of up to `limit` digits at the front of a text, and their number. -/
def digits (radix : Nat) : Nat → Nat → Text → Nat × Nat
  | 0, value, _ => (value, 0)
  | _ + 1, value, [] => (value, 0)
  | limit + 1, value, c :: rest =>
      match digit? radix c with
      | some d =>
          let (result, used) := digits radix limit (value * radix + d) rest
          (result, used + 1)
      | none => (value, 0)

/-- The character with a code point, if there is one. -/
def ofCode? (code : Nat) : Option Char :=
  if code.isValidChar then some (Char.ofNat code) else none

/-- The character that digits after `letter` write. Without digits, or if they give no code
point, the letter stands for itself. -/
def numeric (radix limit : Nat) (letter : Char) (rest : Text) : Char × Nat :=
  match digits radix limit 0 rest with
  | (_, 0) => (letter, 1)
  | (code, used) =>
      match ofCode? code with
      | some c => (c, used + 1)
      | none => (letter, 1)

/-- The control character that a key produces together with the control key. -/
def control? (c : Char) : Option Char :=
  if c.toNat < 0x80 then some (Char.ofNat (c.toUpper.toNat ^^^ 0x40)) else none

end Escape

open Escape in
/-- The character that the text after a backslash begins to write, and the number of
characters that write it; `none` if there is no character escape. -/
def escape? : Text → Option (Char × Nat)
  | [] => none
  | 'c' :: rest =>
      match rest.head?.bind control? with
      | some c => some (c, 2)
      | none => some ('c', 1)
  | 'd' :: rest => some (numeric 10 3 'd' rest)
  | 'o' :: rest => some (numeric 8 3 'o' rest)
  | 'x' :: rest => some (numeric 16 2 'x' rest)
  | c :: _ => (letter? c).map (·, 1)

namespace Cursor

/-- Reads the character escape ahead, if there is one, and passes it. -/
def escape? (c : Cursor) : Option Char × Cursor :=
  match StreamEditor.escape? c.ahead with
  | some (found, used) => (some found, c.advanceBy used)
  | none => (none, c)

end Cursor

/-- Rewrites the escapes of a text: `unescape` tells what the text after a backslash begins to
write, and how many of its characters do so. -/
def unescapeWith (unescape : Text → Text × Nat) : Text → Text :=
  expand (fun c rest => if c = '\\' then unescape rest else ([c], 0)) 0

/-- A text without backslashes has no escapes. -/
theorem unescapeWith_of_not_mem {unescape : Text → Text × Nat} {t : Text}
    (h : '\\' ∉ t) : unescapeWith unescape t = t :=
  expand_of_self fun c hc _ => by
    have : c ≠ '\\' := fun h' => h (h' ▸ hc)
    simp [this]

/-- Inserted text: a backslash followed by a character escape gives the character, any other
backslash is removed. With `plain` every backslash is just removed. -/
def unescapeText (plain : Bool) : Text → Text :=
  unescapeWith fun rest =>
    match (if plain then none else escape? rest), rest with
    | some (c, used), _ => ([c], used)
    | none, c :: _ => ([c], 1)
    | none, [] => ([], 0)

/-- A set of characters: `\\` is a backslash, a character escape gives the character, any other
backslash stands for itself. -/
def unescapeSet : Text → Text :=
  unescapeWith fun rest =>
    match rest with
    | '\\' :: _ => (['\\'], 1)
    | _ =>
        match escape? rest with
        | some (c, used) => ([c], used)
        | none => (['\\'], 0)

/-- A regular expression: `\n` and `\t` become the characters they stand for, all other escapes
are kept. -/
def unescapePattern : Text → Text :=
  unescapeWith fun rest =>
    match rest with
    | 'n' :: _ => (['\n'], 1)
    | 't' :: _ => (['\t'], 1)
    | c :: _ => (['\\', c], 1)
    | [] => (['\\'], 0)

end StreamEditor
