import StreamEditor.Text

/-!
Listings: a text in which every byte can be told, in lines of a given width.

* `Listing.escape`: the sign of a byte.
* `Listing.render`: the signs of all bytes, broken into lines by backslashes, and a dollar sign
  at the end. A sign is never broken.
-/

namespace StreamEditor.Listing

/-- The three octal digits of a byte. -/
def octal (b : UInt8) : Text :=
  let digit (n : Nat) : Char := Char.ofNat ('0'.toNat + n % 8)
  [digit (b.toNat / 64), digit (b.toNat / 8), digit b.toNat]

/-- The sign of a byte. -/
def escape (b : UInt8) : Text :=
  if b = 92 then ['\\', '\\']
  else if b = 7 then ['\\', 'a']
  else if b = 8 then ['\\', 'b']
  else if b = 12 then ['\\', 'f']
  else if b = 10 then ['\\', 'n']
  else if b = 13 then ['\\', 'r']
  else if b = 9 then ['\\', 't']
  else if b = 11 then ['\\', 'v']
  else if 32 ≤ b && b ≤ 126 then [Char.ofNat b.toNat]
  else '\\' :: octal b

/-- Writes signs, beginning a new line before one that would not leave room for a backslash.
Widths below two break no lines. -/
def fill (width : Nat) : Nat → List Text → Text
  | _, [] => ['$']
  | column, sign :: rest =>
      if 1 < width && width - 1 < column + sign.length then
        '\\' :: '\n' :: sign ++ fill width sign.length rest
      else sign ++ fill width (column + sign.length) rest

/-- The listing of a text. -/
def render (t : Text) (width : Nat) : Text := fill width 0 ((Text.utf8 t).map escape)

end StreamEditor.Listing
