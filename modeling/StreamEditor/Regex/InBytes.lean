import StreamEditor.Regex

/-!
Plain text looked for in the bytes of a text, and matches replaced there.

* `Bytes.slice?`: a part of the bytes of a text. There is none if a character is cut.
* `ByteSearch`: what looks for bytes in others. `Literal.byteStarts` looks for plain text with it.
* `rewriteBytes?`, `Literal.replaceBytes?`: put a template in the place of matches, all of whose
  places count bytes. There is no result if a slice is asked for that there is not.
-/

namespace StreamEditor

/-- The number of bytes before a character. -/
def Text.offset (t : Text) (n : Nat) : Nat := Text.utf8Size (t.take n)

namespace Bytes

/-- A character begins here, or the text ends. -/
def isBoundary (bytes : Bytes) (n : Nat) : Bool :=
  n = 0 || n = bytes.length || bytes[n]?.any (!isContinuation ·)

/-- The bytes from `start` up to `stop`. -/
def slice? (bytes : Bytes) (start stop : Nat) : Option Bytes :=
  if start ≤ stop && isBoundary bytes start && isBoundary bytes stop then
    some ((bytes.drop start).take (stop - start))
  else none

end Bytes

/-- What looks for bytes in others. -/
structure ByteSearch where
  /-- The first place in the first bytes at which the others occur. -/
  first? : Bytes → Bytes → Option Nat
  /-- The places in the first bytes at which the others occur, none overlapping another. -/
  places : Bytes → Bytes → List Nat

/-- The bytes of a part of the replacement of a match. -/
def Template.Part.bytes? (group? : Nat → Option Bytes) : Part → Option Bytes
  | literal text => some (Text.utf8 text)
  | whole => group? 0
  | group n => group? n

/-- The bytes of the replacement of a match. -/
def Template.applyBytes? (t : Template) (group? : Nat → Option Bytes) : Option Bytes :=
  (t.parts.mapM (Part.bytes? group?)).map List.flatten

namespace Regex

namespace Literal

/-- The first place at which the text occurs. -/
def byteFind? (search : ByteSearch) (l : Literal) (bytes : Bytes) : Option Nat :=
  let needle := Text.utf8 l.needle
  match l.atStart, l.atEnd with
  | true, true => if bytes = needle then some 0 else none
  | true, false => if needle.isPrefixOf bytes then some 0 else none
  | false, true => if needle.isSuffixOf bytes then some (bytes.length - needle.length) else none
  | false, false => search.first? bytes needle

/-- All places at which the text occurs; an empty or anchored text has at most one. -/
def byteStarts (search : ByteSearch) (l : Literal) (bytes : Bytes) : List Nat :=
  if !l.atStart && !l.atEnd && !l.needle.isEmpty then search.places bytes (Text.utf8 l.needle)
  else (l.byteFind? search bytes).toList

/-- The matches of plain text. -/
def byteMatches (search : ByteSearch) (l : Literal) (bytes : Bytes) : List Match :=
  (l.byteStarts search bytes).map fun start =>
    let stop := start + (Text.utf8 l.needle).length
    ⟨start, stop, [some (start, stop)]⟩

end Literal

/-- The bytes of a group; a group that took no part has none. -/
def Match.groupBytes? (m : Match) (bytes : Bytes) (n : Nat) : Option Bytes :=
  match m.span? n with
  | some (start, stop) => bytes.slice? start stop
  | none => some []

/-- Puts a template in the place of matches, in the bytes behind `position`. -/
def rewriteBytes? (template : Template) (bytes : Bytes) (position : Nat) :
    List Match → Option Bytes
  | [] => bytes.slice? position bytes.length
  | m :: others => do
      let kept ← bytes.slice? position m.start
      let new ← template.applyBytes? (m.groupBytes? bytes)
      let rest ← rewriteBytes? template bytes m.stop others
      return kept ++ new ++ rest

/-- Puts a template in the place of the match of plain text with number `occurrence`, and, if
`everywhere`, of all that follow it. -/
def Literal.replaceBytes? (search : ByteSearch) (l : Literal) (template : Template)
    (occurrence : Nat) (everywhere : Bool) (bytes : Bytes) : Option (Bytes × Nat) :=
  let found := l.byteMatches search bytes
  let chosen :=
    (if everywhere then found else found.take (max occurrence 1)).drop (occurrence - 1)
  if chosen.isEmpty then some (bytes, 0)
  else (rewriteBytes? template bytes 0 chosen).map fun result => (result, chosen.length)

end Regex

end StreamEditor
