import StreamEditor.Text

/-!
Patterns that are plain text, possibly tied to the ends of the text to search.

* `needsTree`, `refersBack`: what in a pattern has a meaning beyond plain text.
* `Literal.ofText`: the text that a pattern stands for.
* `Literal.find?`, `Literal.starts`: where it occurs.
-/

namespace StreamEditor.Regex

/-- True if a sign with a meaning of its own may stand after these characters, the last first:
no backslash comes before it, or a pair of them. -/
def unescapedAfter : Text → Bool
  | [] => true
  | '\\' :: before => before.head? = some '\\'
  | _ => true

/-- True if a text begins with a sign that has a meaning beyond plain text. -/
def beginsSign : Text → Bool
  | [] => false
  | c :: rest =>
      ['.', '?', '|', '+', '(', ')', '[', ']', '{', '}', '*'].contains c
        || match rest with
          | [] => false
          | d :: _ =>
              (c = '\\' && (d.isAlphanum || ['<', '>', '`', '\''].contains d))
                || (c ≠ '\n' && d = '^') || (c = '$' && d ≠ '\n')

/-- True if a text begins with a reference to a group. -/
def beginsReference : Text → Bool
  | '\\' :: d :: _ => d.isDigit && d ≠ '0'
  | _ => false

/-- True if `begins` holds of the pattern from some place on at which a sign may stand. -/
def anywhereUnescaped (begins : Text → Bool) (before : Text) : Text → Bool
  | [] => unescapedAfter before && begins []
  | c :: rest =>
      (unescapedAfter before && begins (c :: rest))
        || anywhereUnescaped begins (c :: before) rest

/-- True if a pattern in the extended notation means more than plain text. -/
def needsTree (pattern : Text) : Bool := anywhereUnescaped beginsSign [] pattern

/-- True if a pattern in the extended notation refers back to one of its groups. -/
def refersBack (pattern : Text) : Bool := anywhereUnescaped beginsReference [] pattern

/-- A plain text to search for. -/
structure Literal where
  needle : Text
  /-- It occurs only at the start. -/
  atStart : Bool
  /-- It occurs only at the end. -/
  atEnd : Bool
  deriving DecidableEq, Repr

namespace Literal

/-- A text without its backslashes; each takes away the meaning of the next character. -/
def unescape : Text → Text
  | [] => []
  | ['\\'] => []
  | '\\' :: c :: rest => c :: unescape rest
  | c :: rest => c :: unescape rest

/-- The text before a dollar sign at its end, if that sign is not escaped. -/
def beforeEndAnchor (t : Text) : Option Text :=
  match t.reverse with
  | '$' :: before =>
      if (before.takeWhile (· = '\\')).length % 2 = 0 then some before.reverse else none
  | _ => none

/-- The text that a pattern stands for, with its anchors. -/
def ofText (pattern : Text) : Literal :=
  let (atStart, rest) :=
    match pattern with
    | '^' :: rest => (true, rest)
    | _ => (false, pattern)
  match beforeEndAnchor rest with
  | some inner => ⟨unescape inner, atStart, true⟩
  | none => ⟨unescape rest, atStart, false⟩

/-- The first place at or after `position` at which a text occurs in what follows. -/
def findFrom (needle : Text) (position : Nat) : Text → Option Nat
  | [] => if needle.isEmpty then some position else none
  | c :: rest =>
      if needle.isPrefixOf (c :: rest) then some position
      else findFrom needle (position + 1) rest

/-- The first place at which the text occurs. -/
def find? (l : Literal) (t : Text) : Option Nat :=
  match l.atStart, l.atEnd with
  | true, true => if t = l.needle then some 0 else none
  | true, false => if l.needle.isPrefixOf t then some 0 else none
  | false, true => if l.needle.isSuffixOf t then some (t.length - l.needle.length) else none
  | false, false => findFrom l.needle 0 t

/-- The places of a text, from the left, that do not overlap. The first argument counts
characters that belong to the occurrence found last. -/
def occurrences (needle : Text) : Nat → Nat → Text → List Nat
  | _, _, [] => []
  | n + 1, position, _ :: rest => occurrences needle n (position + 1) rest
  | 0, position, c :: rest =>
      if needle.isPrefixOf (c :: rest) then
        position :: occurrences needle (needle.length - 1) (position + 1) rest
      else occurrences needle 0 (position + 1) rest

/-- All places at which the text occurs; an empty or anchored text has at most one. -/
def starts (l : Literal) (t : Text) : List Nat :=
  if !l.atStart && !l.atEnd && !l.needle.isEmpty then occurrences l.needle 0 0 t
  else (l.find? t).toList

end Literal

end StreamEditor.Regex
