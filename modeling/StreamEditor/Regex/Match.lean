import StreamEditor.Text

/-!
Matches of a regular expression.

* `Match`: a match and what its groups matched.
* `successive`: the matches in a text, one after the other, from what finds the first.
-/

namespace StreamEditor.Regex

/-- A match: the characters from `start` up to `stop`, and those of each group that took part.
Group zero is the whole match. -/
structure Match where
  start : Nat
  stop : Nat
  groups : List (Option (Nat × Nat))
  deriving DecidableEq, Repr, Inhabited

namespace Match

/-- The span of a group. -/
def span? (m : Match) (n : Nat) : Option (Nat × Nat) := m.groups[n]?.join

/-- The text of a group, from the text after `position`; a group that took no part is empty. -/
def groupText (m : Match) (position : Nat) (rest : Text) (n : Nat) : Text :=
  match m.span? n with
  | some (start, stop) => (rest.drop (start - position)).take (stop - start)
  | none => []

end Match

/-- The search was given up. -/
inductive Exhausted where
  | exhausted
  deriving DecidableEq, Repr, Inhabited

/-- What finds the first match at or after a place, from the character before the place, the number
of characters before it, and the text behind it. -/
abbrev Finder := Option Char → Nat → Text → Except Exhausted (Option Match)

/-- The matches at or after a place, none overlapping another, and whether the search was given up
after them. An empty match right after the match that ended at `last` is none; the search then goes
on after the next character. Each step passes a character or finds the last match at its place, so
twice the length of the text suffices for `fuel`. -/
def successive (find : Finder) :
    Nat → Option Char → Nat → Text → Option Nat → List Match × Option Exhausted
  | 0, _, _, _, _ => ([], none)
  | fuel + 1, before, position, rest, last =>
      match find before position rest with
      | .error e => ([], some e)
      | .ok none => ([], none)
      | .ok (some m) =>
          if m.start = m.stop && last = some m.stop then
            match rest with
            | [] => ([], none)
            | c :: rest => successive find fuel (some c) (position + 1) rest last
          else
            let passed := rest.take (m.stop - position)
            let (others, fault) :=
              successive find fuel (passed.getLast?.or before) m.stop (rest.drop passed.length)
                (some m.stop)
            (m :: others, fault)

/-- All matches in a text, one after the other. -/
def Finder.all (find : Finder) (t : Text) : List Match × Option Exhausted :=
  successive find (2 * t.length + 2) none 0 t none

end StreamEditor.Regex
