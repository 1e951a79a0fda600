import StreamEditor.Regex.Match

/-!
The libraries that search for regular expressions. The editor chooses between two of them, and
relies on nothing but what is said here.

* `Standard`: a compiled expression that does not refer back.
* `Fancy`: one that may. A search for it can be given up.
* `Library`: what compiles a pattern in the extended notation, for either of them.

All places count characters.
-/

namespace StreamEditor.Regex

/-- A compiled expression that does not refer back to its groups. -/
structure Standard where
  /-- The number of groups, group zero included. -/
  groupCount : Nat
  /-- Whether the expression matches somewhere in a text. -/
  isMatch : Text → Bool
  /-- The matches in a text, one after the other. -/
  captures : Text → List Match
  deriving Inhabited

/-- A compiled expression that may refer back to its groups. -/
structure Fancy where
  /-- The number of groups, group zero included. -/
  groupCount : Nat
  /-- Whether the expression matches somewhere in a text. -/
  isMatch : Text → Except Exhausted Bool
  /-- The matches in a text, one after the other, and whether the search is given up after them. -/
  captures : Text → List Match × Option Exhausted
  deriving Inhabited

/-- What compiles patterns in the extended notation; a pattern that is not accepted gives nothing.
-/
class Library where
  /-- Without references to groups. -/
  standard? : Text → Option Standard
  /-- With references to groups. -/
  fancy? : Text → Option Fancy

end StreamEditor.Regex
