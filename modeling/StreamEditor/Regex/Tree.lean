import StreamEditor.Regex.CharSet

/-!
Regular expressions as trees.

* `Look`: conditions on a place between two characters; `Look.holds` decides them.
* `Tree`: the expressions themselves.
* `Tree.minLength`: the least number of characters that an expression matches.
* `Tree.groupCount`: one more than the highest number of a group; group zero is the whole.
-/

namespace StreamEditor.Regex

/-- A condition on a place between two characters. -/
inductive Look where
  | textStart
  | textEnd
  | lineStart
  | lineEnd
  | wordBoundary
  | notWordBoundary
  | wordStart
  | wordEnd
  /-- No word character comes before the place. -/
  | wordStartHalf
  /-- No word character comes after the place. -/
  | wordEndHalf
  deriving DecidableEq, Repr, Inhabited

namespace Look

/-- Whether a condition holds between the characters `before` and `after`; none stands for an
end of the text. -/
def holds (look : Look) (before after : Option Char) : Bool :=
  let wordBefore := before.any Text.isWord
  let wordAfter := after.any Text.isWord
  match look with
  | textStart => before.isNone
  | textEnd => after.isNone
  | lineStart => before.all (· = '\n')
  | lineEnd => after.all (· = '\n')
  | wordBoundary => wordBefore != wordAfter
  | notWordBoundary => wordBefore == wordAfter
  | wordStart => !wordBefore && wordAfter
  | wordEnd => wordBefore && !wordAfter
  | wordStartHalf => !wordBefore
  | wordEndHalf => !wordAfter

end Look

/-- A regular expression. -/
inductive Tree where
  | empty
  /-- One character of a set. -/
  | set (s : CharSet)
  | look (l : Look)
  /-- What `body` matches is remembered under a number. -/
  | group (number : Nat) (body : Tree)
  | cat (first second : Tree)
  /-- `first`, or else `second`. -/
  | alt (first second : Tree)
  /-- From `least` to `most` times `body`, as often as possible if `greedy`, else as rarely. -/
  | loop (body : Tree) (least : Nat) (most : Option Nat) (greedy : Bool)
  deriving DecidableEq, Repr, Inhabited

namespace Tree

/-- The expression that matches one character. -/
def char (c : Char) : Tree := set (.single c)

/-- One expression after the other. -/
def catAll (trees : List Tree) : Tree := trees.foldr cat empty

/-- The first expression, or else the second, and so on. -/
def altAll : List Tree → Tree
  | [] => empty
  | [t] => t
  | t :: rest => alt t (altAll rest)

/-- The least number of characters that an expression matches. -/
def minLength : Tree → Nat
  | empty => 0
  | set _ => 1
  | look _ => 0
  | group _ t => t.minLength
  | cat a b => a.minLength + b.minLength
  | alt a b => min a.minLength b.minLength
  | loop t least _ _ => t.minLength * least

/-- True if it is plain that an expression matches only the empty text. -/
def matchesOnlyEmpty : Tree → Bool
  | empty => true
  | set _ => false
  | look _ => true
  | group _ t => t.matchesOnlyEmpty
  | cat a b => a.matchesOnlyEmpty && b.matchesOnlyEmpty
  | alt a b => a.matchesOnlyEmpty && b.matchesOnlyEmpty
  | loop t _ most _ => most.isSome && t.matchesOnlyEmpty

/-- One more than the highest number of a group. -/
def groupCount : Tree → Nat
  | empty => 1
  | set _ => 1
  | look _ => 1
  | group n t => max (n + 1) t.groupCount
  | cat a b => max a.groupCount b.groupCount
  | alt a b => max a.groupCount b.groupCount
  | loop t _ _ _ => t.groupCount

/-- Repeats an expression. What is not repeated at all vanishes, together with its groups, and
an expression that matches only the empty text is not repeated more than once. -/
def loopOf (body : Tree) (least : Nat) (most : Option Nat) (greedy : Bool) : Tree :=
  let cap (n : Nat) : Nat := if body.matchesOnlyEmpty then min n 1 else n
  match cap least, most.map cap with
  | 0, some 0 => empty
  | 1, some 1 => body
  | least, most => loop body least most greedy

/-- The storage that an expression takes, in bytes; repeated parts are stored repeatedly. -/
def storage : Tree → Nat
  | empty => 0
  | set s =>
      match s with
      | .range low high => if low = high then 32 * low.utf8Size else 64
      | .word | .compl .word => 22000
      | .digit | .compl .digit => 3000
      | _ => 400
  | look _ => 32
  | group _ t => t.storage + 64
  | cat a b => a.storage + b.storage
  | alt a b => a.storage + b.storage + 48
  | loop t least most _ =>
      match most with
      | none => t.storage * max least 1 + 48
      | some most => t.storage * most + 48 * (most - least)

/-- Expressions that take more storage are refused. -/
def maxStorage : Nat := 10 * Nat.pow 2 20

end Tree

end StreamEditor.Regex
