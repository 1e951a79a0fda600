import StreamEditor.Text
import StreamEditor.Text.CaseFold
import StreamEditor.Text.Word

/-!
Sets of characters, as a regular expression describes them.

* `CharSet`: descriptions, built from ranges and the classes of all scripts.
* `CharSet.mem`: whether a character belongs to the set that is described.
-/

namespace StreamEditor.Regex

/-- The description of a set of characters. -/
inductive CharSet where
  | empty
  /-- All characters. -/
  | any
  /-- Letters, marks, digits and connectors. -/
  | word
  /-- Decimal digits. -/
  | digit
  /-- White space. -/
  | space
  /-- The characters from `low` to `high`, both included. -/
  | range (low high : Char)
  | union (a b : CharSet)
  | inter (a b : CharSet)
  /-- What belongs to `a` and not to `b`. -/
  | diff (a b : CharSet)
  /-- What belongs to one of the sets and not to the other. -/
  | symm (a b : CharSet)
  | compl (a : CharSet)
  /-- All forms of the letters in `a`. -/
  | folded (a : CharSet)
  deriving DecidableEq, Repr, Inhabited

namespace CharSet

/-- The set with one character. -/
def single (c : Char) : CharSet := range c c

/-- Whether a character belongs to a set. -/
def mem : CharSet → Char → Bool
  | empty, _ => false
  | any, _ => true
  | word, c => Text.isWord c
  | digit, c => Text.isDigit c
  | space, c => Text.isSpace c
  | range low high, c => low ≤ c && c ≤ high
  | union a b, c => a.mem c || b.mem c
  | inter a b, c => a.mem c && b.mem c
  | diff a b, c => a.mem c && !b.mem c
  | symm a b, c => a.mem c != b.mem c
  | compl a, c => !a.mem c
  | folded a, c => (Text.caseForms c).any a.mem

@[simp] theorem mem_single (a c : Char) : (single a).mem c = (c == a) := by
  rw [Bool.eq_iff_iff]
  simp only [single, mem, Bool.and_eq_true, decide_eq_true_eq, beq_iff_eq]
  constructor
  · rintro ⟨h₁, h₂⟩
    exact Char.le_antisymm h₂ h₁
  · rintro rfl
    exact ⟨Char.le_refl c, Char.le_refl c⟩

/-- The set closed under the forms of letters, if `fold` asks for it. -/
def foldIf (fold : Bool) (a : CharSet) : CharSet := if fold then folded a else a

/-- The complement, if `negate` asks for it. -/
def complIf (negate : Bool) (a : CharSet) : CharSet := if negate then compl a else a

/-- The union of ranges. -/
def ofRanges : List (Char × Char) → CharSet
  | [] => empty
  | [(low, high)] => range low high
  | (low, high) :: rest => union (range low high) (ofRanges rest)

/-- The classes of characters that have names, as they are used inside brackets. -/
def named? (name : Text) : Option CharSet :=
  match String.ofList name with
  | "alnum" => some (ofRanges [('0', '9'), ('A', 'Z'), ('a', 'z')])
  | "alpha" => some (ofRanges [('A', 'Z'), ('a', 'z')])
  | "ascii" => some (range '\x00' '\x7F')
  | "blank" => some (ofRanges [('\t', '\t'), (' ', ' ')])
  | "cntrl" => some (ofRanges [('\x00', '\x1F'), ('\x7F', '\x7F')])
  | "digit" => some (range '0' '9')
  | "graph" => some (range '!' '~')
  | "lower" => some (range 'a' 'z')
  | "print" => some (range ' ' '~')
  | "punct" => some (ofRanges [('!', '/'), (':', '@'), ('[', '`'), ('{', '~')])
  | "space" => some (ofRanges [('\t', '\r'), (' ', ' ')])
  | "upper" => some (range 'A' 'Z')
  | "word" => some (ofRanges [('0', '9'), ('A', 'Z'), ('_', '_'), ('a', 'z')])
  | "xdigit" => some (ofRanges [('0', '9'), ('A', 'F'), ('a', 'f')])
  | _ => none

end CharSet

end StreamEditor.Regex
