import StreamEditor.Regex.Lexeme

/-!
The trees that patterns in the extended notation write.

* `Building`: the groups that are open while lexemes are read, from the innermost outward.
* `Building.push`: takes in one lexeme.
* `Tree.ofText?`: the tree of a pattern, or none if the pattern is malformed.
-/

namespace StreamEditor.Regex

/-- A tree, and how deeply groups, repetitions and sequences are nested in the notation. -/
structure Nested where
  tree : Tree
  depth : Nat
  deriving DecidableEq, Repr, Inhabited

/-- A part of a sequence: a tree, or a change of flags, which cannot be repeated. -/
inductive Piece where
  | tree (t : Nested)
  | flags
  deriving DecidableEq, Repr

namespace Piece

/-- The depth of a part. -/
def depth : Piece → Nat
  | tree t => t.depth
  | flags => 0

/-- The tree of a part, if it has one. -/
def tree? : Piece → Option Tree
  | tree t => some t.tree
  | flags => none

end Piece

/-- The tree of parts in a sequence. -/
def Nested.sequence : List Piece → Nested
  | [] => ⟨.empty, 0⟩
  | [.tree t] => t
  | [.flags] => ⟨.empty, 0⟩
  | pieces =>
      ⟨Tree.catAll (pieces.filterMap Piece.tree?), pieces.foldl (fun d p => max d p.depth) 0 + 1⟩

/-- The tree of alternatives. -/
def Nested.choice : List Nested → Nested
  | [] => ⟨.empty, 0⟩
  | [t] => t
  | branches =>
      ⟨Tree.altAll (branches.map (·.tree)), branches.foldl (fun d t => max d t.depth) 0 + 1⟩

/-- What is read of a group so far. -/
structure Level where
  /-- The number under which the group remembers what it matches. -/
  number : Option Nat
  /-- The alternatives already complete, the last first. -/
  branches : List Nested
  /-- The parts of the current alternative, the last first. -/
  pieces : List Piece
  deriving DecidableEq, Repr

namespace Level

/-- A group in which nothing is read yet. -/
def opened (number : Option Nat) : Level := ⟨number, [], []⟩

/-- Adds a part to the current alternative. -/
def add (l : Level) (p : Piece) : Level := { l with pieces := p :: l.pieces }

/-- Ends the current alternative. -/
def endBranch (l : Level) : Level :=
  { l with branches := Nested.sequence l.pieces.reverse :: l.branches, pieces := [] }

/-- The tree of all that is read, without the group around it. -/
def content (l : Level) : Nested := Nested.choice l.endBranch.branches.reverse

/-- The tree of the group. -/
def finish (l : Level) : Nested :=
  let inner := l.content
  match l.number with
  | some n => ⟨.group n inner.tree, inner.depth + 1⟩
  | none => ⟨inner.tree, inner.depth + 1⟩

end Level

/-- The groups that are open while lexemes are read. -/
structure Building where
  /-- The innermost group. -/
  current : Level
  /-- The groups around it, from the inside outward. -/
  outer : List Level
  /-- How many groups remember what they match. -/
  groups : Nat
  names : List Text
  deriving DecidableEq, Repr

namespace Building

/-- Nothing is read yet. -/
def start : Building := ⟨.opened none, [], 0, []⟩

/-- Adds a part. -/
def add (b : Building) (p : Piece) : Building := { b with current := b.current.add p }

/-- Takes in one lexeme. Fails at a repetition with nothing to repeat, at a parenthesis that
closes nothing, and at a name given twice. -/
def push (b : Building) : Lexeme → Option Building
  | .set s => some (b.add (.tree ⟨.set s, 0⟩))
  | .look l => some (b.add (.tree ⟨.look l, 0⟩))
  | .openGroup name =>
      if name.any b.names.contains then none
      else
        some {
          current := .opened (some (b.groups + 1))
          outer := b.current :: b.outer
          groups := b.groups + 1
          names := name.toList ++ b.names }
  | .openPlain _ => some { b with current := .opened none, outer := b.current :: b.outer }
  | .setFlags _ => some (b.add .flags)
  | .close =>
      match b.outer with
      | [] => none
      | level :: outer =>
          some { b with current := level.add (.tree b.current.finish), outer }
  | .bar => some { b with current := b.current.endBranch }
  | .loop least most greedy =>
      match b.current.pieces with
      | .tree t :: pieces =>
          let repeated : Nested := ⟨Tree.loopOf t.tree least most greedy, t.depth + 1⟩
          some { b with current := { b.current with pieces := .tree repeated :: pieces } }
      | _ => none

/-- The tree of all that is read, if no group is open. -/
def finish (b : Building) : Option Nested :=
  if b.outer.isEmpty then some b.current.content else none

end Building

/-- How deeply the notation may be nested. -/
def maxDepth : Nat := 250

namespace Tree

/-- The tree that lexemes write, if they are balanced and not nested too deeply. -/
def ofLexemes? (lexemes : List Lexeme) : Option Tree :=
  match (lexemes.foldlM Building.push .start).bind Building.finish with
  | some t => if t.depth ≤ maxDepth && t.tree.storage ≤ maxStorage then some t.tree else none
  | none => none

/-- The tree of a pattern. -/
def ofText? (flags : Flags) (pattern : Text) : Option Tree :=
  (Lexeme.ofText? flags pattern).bind ofLexemes?

end Tree

end StreamEditor.Regex
