import StreamEditor.Regex.Tree

/-!
Automata that search a text for a regular expression in one pass.

* `Inst`: the instructions; targets are relative, so that code can be put anywhere.
* `Tree.code`: the instructions of an expression.
* `Automaton`: the instructions of a whole search; `Automaton.ofTree` adds the marks of group
  zero and the final acceptance.
* `Automaton.search`: follows all ways through the instructions at once, in the order in which
  the expression prefers them, and never the same instruction twice at one place. The result is
  the match that begins first, and among those the one that is preferred.
-/

namespace StreamEditor.Regex

/-- An instruction. Control goes to the next one unless stated otherwise. -/
inductive Inst where
  /-- Passes one character of a set. -/
  | set (s : CharSet)
  /-- Goes on where a condition holds. -/
  | look (l : Look)
  /-- Remembers the place under a number. -/
  | mark (slot : Nat)
  /-- Goes both ways, and prefers the first. -/
  | split (first second : Int)
  | jump (offset : Int)
  | accept
  deriving DecidableEq, Repr, Inhabited

/-- Goes one of two ways; `straight` tells whether the next instruction is preferred to that
at `offset`. -/
def Inst.fork (straight : Bool) (offset : Int) : Inst :=
  if straight then .split 1 offset else .split offset 1

namespace Tree

/-- Up to `n` times the code `body`, each time inside the one before. -/
def optionals (greedy : Bool) (body : List Inst) : Nat → List Inst
  | 0 => []
  | n + 1 =>
      let inner := body ++ optionals greedy body n
      .fork greedy (inner.length + 1) :: inner

/-- One or more times the code `body`. -/
def atLeastOnce (greedy : Bool) (body : List Inst) : List Inst :=
  body ++ [.fork (!greedy) (-body.length)]

/-- Any number of times the code `body`, which passes at least one character if `progresses`. -/
def anyTimes (greedy progresses : Bool) (body : List Inst) : List Inst :=
  if progresses then
    .fork greedy (body.length + 2) :: body ++ [.jump (-(body.length + 1))]
  else
    let again := atLeastOnce greedy body
    .fork greedy (again.length + 1) :: again

/-- `n` times the code `body`. -/
def exactly (n : Nat) (body : List Inst) : List Inst := (List.replicate n body).flatten

/-- The code of an expression. -/
def code : Tree → List Inst
  | empty => []
  | set s => [.set s]
  | look l => [.look l]
  | group n t => .mark (2 * n) :: t.code ++ [.mark (2 * n + 1)]
  | cat a b => a.code ++ b.code
  | alt a b =>
      let first := a.code
      let second := b.code
      .split 1 (first.length + 2) :: first ++ .jump (second.length + 1) :: second
  | loop t least most greedy =>
      let body := t.code
      match most with
      | some most => exactly least body ++ optionals greedy body (most - least)
      | none =>
          if least = 0 then anyTimes greedy (0 < t.minLength) body
          else exactly (least - 1) body ++ atLeastOnce greedy body

end Tree

/-- The places marked so far, the last first: a slot and a number of characters passed. -/
abbrev Marks := List (Nat × Nat)

/-- A way through the instructions: the next instruction, and the places marked. -/
structure Thread where
  inst : Nat
  marks : Marks
  deriving Repr, Inhabited

/-- The ways that reach one place: the instructions entered there, as the bits of a number, and
those at which the ways wait for a character, the last first. -/
structure Reached where
  entered : Nat
  waiting : List Thread
  deriving Repr, Inhabited

namespace Reached

/-- Nothing is reached. -/
def none : Reached := ⟨0, []⟩

end Reached

/-- A place in a text: the characters around it, and how many characters come before it. -/
structure Place where
  before : Option Char
  after : Option Char
  position : Nat
  deriving Repr, Inhabited

/-- The instructions of a search. -/
structure Automaton where
  insts : Array Inst
  deriving Repr, Inhabited

namespace Automaton

/-- The automaton of an expression. -/
def ofTree (t : Tree) : Automaton := ⟨((Tree.group 0 t).code ++ [Inst.accept]).toArray⟩

/-- The instruction at an offset from another. -/
def target (inst : Nat) (offset : Int) : Nat := ((inst : Int) + offset).toNat

/-- Follows a way at one place up to the instructions that pass a character or accept, and
enters no instruction a second time. Each step enters a new instruction, so `fuel` need be no
more than their number. -/
def follow (a : Automaton) (here : Place) : Nat → Nat → Marks → Reached → Reached
  | 0, _, _, reached => reached
  | fuel + 1, inst, marks, reached =>
      if reached.entered.testBit inst then reached
      else
        let reached := { reached with entered := reached.entered ||| 1 <<< inst }
        match a.insts[inst]? with
        | some (.look l) =>
            if l.holds here.before here.after then follow a here fuel (inst + 1) marks reached
            else reached
        | some (.mark slot) =>
            follow a here fuel (inst + 1) ((slot, here.position) :: marks) reached
        | some (.split first second) =>
            follow a here fuel (target inst second) marks
              (follow a here fuel (target inst first) marks reached)
        | some (.jump offset) => follow a here fuel (target inst offset) marks reached
        | some _ => { reached with waiting := ⟨inst, marks⟩ :: reached.waiting }
        | none => reached

/-- Enters the code at one place, after all ways that already reach it. -/
def enter (a : Automaton) (here : Place) (reached : Reached) : Reached :=
  a.follow here (a.insts.size + 1) 0 [] reached

/-- The ways that are preferred to the first that accepts, and the marks of that one. -/
def cut (a : Automaton) : List Thread → List Thread × Option Marks
  | [] => ([], none)
  | thread :: rest =>
      match a.insts[thread.inst]? with
      | some .accept => ([], some thread.marks)
      | _ =>
          let (preferred, found) := cut a rest
          (thread :: preferred, found)

/-- Passes a character on a way; `here` is the place after it. -/
def pass (a : Automaton) (c : Char) (here : Place) (reached : Reached) (thread : Thread) :
    Reached :=
  match a.insts[thread.inst]? with
  | some (.set s) =>
      if s.mem c then a.follow here (a.insts.size + 1) (thread.inst + 1) thread.marks reached
      else reached
  | _ => reached

/-- Searches from a place onward. `entering` tells whether a match may begin at the place and,
with `anywhere`, at later ones; `reached` are the ways that reach the place, and `best` is the
preferred match so far. -/
def searchFrom (a : Automaton) (anywhere entering : Bool) (before : Option Char)
    (position : Nat) (reached : Reached) (best : Option Marks) : Text → Option Marks
  | [] =>
      let here : Place := ⟨before, none, position⟩
      let reached := if entering && best.isNone then a.enter here reached else reached
      (a.cut reached.waiting.reverse).2.or best
  | c :: rest =>
      let here : Place := ⟨before, some c, position⟩
      let reached := if entering && best.isNone then a.enter here reached else reached
      let (live, found) := a.cut reached.waiting.reverse
      let best := found.or best
      if live.isEmpty && (best.isSome || !anywhere) then best
      else
        let next : Place := ⟨some c, rest.head?, position + 1⟩
        let reached := live.foldl (a.pass c next) .none
        searchFrom a anywhere anywhere (some c) (position + 1) reached best rest

/-- Searches for the first match at or after a place. -/
def search (a : Automaton) (before : Option Char) (position : Nat) (rest : Text) :
    Option Marks :=
  a.searchFrom true true before position .none none rest

/-- Searches for a match that begins at a place. -/
def searchHere (a : Automaton) (before : Option Char) (position : Nat) (rest : Text) :
    Option Marks :=
  a.searchFrom false true before position .none none rest

end Automaton

end StreamEditor.Regex
