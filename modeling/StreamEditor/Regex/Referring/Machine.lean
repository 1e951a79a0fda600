import StreamEditor.Regex.Automaton
import StreamEditor.Regex.Referring

/-!
Machines that match expressions which refer back, by trying one way after the other.

* `Referring.Op`: the instructions; targets are relative.
* `Referring.generate`: the code of an expression. Parts without references are left to an
  automaton, at once as long as nothing hard follows and otherwise if their length is fixed, so
  that no other match of them could help.
* `Machine.run`: tries the ways in order of preference. Giving up a way costs one retreat, and
  after `maxRetreats` of them the machine gives up altogether.
-/

namespace StreamEditor.Regex

namespace Referring

/-- An instruction. Control goes to the next one unless stated otherwise. -/
inductive Op where
  | set (s : CharSet)
  | text (t : Text)
  | look (l : Look)
  /-- Remembers the place under a number. -/
  | mark (slot : Nat)
  /-- Goes one way, and keeps the other for later. -/
  | split (first second : Int)
  | jump (offset : Int)
  /-- Sets a counter to zero. -/
  | zero (counter : Nat)
  /-- Begins another round, or leaves the loop to `exit`, as the counter allows. -/
  | round (least : Nat) (most : Option Nat) (counter : Nat) (greedy : Bool) (exit : Int)
  /-- Begins another round likewise, unless the last one passed no character; `place` is the
  counter that holds where it began. -/
  | progress (least counter place : Nat) (greedy : Bool) (exit : Int)
  /-- What the group matched before. -/
  | reference (number : Nat) (fold : Bool)
  /-- Whatever an automaton prefers to match; it has the groups `groups`. -/
  | automaton (a : Automaton) (groups : List Nat)
  /-- Remembers the ways kept for later. -/
  | hold
  /-- Forgets the ways kept since. -/
  | release
  | accept
  deriving Repr, Inhabited

namespace Op

/-- Goes one of two ways; `straight` tells whether the next instruction comes first. -/
def fork (straight : Bool) (offset : Int) : Op :=
  if straight then split 1 offset else split offset 1

end Op

/-- The making of code: takes the number of counters already in use, and may fail. -/
abbrev Generator := StateT Nat Option (List Op)

/-- A counter not yet in use. -/
def freshCounter : StateT Nat Option Nat := fun n => some (n, n + 1)

/-- The numbers of the groups of an expression. -/
def groupNumbers : Referring → List Nat
  | empty | set _ | char _ _ | look _ | reference _ _ => []
  | group n e => n :: e.groupNumbers
  | plain e | loop e _ _ _ | atomic e => e.groupNumbers
  | cat a b | alt a b => a.groupNumbers ++ b.groupNumbers

/-- The code of parts in a sequence that are left to an automaton; plain text is compared
directly. -/
def delegate (es : List Referring) : Generator :=
  match es.mapM literal? with
  | some [] => pure []
  | some texts => pure [.text texts.flatten]
  | none =>
      match es.mapM tree? with
      | some trees =>
          let t := Tree.catAll trees
          if t.storage ≤ Tree.maxStorage then
            pure [.automaton (.ofTree t) (es.flatMap groupNumbers)]
          else failure
      | none => failure

/-- The code of a sequence. The parts at the front that are easy and of fixed length are left to
an automaton, and so are the easy ones at the end, which must be of fixed length only if `hard`.
`codes` is the code of each part between. -/
def sequence (used : List Nat) (hard : Bool) (es : List Referring) (codes : List Generator) :
    Generator := do
  let easy (needsFixed : Bool) (e : Referring) : Bool :=
    let t := traits used e
    !t.hard && (t.fixedLength || !needsFixed)
  let front := es.takeWhile (easy true)
  let rest := es.drop front.length
  let back := (rest.reverse.takeWhile (easy hard)).reverse
  let middle := (codes.drop front.length).take (rest.length - back.length)
  let first ← delegate front
  let between ← middle.mapM id
  let last ← delegate back
  return first ++ between.flatten ++ last

/-- The code of a repetition, from that of its body. -/
def repeated (body : Generator) (bodyLength : Nat) (least : Nat) (most : Option Nat)
    (greedy : Bool) : Generator := do
  match least, most with
  | 0, some 1 =>
      let code ← body
      return .fork greedy (code.length + 1) :: code
  | least, none =>
      if bodyLength = 0 then
        let counter ← freshCounter
        let place ← freshCounter
        let code ← body
        return .zero counter :: .progress least counter place greedy (code.length + 2)
          :: code ++ [.jump (-(code.length + 1))]
      else if least = 0 then
        let code ← body
        return .fork greedy (code.length + 2) :: code ++ [.jump (-(code.length + 1))]
      else if least = 1 then
        let code ← body
        return code ++ [.fork (!greedy) (-code.length)]
      else
        let counter ← freshCounter
        let code ← body
        return .zero counter :: .round least none counter greedy (code.length + 2)
          :: code ++ [.jump (-(code.length + 1))]
  | least, some most =>
      let counter ← freshCounter
      let code ← body
      return .zero counter :: .round least (some most) counter greedy (code.length + 2)
        :: code ++ [.jump (-(code.length + 1))]

/-- The code of two alternatives, from that of each. -/
def alternatives (first second : Generator) : Generator := do
  let a ← first
  let b ← second
  return .split 1 (a.length + 2) :: a ++ .jump (b.length + 1) :: b

/-- The code of an expression, given whether something hard may follow, and the codes of its
parts with something hard after them. `used` are the groups referred to. -/
def generate (used : List Nat) : Referring → (Bool → Generator) × List Generator
  | cat a b =>
      let codes := (generate used a).1 true :: (generate used b).2
      let whole (hard : Bool) : Generator :=
        if !hard && !(traits used (cat a b)).hard then delegate [cat a b]
        else sequence used hard (parts (cat a b)) codes
      (whole, codes)
  | e =>
      let make (hard : Bool) : Generator :=
        if !hard && !(traits used e).hard then delegate [e]
        else
          match e with
          | empty => pure []
          | set s => pure [.set s]
          | char c fold => if fold then pure [.set (.folded (.single c))] else pure [.text [c]]
          | look l => pure [.look l]
          | group n e => do
              let code ← (generate used e).1 hard
              return .mark (2 * n) :: code ++ [.mark (2 * n + 1)]
          | plain e => (generate used e).1 hard
          | cat _ _ => failure
          | alt a b => alternatives ((generate used a).1 hard) ((generate used b).1 hard)
          | loop e least most greedy =>
              let t := traits used e
              let inner := if least = 0 && most = some 1 then hard else hard || t.hard
              repeated ((generate used e).1 inner) t.minLength least most greedy
          | atomic e => do
              let code ← (generate used e).1 false
              return .hold :: code ++ [.release]
          | reference n fold => pure [.reference n fold]
      (make, [make true])

/-- True if an expression matches only at the start of the text. -/
def isAnchored (e : Referring) : Bool := e.parts.head? = some (.look .textStart)

end Referring

/-- A way that is kept for later, or being tried. -/
structure Attempt where
  inst : Nat
  before : Option Char
  rest : Text
  position : Nat
  /-- The places marked, each with the text after it. -/
  marks : Array (Option (Nat × Text))
  counters : Array (Option Nat)
  /-- How many ways were kept when matches began to be held on to, the innermost first. -/
  held : List Nat
  deriving Inhabited

/-- The instructions of a search, and what they use. -/
structure Machine where
  insts : Array Referring.Op
  groups : Nat
  counters : Nat
  deriving Repr, Inhabited

namespace Machine

open Referring (Op)

/-- The machine of an expression. -/
def ofReferring? (e : Referring) : Option Machine :=
  match ((Referring.generate e.referred e).1 false).run 0 with
  | some (code, counters) =>
      let enter : List Op :=
        if e.isAnchored then [] else [.split 3 1, .set .any, .jump (-2)]
      let insts := enter ++ Op.mark 0 :: code ++ [.mark 1, .accept]
      some ⟨insts.toArray, e.groupCount + 1, counters⟩
  | none => none

/-- After so many retreats the machine gives up. -/
def maxRetreats : Nat := 1000000

/-- So many ways may be kept for later. -/
def maxKept : Nat := 1000000

/-- What running the machine comes to. -/
inductive Outcome where
  | found (marks : Array (Option (Nat × Text)))
  | absent
  /-- Too many ways were tried or kept. -/
  | exhausted
  deriving Inhabited

/-- What an instruction does to an attempt. -/
inductive Move where
  | go (a : Attempt)
  /-- Goes on with `a`, and keeps `later`. -/
  | keep (a later : Attempt)
  | hold (a : Attempt)
  /-- Goes on with `a`, and keeps no more than `size` of the ways that are kept. -/
  | release (a : Attempt) (size : Nat)
  | fail
  | found

/-- Passes a text, if it is ahead. -/
def passText (a : Attempt) (t : Text) : Option Attempt :=
  if t.isPrefixOf a.rest then
    some { a with
      before := t.getLast?.or a.before
      rest := a.rest.drop t.length
      position := a.position + t.length }
  else none

/-- The characters at the front of a text that take `size` bytes, if some do exactly. -/
def takeSize : Nat → Text → Option Text
  | 0, _ => some []
  | _ + 1, [] => none
  | size + 1, c :: rest =>
      if c.utf8Size ≤ size + 1 then (takeSize (size + 1 - c.utf8Size) rest).map (c :: ·)
      else none

/-- True if two texts differ at most in the forms of their letters. -/
def sameFolded (s t : Text) : Bool :=
  s.length = t.length && (s.zip t).all fun (c, d) => (Text.caseForms c).contains d

/-- Passes what a group matched before. -/
def passReference (a : Attempt) (number : Nat) (fold : Bool) : Option Attempt :=
  match a.marks[2 * number]?.join, a.marks[2 * number + 1]?.join with
  | some (start, text), some (stop, _) =>
      let matched := text.take (stop - start)
      if fold then
        match takeSize (Text.utf8Size matched) a.rest with
        | some t => if sameFolded matched t then passText a t else none
        | none => none
      else passText a matched
  | _, _ => none

/-- The attempt at the next instruction. -/
def next (a : Attempt) : Attempt := { a with inst := a.inst + 1 }

/-- The attempt at an instruction elsewhere. -/
def goto (a : Attempt) (offset : Int) : Attempt :=
  { a with inst := Automaton.target a.inst offset }

/-- The value of a counter. -/
def counter (a : Attempt) (i : Nat) : Option Nat := a.counters[i]?.join

/-- Sets a counter. -/
def setCounter (a : Attempt) (i value : Nat) : Attempt :=
  { a with counters := a.counters.setIfInBounds i (some value) }

/-- The marks that an automaton sets for its groups. -/
def takeMarks (a : Attempt) (found : Marks) (groups : List Nat) :
    Array (Option (Nat × Text)) :=
  let at? (slot : Nat) : Option (Nat × Text) :=
    (found.lookup slot).map fun p => (p, a.rest.drop (p - a.position))
  groups.foldl (fun marks n =>
    (marks.setIfInBounds (2 * n) (at? (2 * n))).setIfInBounds (2 * n + 1) (at? (2 * n + 1)))
    a.marks

/-- Passes what an automaton prefers to match. -/
def passAutomaton (a : Attempt) (automaton : Automaton) (groups : List Nat) : Option Attempt :=
  match automaton.searchHere a.before a.position a.rest with
  | some found =>
      let stop := (found.lookup 1).getD a.position
      let passed := a.rest.take (stop - a.position)
      some { a with
        before := passed.getLast?.or a.before
        rest := a.rest.drop passed.length
        position := stop
        marks := takeMarks a found groups }
  | none => none

/-- What the instruction of an attempt does. -/
def step (m : Machine) (a : Attempt) : Move :=
  let orFail (r : Option Attempt) : Move :=
    match r with
    | some a => .go (next a)
    | none => .fail
  match m.insts[a.inst]? with
  | none => .fail
  | some .accept => .found
  | some (.set s) =>
      match a.rest with
      | c :: rest =>
          if s.mem c then
            .go (next { a with before := some c, rest, position := a.position + 1 })
          else .fail
      | [] => .fail
  | some (.text t) => orFail (passText a t)
  | some (.look l) => if l.holds a.before a.rest.head? then .go (next a) else .fail
  | some (.mark slot) =>
      .go (next { a with marks := a.marks.setIfInBounds slot (some (a.position, a.rest)) })
  | some (.split first second) => .keep (goto a first) (goto a second)
  | some (.jump offset) => .go (goto a offset)
  | some (.zero i) => .go (next (setCounter a i 0))
  | some (.round least most i greedy exit) =>
      let rounds := (counter a i).getD 0
      if most = some rounds then .go (goto a exit)
      else
        let again := setCounter a i (rounds + 1)
        if rounds < least then .go (next again)
        else if greedy then .keep (next again) (goto again exit)
        else .keep (goto again exit) (next again)
  | some (.progress least i place greedy exit) =>
      let rounds := (counter a i).getD 0
      if 0 < rounds && counter a place = some a.position then .fail
      else
        let again := setCounter a i (rounds + 1)
        if rounds < least then .go (next again)
        else
          let again := setCounter again place a.position
          if greedy then .keep (next again) (goto again exit)
          else .keep (goto again exit) (next again)
  | some (.reference n fold) => orFail (passReference a n fold)
  | some (.automaton automaton groups) => orFail (passAutomaton a automaton groups)
  | some .hold => .hold (next a)
  | some .release =>
      match a.held with
      | size :: held => .release (next { a with held }) size
      | [] => .fail

/-- Runs an attempt, and then those in `kept`, whose number is `size`, until one is found. -/
def run (m : Machine) : Nat → Nat → List Attempt → Nat → Attempt → Outcome
  | 0, _, _, _, _ => .exhausted
  | fuel + 1, retreats, kept, size, a =>
      match m.step a with
      | .found => .found a.marks
      | .go a => run m fuel retreats kept size a
      | .keep a later =>
          if size < maxKept then run m fuel retreats (later :: kept) (size + 1) a
          else .exhausted
      | .hold a => run m fuel retreats kept size { a with held := size :: a.held }
      | .release a size' => run m fuel retreats (kept.drop (size - size')) size' a
      | .fail =>
          match kept with
          | [] => .absent
          | later :: kept =>
              if retreats < maxRetreats then run m fuel (retreats + 1) kept (size - 1) later
              else .exhausted

/-- A number of steps that suffices: between two retreats no instruction is executed twice at
one place. -/
def bound (m : Machine) (rest : Text) : Nat :=
  (maxRetreats + 2) * (m.insts.size + 2) * (rest.length + 2)

/-- Searches for the first match at or after a place. -/
def search (m : Machine) (before : Option Char) (position : Nat) (rest : Text) : Outcome :=
  m.run (m.bound rest) 0 [] 0
    { inst := 0
      before
      rest
      position
      marks := Array.replicate (2 * m.groups) none
      counters := Array.replicate m.counters none
      held := [] }

end Machine

end StreamEditor.Regex
