import StreamEditor.Regex.Automaton
import StreamEditor.Regex.Library
import StreamEditor.Regex.Notation
import StreamEditor.Regex.Referring.Machine
import StreamEditor.Regex.Referring.Notation

/-!
A library of regular expressions to run the editor with.

* `Tree.standard`: an expression without references is searched for by an automaton.
* `Referring.fancy?`: one with references by a machine that tries one way after the other. What
  needs no such machine is left to an automaton as a whole.
* `Library.builtin`: both, for patterns in the extended notation.
-/

namespace StreamEditor.Regex

/-- The match that marked places describe. -/
def Match.ofMarks (groups : Nat) (place? : Nat → Option Nat) : Match :=
  let span (n : Nat) : Option (Nat × Nat) :=
    match place? (2 * n), place? (2 * n + 1) with
    | some start, some stop => some (start, stop)
    | _, _ => none
  ⟨(place? 0).getD 0, (place? 1).getD 0, (List.range groups).map span⟩

/-- The first match of an automaton at or after a place. -/
def Automaton.find (a : Automaton) (groups : Nat) (before : Option Char) (position : Nat)
    (rest : Text) : Option Match :=
  (a.search before position rest).map fun marks =>
    .ofMarks groups fun slot => List.lookup slot marks

/-- The match that running a machine comes to. -/
def Machine.Outcome.match? (groups : Nat) : Machine.Outcome → Except Exhausted (Option Match)
  | .found marks => .ok (some (.ofMarks groups fun n => marks[n]?.join.map (·.1)))
  | .absent => .ok none
  | .exhausted => .error .exhausted

/-- The first match of a machine at or after a place. -/
def Machine.find (m : Machine) (before : Option Char) (position : Nat) (rest : Text) :
    Except Exhausted (Option Match) :=
  (m.search before position rest).match? m.groups

/-- A search that is never given up. -/
def Finder.sure (find : Option Char → Nat → Text → Option Match) : Finder :=
  fun before position rest => .ok (find before position rest)

/-- The compiled expression of an expression without references. -/
def Tree.standard (t : Tree) : Standard :=
  let a := Automaton.ofTree t
  { groupCount := t.groupCount
    isMatch := fun text => (a.find t.groupCount none 0 text).isSome
    captures := fun text => ((Finder.sure (a.find t.groupCount)).all text).1 }

/-- What a search makes of an expression that has so many groups. -/
def Fancy.ofFinder (groups : Nat) (find : Finder) : Fancy :=
  { groupCount := groups
    isMatch := fun text => (find none 0 text).map Option.isSome
    captures := find.all }

/-- The compiled expression of an expression that may refer back. -/
def Referring.fancy? (e : Referring) : Option Fancy :=
  if (e.traits e.referred).hard then
    (Machine.ofReferring? e).map fun m => .ofFinder m.groups m.find
  else
    match e.tree? with
    | some t =>
        if t.storage ≤ Tree.maxStorage then
          let a := Automaton.ofTree t
          some (.ofFinder t.groupCount (.sure (a.find t.groupCount)))
        else none
    | none => none

/-- The library that the editor is run with. -/
instance Library.builtin : Library where
  standard? pattern := (Tree.ofText? .none pattern).map Tree.standard
  fancy? pattern :=
    (Referring.ofText? .none (Text.utf8Size pattern) pattern).bind Referring.fancy?

end StreamEditor.Regex
