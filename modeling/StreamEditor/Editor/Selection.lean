import StreamEditor.Editor

/-!
Which commands apply to the current record.

* `Editor.resolve`: the regular expression that is meant, which becomes the one used last.
* `Editor.meets`: whether the record meets an address.
* `Editor.inRange`: whether the record lies in a range. The range moves on once for every
  record; asked again about the same record it gives the same answer.
* `Editor.applies`: whether a command applies.
-/

namespace StreamEditor.Editor

/-- A failure of a running command. -/
def fail {α : Type} (c : Command) (reason : Text) : Edit α :=
  throw (.command .running c.place c.letter reason)

/-- The expression that is meant; without one, the one used last. -/
def resolve (c : Command) (regex : Option Regex) : Edit Regex := do
  let e ← get
  match regex.or e.lastRegex with
  | some regex =>
      set { e with lastRegex := some regex }
      return regex
  | none => fail c (Text.ofString "no previous regular expression")

/-- The result of a search; giving up is a failure of the command. What the library says of it
follows the message, and is left out here. -/
def searched {α : Type} (c : Command) (result : Except Regex.Exhausted α) : Edit α :=
  match result with
  | .ok found => return found
  | .error _ => fail c (Text.ofString "error matching RE")

/-- Whether the current record is the last of its stream. -/
def atLast : Edit Bool := return !(← hasNext)

/-- Whether the current record meets an address. -/
def meets (c : Command) (a : Address) : Edit Bool := do
  let line := (← get).lineNumber
  match a with
  | .line n => return line = n
  | .last => atLast
  | .pattern regex =>
      let regex ← resolve c regex
      searched c (regex.isMatch (← get).pattern)
  | .step first 0 => return line = first
  | .step first step => return first ≤ line && (line - first) % step = 0
  | .zero => return false

/-- Line numbers are below this; one that is not begins again from zero. -/
def lineLimit : Nat := Nat.pow 2 64

/-- The line that ends a range which begins at `line`, if that is known there. -/
def endLine (stop : RangeEnd) (line : Nat) : Edit (Option Nat) := do
  match stop with
  | .address (.line n) => return some n
  | .address .last => return if ← atLast then some line else none
  | .address _ => return none
  | .following n => return some ((line + n) % lineLimit)
  | .multiple 0 => return some line
  | .multiple n => return some ((line + n - 1) / n * n % lineLimit)

/-- Moves a range on to the current record: whether it includes the record, and where it then
stands. -/
def advanceRange (c : Command) (first : Address) (stop : RangeEnd) (state : RangeState) :
    Edit (Bool × RangeState) := do
  let line := (← get).lineNumber
  if state.active then
    match state.lastLine, stop with
    | some last, _ => return (line ≤ last, { state with active := line < last })
    | none, .address a => return (true, { state with active := !(← meets c a) })
    | none, _ => return (true, { state with active := false })
  else if ← meets c first then
    let last ← endLine stop line
    return (true, { state with lastLine := last, active := last.all (line < ·) })
  else return (false, state)

/-- Whether the current record lies in a range. -/
def inRange (c : Command) (first : Address) (stop : RangeEnd) (slot : Nat) : Edit Bool := do
  let e ← get
  match e.ranges[slot]? with
  | none => return false
  | some state =>
      match state.answered with
      | some (record, answer) =>
          if record = e.recordsRead then return answer else moved state
      | none => moved state
where
  moved (state : RangeState) : Edit Bool := do
    let (answer, state) ← advanceRange c first stop state
    modify fun e =>
      let state := { state with answered := some (e.recordsRead, answer) }
      { e with ranges := e.ranges.set slot state }
    return answer

/-- Whether a command applies to the current record. -/
def applies (c : Command) : Edit Bool := do
  let selected ←
    match c.selection with
    | .all => pure true
    | .single a => meets c a
    | .range first stop slot => inRange c first stop slot
  return selected ≠ c.negated

/-- Whether a command has no range that goes on after the current record. -/
def rangeEnded (c : Command) (e : Editor) : Bool :=
  match c.selection with
  | .range _ _ slot => (e.ranges[slot]?).all (!·.active)
  | _ => true

end StreamEditor.Editor
