import StreamEditor.Regex.Tree

/-!
Regular expressions that refer back to what their groups matched.

* `Referring`: the expressions.
* `Referring.Traits`: what matters for the order in which the ways through an expression are
  tried: its least length, whether its length is fixed, and whether it is `hard`, that is, has a
  reference in it or is referred to.
* `Referring.tree?`: the plain expression that an expression without references is.
-/

namespace StreamEditor.Regex

/-- An expression that may refer back. -/
inductive Referring where
  | empty
  /-- One character of a set. -/
  | set (s : CharSet)
  /-- A character; with `fold`, any form of it. -/
  | char (c : Char) (fold : Bool)
  | look (l : Look)
  | group (number : Nat) (body : Referring)
  /-- An expression that stands in parentheses only. -/
  | plain (body : Referring)
  | cat (first second : Referring)
  | alt (first second : Referring)
  | loop (body : Referring) (least : Nat) (most : Option Nat) (greedy : Bool)
  /-- A match of the body is never given up for another. -/
  | atomic (body : Referring)
  /-- What a group matched before; with `fold`, any form of it. -/
  | reference (number : Nat) (fold : Bool)
  deriving DecidableEq, Repr, Inhabited

namespace Referring

/-- The parts of a sequence. -/
def parts : Referring → List Referring
  | cat a b => a :: parts b
  | e => [e]

/-- One expression after the other. -/
def catAll : List Referring → Referring
  | [] => empty
  | [e] => e
  | e :: rest => cat e (catAll rest)

/-- The first expression, or else the second, and so on. -/
def altAll : List Referring → Referring
  | [] => empty
  | [e] => e
  | e :: rest => alt e (altAll rest)

/-- The number of groups. -/
def groupCount : Referring → Nat
  | empty | set _ | char _ _ | look _ | reference _ _ => 0
  | group _ e => e.groupCount + 1
  | plain e | loop e _ _ _ | atomic e => e.groupCount
  | cat a b | alt a b => a.groupCount + b.groupCount

/-- The groups that are referred to. -/
def referred : Referring → List Nat
  | empty | set _ | char _ _ | look _ => []
  | reference n _ => [n]
  | group _ e | plain e | loop e _ _ _ | atomic e => e.referred
  | cat a b | alt a b => a.referred ++ b.referred

/-- What matters for the order of tries. -/
structure Traits where
  /-- The least number of characters matched. -/
  minLength : Nat
  /-- All matches have the same length. -/
  fixedLength : Bool
  /-- There is a reference in the expression, or one to a group of it. -/
  hard : Bool
  deriving DecidableEq, Repr

/-- True for the conditions that are decided one by one. -/
def isHardLook : Look → Bool
  | .wordStart | .wordEnd | .wordStartHalf | .wordEndHalf => true
  | _ => false

/-- The traits of an expression within one that refers to the groups `used`. -/
def traits (used : List Nat) : Referring → Traits
  | empty => ⟨0, true, false⟩
  | set _ | char _ _ => ⟨1, true, false⟩
  | look l => ⟨0, true, isHardLook l⟩
  | group n e =>
      let t := traits used e
      { t with hard := t.hard || used.contains n }
  | plain e => traits used e
  | cat a b =>
      let s := traits used a
      let t := traits used b
      ⟨s.minLength + t.minLength, s.fixedLength && t.fixedLength, s.hard || t.hard⟩
  | alt a b =>
      let s := traits used a
      let t := traits used b
      ⟨min s.minLength t.minLength,
        s.fixedLength && t.fixedLength && s.minLength == t.minLength, s.hard || t.hard⟩
  | loop e least most _ =>
      let t := traits used e
      ⟨t.minLength * least, t.fixedLength && most == some least, t.hard⟩
  | atomic e => { traits used e with hard := true }
  | reference _ _ => ⟨0, false, true⟩

/-- The plain expression that an expression is, if it has no references and holds on to no
match. -/
def tree? : Referring → Option Tree
  | empty => some .empty
  | set s => some (.set s)
  | char c fold => some (.set ((CharSet.single c).foldIf fold))
  | look l => some (.look l)
  | group n e => e.tree?.map (.group n)
  | plain e => e.tree?
  | cat a b =>
      match a.tree?, b.tree? with
      | some s, some t => some (.cat s t)
      | _, _ => none
  | alt a b =>
      match a.tree?, b.tree? with
      | some s, some t => some (.alt s t)
      | _, _ => none
  | loop e least most greedy =>
      match e.tree? with
      | some t => if most.all (least ≤ ·) then some (.loopOf t least most greedy) else none
      | none => none
  | atomic _ => none
  | reference _ _ => none

/-- The text that an expression of plain characters is. -/
def literal? : Referring → Option Text
  | char c false => some [c]
  | plain e => e.literal?
  | cat a b =>
      match a.literal?, b.literal? with
      | some s, some t => some (s ++ t)
      | _, _ => none
  | _ => none

end Referring

end StreamEditor.Regex
