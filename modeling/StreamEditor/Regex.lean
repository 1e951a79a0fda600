import StreamEditor.Regex.BasicNotation
import StreamEditor.Regex.Library
import StreamEditor.Regex.Literal
import StreamEditor.Template

/-!
Regular expressions of a script.

* `Regex`: the pattern as it is written, and what searches for it: plain text, or an expression
  that one of the libraries compiled.
* `Regex.compile?`: reads a pattern in the basic or the extended notation.
* `Regex.allMatches`: the matches in a text, from the left, none overlapping another.
* `Regex.replace`: puts a template in the place of matches.
-/

namespace StreamEditor

namespace Regex

/-- How a pattern is read. -/
structure Options where
  /-- In the extended notation rather than the basic one. -/
  extended : Bool
  /-- Letters stand for all their forms. -/
  ignoreCase : Bool
  /-- Anchors match at the ends of lines too. -/
  multiLine : Bool
  deriving DecidableEq, Repr, Inhabited

/-- The flags that a library is to read a pattern with, as they stand before it. A dot matches a
newline too. -/
def Options.flags (o : Options) : Text :=
  Text.ofString "(?s)" ++ (if o.ignoreCase then Text.ofString "(?i)" else [])
    ++ (if o.multiLine then Text.ofString "(?m)" else [])

/-- What searches for a pattern. -/
inductive Engine where
  | literal (l : Literal)
  | standard (m : Standard)
  | fancy (m : Fancy)
  deriving Inhabited

end Regex

/-- A regular expression: the pattern as it is written, and what searches for it. -/
structure Regex where
  source : Text
  engine : Regex.Engine
  deriving Inhabited

namespace Regex

/-- What searches for a pattern in the extended notation; none if no library accepts it. -/
def Engine.ofText? [Library] (options : Options) (pattern : Text) : Option Engine :=
  let refers := refersBack pattern
  if !options.ignoreCase && !options.multiLine && !needsTree pattern && !refers then
    some (.literal (.ofText pattern))
  else if refers then (Library.fancy? (options.flags ++ pattern)).map .fancy
  else (Library.standard? (options.flags ++ pattern)).map .standard

/-- Reads a pattern. -/
def compile? [Library] (options : Options) (pattern : Text) : Option Regex :=
  let extended := if options.extended then pattern else BasicNotation.toExtended pattern
  (Engine.ofText? options extended).map fun engine => ⟨pattern, engine⟩

/-- The number of groups, group zero included. -/
def groupCount (re : Regex) : Nat :=
  match re.engine with
  | .literal _ => 1
  | .standard m => m.groupCount
  | .fancy m => m.groupCount

/-- The matches of plain text. -/
def literalMatches (l : Literal) (t : Text) : List Match :=
  (l.starts t).map fun start =>
    let stop := start + l.needle.length
    ⟨start, stop, [some (start, stop)]⟩

/-- The matches in a text, from the left, and whether the search was given up after them. -/
def Engine.captures (t : Text) : Engine → List Match × Option Exhausted
  | .literal l => (literalMatches l t, none)
  | .standard m => (m.captures t, none)
  | .fancy m => m.captures t

/-- The matches in a text, from the left, at most `limit` of them if there is a limit, and
whether the search was given up after them. Nothing is searched for after the last match that is
asked for. -/
def allMatches (re : Regex) (limit : Option Nat) (t : Text) : List Match × Option Exhausted :=
  let (found, fault) := re.engine.captures t
  match limit with
  | none => (found, fault)
  | some n => (found.take n, if n ≤ found.length then none else fault)

/-- Whether the expression matches somewhere in a text. -/
def isMatch (re : Regex) (t : Text) : Except Exhausted Bool :=
  match re.engine with
  | .literal l => .ok (l.find? t).isSome
  | .standard m => .ok (m.isMatch t)
  | .fancy m => m.isMatch t

/-- Puts a template in the place of matches in a text, of which `rest` is the part after
`position`. -/
def rewrite (template : Template) (t : Text) (position : Nat) (rest : Text) : List Match → Text
  | [] => rest
  | m :: others =>
      rest.take (m.start - position) ++ template.apply (m.groupText 0 t)
        ++ rewrite template t m.stop (rest.drop (m.stop - position)) others

/-- Puts a template in the place of the match with number `occurrence`, counted from one, and,
if `everywhere`, of all that follow it. Returns the text and the number of replacements. -/
def replace (re : Regex) (template : Template) (occurrence : Nat) (everywhere : Bool)
    (t : Text) : Except Exhausted (Text × Nat) :=
  let limit := if everywhere then none else some (max occurrence 1)
  match re.allMatches limit t with
  | (_, some e) => .error e
  | (found, none) =>
      let chosen := found.drop (occurrence - 1)
      .ok (rewrite template t 0 t chosen, chosen.length)

end Regex

end StreamEditor
