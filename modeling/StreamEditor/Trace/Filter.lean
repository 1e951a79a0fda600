import StreamEditor.Text.Ranges
import StreamEditor.Trace

/-!
Filters of a trace.

* `Filter`: rules that say up to which detail events appear, for all sources of events or for
  those whose names begin in a certain way.
* `Filter.parse?`: reads rules that are divided by commas: a level, a name with a level, or a
  name alone, which lets everything through.
* `Filter.shows`: of the rules about the editor's own events, the most particular one decides.
-/

namespace StreamEditor

/-- A rule of a filter. -/
structure FilterRule where
  /-- The beginning of the names of the sources that the rule is about; empty for all. -/
  source : Text
  /-- Events appear up to this detail. -/
  detail : Nat
  deriving DecidableEq, Repr, Inhabited

/-- Rules that say which events appear; of rules about the same sources the last counts. -/
abbrev Filter := List FilterRule

namespace Filter

/-- The name of the source of all events of the editor. -/
def ownSource : Text := Text.ofString "uu_rsed"

/-- Events appear up to this detail if nothing else is asked for. -/
def standard : Filter := [⟨ownSource, Severity.debug.detail⟩]

/-- The levels in order of detail; the first lets nothing through. -/
def levels : List Text :=
  Text.ofString "off"
    :: [Severity.error, .warn, .info, .debug, .trace].map fun s => s.name.map Char.toLower

/-- Reads a level: a word, in letters of either case, or its number. -/
def level? (t : Text) : Option Nat :=
  match t with
  | [c] => if '0' ≤ c && c ≤ '5' then some (c.toNat - '0'.toNat) else none
  | _ => levels.findIdx? (· = t.map Char.toLower)

/-- The characters of a name. -/
def isNameChar (c : Char) : Bool := c.isAlphanum || c = '_' || c = ':' || c = '-'

/-- Reads a rule. -/
def rule? (t : Text) : Option FilterRule :=
  match level? t with
  | some detail => some ⟨[], detail⟩
  | none =>
      let source := t.takeWhile isNameChar
      let found (detail : Nat) : Option FilterRule :=
        if source.isEmpty then none else some ⟨source, detail⟩
      match t.dropWhile isNameChar with
      | [] => found Severity.trace.detail
      | ['='] => found Severity.trace.detail
      | '=' :: level => (level? level).bind found
      | _ => none

/-- Reads a filter. A blank one asks for nothing in particular. -/
def parse? (t : Text) : Option Filter :=
  if t.all Text.isSpace then some standard
  else ((Text.pieces ',' t).filter (· ≠ [])).mapM rule?

/-- Whether an event of the editor appears. -/
def shows (f : Filter) (severity : Severity) : Bool :=
  let about := f.filter fun r => r.source.isPrefixOf ownSource
  let decisive := about.foldl
    (fun (best : FilterRule) r => if best.source.length ≤ r.source.length then r else best)
    ⟨[], 0⟩
  severity.detail ≤ decisive.detail

end Filter

end StreamEditor
