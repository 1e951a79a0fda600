import StreamEditor.Text

/-!
Places in a script.

* `Location`: the source that holds the place, its line and its column, both counted from one.
-/

namespace StreamEditor

/-- A place in one of the sources of a script. -/
structure Location where
  source : Text
  line : Nat
  column : Nat
  deriving DecidableEq, Repr, Inhabited

namespace Location

/-- The form `source:line:column`. -/
def render (l : Location) : Text :=
  l.source ++ ':' :: Text.decimal l.line ++ ':' :: Text.decimal l.column

end Location

end StreamEditor
