import StreamEditor.Escape

/-!
Replacements of a substitution.

* `Template`: literal pieces, the whole match and its groups, in order.
* `Template.compile`: reads a replacement as it is written in a script.
* `Template.render`: writes a template so that it can be read back.
* `Template.apply`: the replacement of one match.
-/

namespace StreamEditor

/-- A part of a replacement. -/
inductive Template.Part where
  | literal (text : Text)
  /-- What the regular expression matched. -/
  | whole
  /-- What the group with this number matched. -/
  | group (number : Nat)
  deriving DecidableEq, Repr, Inhabited

/-- The replacement of a substitution. -/
structure Template where
  parts : List Template.Part
  deriving DecidableEq, Repr, Inhabited

namespace Template

namespace Part

/-- The group that a part refers to; zero if it refers to none. -/
def groupNumber : Part → Nat
  | group n => n
  | _ => 0

/-- Adds a part before others; literals that meet become one. -/
def cons : Part → List Part → List Part
  | literal t, literal u :: parts => literal (t ++ u) :: parts
  | part, parts => part :: parts

/-- What the text after a backslash in a replacement begins to write, and how many of its
characters do so: a digit is a group, `&`, a backslash and a newline stand for themselves, a
character escape gives the character, and any other character stands for itself. -/
def ofEscape : Text → Part × Nat
  | [] => (literal ['\\'], 0)
  | c :: rest =>
      if c = '0' then (whole, 1)
      else if c.isDigit then (group (c.toNat - '0'.toNat), 1)
      else if c = '\\' || c = '&' || c = '\n' then (literal [c], 1)
      else
        match escape? (c :: rest) with
        | some (decoded, used) => (literal [decoded], used)
        | none => (literal [c], 1)

/-- A character of a literal as it is written in a script. -/
def renderChar (c : Char) : Text :=
  if c = '\\' || c = '&' || c = '/' then ['\\', c]
  else if c = '\n' then ['\\', 'n']
  else [c]

/-- A part as it is written in a script. -/
def render : Part → Text
  | literal t => t.flatMap renderChar
  | whole => ['&']
  | group n => '\\' :: Text.decimal n

end Part

/-- The highest group that a template refers to; zero if it refers to none. -/
def maxGroup (t : Template) : Nat := t.parts.foldl (fun n part => max n part.groupNumber) 0

/-- Reads a replacement, each character or escape by itself. -/
def pieces : Text → List Part :=
  expand (fun c rest =>
    if c = '&' then ([.whole], 0)
    else if c = '\\' then
      let (part, used) := Part.ofEscape rest
      ([part], used)
    else ([.literal [c]], 0)) 0

/-- Reads a replacement as it is written in a script. -/
def compile (t : Text) : Template := ⟨(pieces t).foldr Part.cons []⟩

/-- A template as it is written in a script. -/
def render (t : Template) : Text := t.parts.flatMap Part.render

/-- The replacement of a match; `group` tells what its groups, and as group zero the whole of
it, matched. -/
def apply (t : Template) (group : Nat → Text) : Text :=
  t.parts.flatMap fun
    | .literal text => text
    | .whole => group 0
    | .group n => group n

end Template

end StreamEditor
