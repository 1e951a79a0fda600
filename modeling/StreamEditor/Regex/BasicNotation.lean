import StreamEditor.Text

/-!
The basic notation of regular expressions, in which parentheses, braces and most other operators
are written with a backslash, and its passage to the extended notation.

* `BasicNotation.bracket`: brackets, in which every character but a few stands for itself.
* `BasicNotation.toExtended`: the same expression in the extended notation.
-/

namespace StreamEditor.Regex.BasicNotation

/-- What precedes a place in an expression. -/
inductive Spot where
  /-- Nothing: an asterisk stands for itself here, and a circumflex is an anchor. -/
  | start
  /-- An anchor that begins the expression: an asterisk or a circumflex stands for itself. -/
  | afterAnchor
  /-- Anything else. -/
  | inside
  deriving DecidableEq, Repr

/-- The body of brackets: its extended form, and how many characters it takes. The flag tells
whether the text is inside the name of a class. -/
def bracketBody : Bool → Text → Text × Nat
  | _, [] => ([], 0)
  | inName, c :: rest =>
      let continueWith (inName : Bool) (written : Text) : Text × Nat :=
        let (text, used) := bracketBody inName rest
        (written ++ text, used + 1)
      if inName then continueWith (c ≠ ']') [c]
      else if c = ']' then ([']'], 1)
      else if c = '[' && [some ':', some '.', some '='].contains rest.head? then
        continueWith true [c]
      else if ['\\', '[', '&', '~'].contains c then continueWith false ['\\', c]
      else continueWith false [c]

/-- Brackets after the one that opens them. A bracket that closes stands for itself at the
front. -/
def bracket (rest : Text) : Text × Nat :=
  let negated := rest.head? = some '^'
  let (sign, rest, used) := if negated then (['^'], rest.drop 1, 1) else ([], rest, 0)
  let (first, rest, used) :=
    if rest.head? = some ']' then (['\\', ']'], rest.drop 1, used + 1) else ([], rest, used)
  let (body, used') := bracketBody false rest
  ('[' :: sign ++ first ++ body, used + used')

/-- True at the end of an expression, or of a part of it. -/
def atEnd : Text → Bool
  | [] => true
  | '\\' :: c :: _ => c = ')' || c = '|'
  | _ => false

/-- The extended form of a backslash and the text after it, how many characters of that text
belong to it, and what it makes of the place that follows. -/
def escaped : Text → Text × Nat × Spot
  | [] => (['\\', '\\'], 0, .inside)
  | '(' :: _ => (['('], 1, .start)
  | '|' :: _ => (['|'], 1, .start)
  | '`' :: _ => (['\\', 'A'], 1, .inside)
  | '\'' :: _ => (['\\', 'z'], 1, .inside)
  | c :: _ =>
      if [')', '{', '}', '+', '?'].contains c then ([c], 1, .inside)
      else if c.isDigit && c ≠ '0' then (['(', '?', ':', '\\', c, ')'], 1, .inside)
      else (['\\', c], 1, .inside)

/-- The extended form of `c`, how many characters of `rest` belong to it, and what it makes of
the place that follows. -/
def convert (spot : Spot) (c : Char) (rest : Text) : Text × Nat × Spot :=
  if c = '\\' then escaped rest
  else if c = '[' then
    let (text, used) := bracket rest
    (text, used, .inside)
  else if ['+', '?', '{', '}', '|', '(', ')'].contains c then (['\\', c], 0, .inside)
  else if c = '*' && spot ≠ .inside then (['\\', '*'], 0, .inside)
  else if c = '^' then
    if spot = .start then (['^'], 0, .afterAnchor) else (['\\', '^'], 0, .inside)
  else if c = '$' && !atEnd rest then (['\\', '$'], 0, .inside)
  else ([c], 0, .inside)

/-- The extended form of what follows a place. The first argument counts characters already
taken. -/
def convertAll : Nat → Spot → Text → Text
  | _, _, [] => []
  | n + 1, spot, _ :: rest => convertAll n spot rest
  | 0, spot, c :: rest =>
      let (text, used, spot) := convert spot c rest
      text ++ convertAll used spot rest

/-- The extended form of an expression in the basic notation. -/
def toExtended (pattern : Text) : Text := convertAll 0 .start pattern

end StreamEditor.Regex.BasicNotation
