import StreamEditor.Text

/-!
A cursor in a text.

* `Cursor`: the characters passed, the nearest first, and those ahead.
* `Cursor.text`: the whole text, which no movement changes (`text_advance`, `text_retreat`,
  `text_advanceBy`, `text_skipBlanks`).
* `Cursor.lineColumn`: the line and the column of a position.
-/

namespace StreamEditor

/-- A place between two characters of a text. -/
structure Cursor where
  /-- The characters passed, in reverse order. -/
  passed : Text
  /-- The characters not yet passed. -/
  ahead : Text
  deriving DecidableEq, Repr, Inhabited

/-- True for the blanks that may separate the parts of a command. -/
def isBlank (c : Char) : Bool := c = ' ' || c = '\t'

namespace Cursor

/-- The cursor before the first character. -/
def start (t : Text) : Cursor := ⟨[], t⟩

/-- The text in which the cursor stands. -/
def text (c : Cursor) : Text := c.passed.reverse ++ c.ahead

/-- The number of characters passed. -/
def position (c : Cursor) : Nat := c.passed.length

/-- The character ahead. -/
def peek (c : Cursor) : Option Char := c.ahead.head?

/-- The character after the one ahead. -/
def peekNext (c : Cursor) : Option Char := c.ahead.tail.head?

/-- The character last passed. -/
def previous (c : Cursor) : Option Char := c.passed.head?

/-- Passes one character, if one is ahead. -/
def advance : Cursor → Cursor
  | ⟨passed, []⟩ => ⟨passed, []⟩
  | ⟨passed, c :: ahead⟩ => ⟨c :: passed, ahead⟩

/-- Passes up to `n` characters. -/
def advanceBy : Nat → Cursor → Cursor
  | 0, c => c
  | n + 1, c => advanceBy n c.advance

/-- Goes back over one character, if one is passed. -/
def stepBack : Cursor → Cursor
  | ⟨[], ahead⟩ => ⟨[], ahead⟩
  | ⟨c :: passed, ahead⟩ => ⟨passed, c :: ahead⟩

/-- Goes back over up to `n` characters. -/
def retreat : Nat → Cursor → Cursor
  | 0, c => c
  | n + 1, c => retreat n c.stepBack

/-- Passes the characters at the front that satisfy `p`, and returns them too. -/
def takeWhile (p : Char → Bool) (c : Cursor) : Text × Cursor :=
  let taken := c.ahead.takeWhile p
  (taken, ⟨taken.reverse ++ c.passed, c.ahead.dropWhile p⟩)

/-- Passes blanks; a newline is none. -/
def skipBlanks (c : Cursor) : Cursor := (c.takeWhile isBlank).2

/-- The line, counted from zero, and the column, counted from one, that follow a text. -/
def lineColumnAfter (before : Text) : Nat × Nat :=
  before.foldl (fun (line, column) c =>
    if c = '\n' then (line + 1, 1) else (line, column + 1)) (0, 1)

/-- The line, counted from zero, and the column, counted from one, of a position; positions
beyond the text are taken as its end. -/
def lineColumn (c : Cursor) (position : Nat) : Nat × Nat :=
  lineColumnAfter (c.text.take position)

@[simp] theorem text_start (t : Text) : (start t).text = t := rfl

@[simp] theorem text_advance (c : Cursor) : c.advance.text = c.text := by
  obtain ⟨passed, ahead⟩ := c
  cases ahead <;> simp [advance, text]

@[simp] theorem text_advanceBy (n : Nat) (c : Cursor) : (advanceBy n c).text = c.text := by
  induction n generalizing c with
  | zero => rfl
  | succ n ih => simp [advanceBy, ih]

@[simp] theorem text_stepBack (c : Cursor) : c.stepBack.text = c.text := by
  obtain ⟨passed, ahead⟩ := c
  cases passed <;> simp [stepBack, text]

@[simp] theorem text_retreat (n : Nat) (c : Cursor) : (retreat n c).text = c.text := by
  induction n generalizing c with
  | zero => rfl
  | succ n ih => simp [retreat, ih]

@[simp] theorem text_takeWhile (p : Char → Bool) (c : Cursor) :
    (c.takeWhile p).2.text = c.text := by
  simp [takeWhile, text, List.takeWhile_append_dropWhile]

@[simp] theorem text_skipBlanks (c : Cursor) : c.skipBlanks.text = c.text :=
  text_takeWhile isBlank c

end Cursor

end StreamEditor
