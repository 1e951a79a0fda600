import StreamEditor.Location
import StreamEditor.Regex
import StreamEditor.Transliteration

/-!
Programs: what a script says, ready to be run.

* `Address`, `Selection`: the records to which a command applies.
* `Action`: what a command does.
* `Program`: commands in a flat sequence, in which blocks and branches are jumps.
-/

namespace StreamEditor

/-- A condition on the current record. -/
inductive Address where
  /-- The record with this number. -/
  | line (number : Nat)
  /-- The last record. -/
  | last
  /-- Records that match; without an expression, the one used last. -/
  | pattern (regex : Option Regex)
  /-- The record `first` and every one that is a multiple of `step` after it. -/
  | step (first step : Nat)
  /-- Before the first record; only as the start of a range that a pattern ends. -/
  | zero
  deriving Inhabited

/-- The end of a range. -/
inductive RangeEnd where
  | address (a : Address)
  /-- So many records after the start. -/
  | following (count : Nat)
  /-- The next record whose number is a multiple. -/
  | multiple (factor : Nat)
  deriving Inhabited

/-- The records to which a command applies. -/
inductive Selection where
  | all
  | single (a : Address)
  /-- From `start` to `stop`; `slot` is the number of the range within the program. -/
  | range (start : Address) (stop : RangeEnd) (slot : Nat)
  deriving Inhabited

namespace Selection

/-- The number of addresses that write a selection. -/
def addressCount : Selection → Nat
  | all => 0
  | single _ => 1
  | range _ _ _ => 2

end Selection

/-- Where records are written. -/
inductive Target where
  | output
  | errors
  /-- The output file with this number within the program. -/
  | file (index : Nat)
  deriving DecidableEq, Repr, Inhabited

/-- A substitution. -/
structure Substitution where
  /-- What to replace; if none, the expression used last. -/
  regex : Option Regex
  template : Template
  /-- The number of the first match to replace, counted from one. -/
  occurrence : Nat
  /-- All following matches are replaced too. -/
  everywhere : Bool
  /-- The result is printed if there was a replacement. -/
  print : Bool
  /-- The result is written there if there was a replacement. -/
  write : Option Target
  deriving Inhabited

/-- When a branch is taken. -/
inductive Condition where
  | always
  /-- A substitution succeeded since the last record was read or the last test. -/
  | ifSubstituted
  | ifNotSubstituted
  deriving DecidableEq, Repr, Inhabited

/-- What a command does. -/
inductive Action where
  /-- Skips to the command `stop` if not selected. -/
  | block (stop : Nat)
  | blockEnd
  | label (name : Text)
  /-- Goes on at `target`, or at the end of the program. -/
  | branch (condition : Condition) (label : Option Text) (target : Option Nat)
  | substitute (s : Substitution)
  | transliterate (y : Transliteration)
  | insert (text : Text)
  | append (text : Text)
  | change (text : Text)
  | delete
  | deleteFirstLine
  | print
  | printFirstLine
  | next
  | appendNext
  | hold
  | holdAppend
  | get
  | getAppend
  | exchange
  | quit (exitCode : Nat) (autoprint : Bool)
  | appendFile (name : Text)
  | appendFileLine (name : Text)
  | write (target : Target)
  | writeFirstLine (target : Target)
  | lineNumber
  | list (width : Option Nat)
  | zap
  | fileName
  deriving Inhabited

/-- A command. -/
structure Command where
  letter : Char
  selection : Selection
  /-- The command applies to the records that are not selected. -/
  negated : Bool
  action : Action
  place : Location
  deriving Inhabited

/-- A file that commands write. -/
structure OutputFile where
  name : Text
  /-- The place of the first command that names it. -/
  place : Location
  deriving DecidableEq, Repr

/-- What a script says. -/
structure Program where
  commands : List Command
  /-- The labels and the numbers of the commands that define them. -/
  labels : List (Text × Nat)
  outputFiles : List OutputFile
  /-- The number of ranges. -/
  rangeCount : Nat
  /-- The script asks for quiet operation. -/
  quiet : Bool
  deriving Inhabited

namespace Program

/-- The program without commands. -/
def empty : Program := ⟨[], [], [], 0, false⟩

end Program

end StreamEditor
