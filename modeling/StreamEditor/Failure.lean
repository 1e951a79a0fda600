import StreamEditor.Location

/-!
Failures and the words in which they are reported.

* `Phase`: what the editor was doing; it fixes the exit code.
* `Failure`: a failure at a place of the script, of a command, of the output, or of the
  surroundings; `Failure.message` is its report.
-/

namespace StreamEditor

/-- What the editor was doing when it failed. -/
inductive Phase where
  /-- Reading the arguments and the script. -/
  | compiling
  /-- Running the script on its input. -/
  | running
  /-- Writing the output. -/
  | writing
  deriving DecidableEq, Repr

namespace Phase

/-- The exit code that reports a failure in this phase. -/
def exitCode : Phase → Nat
  | compiling => 1
  | running => 2
  | writing => 4

end Phase

/-- A failure that ends the editor's work. -/
inductive Failure where
  /-- The script is wrong at a place. -/
  | script (place : Location) (reason : Text)
  /-- The command with this letter, defined at a place, is wrong or fails. -/
  | command (phase : Phase) (place : Location) (letter : Char) (reason : Text)
  /-- The output cannot be written. -/
  | output (reason : Text)
  /-- Branches lead to labels that are nowhere defined. -/
  | undefinedLabels (uses : List (Location × Text))
  /-- The surroundings do not provide what is needed. -/
  | environment (phase : Phase) (reason : Text)
  deriving DecidableEq, Repr

namespace Failure

/-- The report of something wrong at a place of the script. -/
def atPlace (place : Location) (reason : Text) : Text :=
  place.render ++ Text.ofString ": error: " ++ reason

/-- The phase in which a failure arises. -/
def phase : Failure → Phase
  | script _ _ => .compiling
  | command p _ _ _ => p
  | output _ => .writing
  | undefinedLabels _ => .compiling
  | environment p _ => p

/-- The exit code that reports a failure. -/
def exitCode (f : Failure) : Nat := f.phase.exitCode

/-- The report of a failure. -/
def message : Failure → Text
  | script place reason => atPlace place reason
  | command _ place letter reason =>
      place.render ++ Text.ofString ": command `" ++ letter :: Text.ofString "': error: "
        ++ reason
  | output reason => Text.ofString "couldn't write to output: " ++ reason
  | undefinedLabels uses =>
      Text.joinWith '\n' (uses.map fun (place, label) =>
        atPlace place (Text.ofString "can't find label for jump to `" ++ label ++ ['\'']))
  | environment _ reason => reason

end Failure

end StreamEditor
