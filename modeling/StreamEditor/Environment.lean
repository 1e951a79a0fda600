import StreamEditor.Storage
import StreamEditor.Trace

/-!
What a run leaves behind besides its output.

* `Environment`: the files, the exit status that problems with the input ask for, and what was
  sent to the standard error stream.
* `Environment.report`: tells about a problem that does not end the run.
-/

namespace StreamEditor

/-- The name under which the editor reports. -/
def programName : Text := Text.ofString "rsed"

/-- An entry of the standard error stream. -/
inductive Note where
  | bytes (b : Bytes)
  | event (e : Event)
  deriving DecidableEq, Repr, Inhabited

/-- What a run leaves behind besides its output. -/
structure Environment where
  storage : Storage
  /-- The exit status that problems with the input ask for; zero if there were none. -/
  status : Nat
  /-- The standard error stream, the last entry first. -/
  notes : List Note
  deriving Repr, Inhabited

namespace Environment

/-- Nothing has happened yet. -/
def start (storage : Storage) : Environment := ⟨storage, 0, []⟩

/-- Adds an entry to the standard error stream. -/
def note (env : Environment) (n : Note) : Environment := { env with notes := n :: env.notes }

/-- A message under the editor's name. -/
def line (message : Text) : Bytes := Text.utf8 (programName ++ [':', ' '] ++ message ++ ['\n'])

/-- The exit status of a problem with the input. -/
def problemStatus : Nat := 2

/-- Tells about a problem with the input. -/
def report (env : Environment) (message : Text) : Environment :=
  { env.note (.bytes (line message)) with status := problemStatus }

/-- The standard error stream, of whose events only those let through appear. -/
def errors (env : Environment) (shows : Severity → Bool) : Bytes :=
  env.notes.reverse.flatMap fun
    | .bytes b => b
    | .event e => if shows e.severity then Text.utf8 e.render else []

end Environment

end StreamEditor
