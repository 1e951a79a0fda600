import StreamEditor.Failure
import StreamEditor.Output
import StreamEditor.Program
import StreamEditor.Text.ShellWord

/-!
Writers of the files that a program names.

* `Writer`: output to a file, or to a device that takes no or all bytes.
* `Writer.openAll`: empties all files of a program, in order.
* `Writer.writeRecord`, `Writer.flush`: what is delivered appears in the file at once.
-/

namespace StreamEditor

/-- Output to a file. -/
structure Writer where
  name : Text
  /-- The place of the first command that names the file. -/
  place : Location
  /-- The file, unless it is a device. -/
  path : Option Path
  /-- How many bytes of the file are written. -/
  offset : Nat
  /-- What is delivered here goes to the file at once. -/
  output : Output
  deriving DecidableEq, Repr, Inhabited

namespace Writer

/-- A failure of a writer. -/
def failed (place : Location) (name : Text) (doing : String) (fault : Fault) : Failure :=
  .command .running place 'w'
    (Text.ofString doing ++ Text.shellWord name ++ [':', ' '] ++ fault.message)

/-- A writer to what a name leads to. -/
def ofNode (f : OutputFile) (separator : UInt8) (node : Node) : Writer :=
  let output (sink : Sink) : Output := .toSink sink separator false
  match node with
  | .file path _ => ⟨f.name, f.place, some path, 0, output .unlimited⟩
  | .fullDevice => ⟨f.name, f.place, none, 0, output (.limited 0 .noSpace)⟩
  | _ => ⟨f.name, f.place, none, 0, output .unlimited⟩

/-- Empties the files of a program in order, and opens writers to them. -/
def openAll (separator : UInt8) (s : Storage) :
    List OutputFile → Except Failure (List Writer) × Storage
  | [] => (.ok [], s)
  | f :: rest =>
      match s.create? f.name with
      | (.error fault, s) => (.error (failed f.place f.name "couldn't open file " fault), s)
      | (.ok node, s) =>
          match openAll separator s rest with
          | (.ok writers, s) => (.ok (ofNode f separator node :: writers), s)
          | (.error failure, s) => (.error failure, s)

/-- Brings what was delivered to the file. -/
def store (w : Writer) (s : Storage) : Writer × Storage :=
  let (fresh, output) := w.output.collect
  let after := { w with output, offset := w.offset + fresh.length }
  (after, w.path.elim s fun path => s.overwrite path w.offset fresh)

/-- Does something with the output of a writer. -/
def act (w : Writer) (s : Storage) (doing : String) (f : Output → Output.Attempt) :
    Writer × Storage × Option Failure :=
  let (output, fault) := f w.output
  let (after, s) := store { w with output } s
  (after, s, fault.map (failed w.place w.name doing))

/-- Writes a record. -/
def writeRecord (w : Writer) (s : Storage) (text : Text) (terminated : Bool) :
    Writer × Storage × Option Failure :=
  w.act s "couldn't write to " (·.writeRecord text terminated)

/-- Delivers all that waits. -/
def flush (w : Writer) (s : Storage) : Writer × Storage × Option Failure :=
  w.act s "couldn't flush " Output.flush

/-- Delivers all that waits at the writers in order, up to the first that fails. -/
def flushAll (s : Storage) : List Writer → List Writer × Storage × Option Failure
  | [] => ([], s, none)
  | w :: rest =>
      match w.flush s with
      | (w, s, some failure) => (w :: rest, s, some failure)
      | (w, s, none) =>
          let (rest, s, failure) := flushAll s rest
          (w :: rest, s, failure)

/-- Closes all writers: what waits is delivered as far as possible. -/
def closeAll (s : Storage) : List Writer → Storage
  | [] => s
  | w :: rest => closeAll (w.flush s).2.1 rest

end Writer

end StreamEditor
