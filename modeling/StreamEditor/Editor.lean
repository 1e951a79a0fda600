import StreamEditor.Input
import StreamEditor.Listing
import StreamEditor.Options
import StreamEditor.Output
import StreamEditor.Program
import StreamEditor.Writer

/-!
The editor: everything that a running program reads and changes.

* `Editor`: the pattern space, the hold space, the input, the outputs, and what is remembered
  between commands.
* `Edit`: a change of the editor that may fail; what it changed before the failure stays changed.
* `Editor.emit`, `Editor.writeTo`: everything that is output passes through one of them.
* `Editor.load`: makes a record the pattern space.
* `Editor.endCycle`: prints the pattern space and what waits for the end of the cycle.
-/

namespace StreamEditor

/-- What waits for the end of the cycle. -/
inductive Queued where
  | text (t : Text)
  /-- The contents of the file with this name, if it can be read then. -/
  | file (name : Text)
  deriving DecidableEq, Repr, Inhabited

/-- Where a range stands. -/
structure RangeState where
  /-- The range has begun and not yet ended. -/
  active : Bool
  /-- The line that ends it, if that is known. -/
  lastLine : Option Nat
  /-- The record for which the range was asked last, and the answer. -/
  answered : Option (Nat × Bool)
  deriving DecidableEq, Repr, Inhabited

namespace RangeState

/-- A range at the beginning; one that starts before the first record is already active. -/
def initial (active : Bool) : RangeState := ⟨active, none, none⟩

end RangeState

/-- Everything that a running program reads and changes. -/
structure Editor where
  options : Options
  environment : Environment
  input : Input
  output : Output
  writers : List Writer
  /-- The files that are read line by line. Those that cannot be opened have no reader. -/
  lineReaders : List (Path × Option Reader)
  /-- The number of the current record within its stream. -/
  lineNumber : Nat
  /-- How many records have been read in all. -/
  recordsRead : Nat
  /-- The number of the file that the current record came from. -/
  fileIndex : Nat
  pattern : Text
  /-- A separator ended the current record. -/
  terminated : Bool
  hold : Text
  ranges : List RangeState
  /-- A substitution succeeded since the last record was read or the last test. -/
  substituted : Bool
  queue : List Queued
  /-- The regular expression that was used last. -/
  lastRegex : Option Regex
  deriving Inhabited

/-- A change of the editor that may fail. -/
abbrev Edit (α : Type) := ExceptT Failure (StateM Editor) α

namespace Editor

/-! ### Beginning -/

/-- The slots of the ranges that start before the first record. -/
def openSlots (p : Program) : List Nat :=
  p.commands.filterMap fun c =>
    match c.selection with
    | .range .zero _ slot => some slot
    | _ => none

/-- The editor before the first record, its output files emptied. The script can ask for quiet
operation as well as the options. -/
def start? (p : Program) (o : Options) (input : Input) (sink : Sink) (env : Environment) :
    Except Failure Editor × Environment :=
  match Writer.openAll o.separator env.storage p.outputFiles with
  | (.error failure, storage) => (.error failure, { env with storage })
  | (.ok writers, storage) =>
      let environment := { env with storage }
      (.ok
        { options := { o with quiet := o.quiet || p.quiet }
          environment
          input
          output := .toSink sink o.separator o.unbuffered
          writers
          lineReaders := []
          lineNumber := 0
          recordsRead := 0
          fileIndex := 0
          pattern := []
          terminated := true
          hold := []
          ranges := (List.range p.rangeCount).map fun slot => .initial ((openSlots p).contains slot)
          substituted := false
          queue := []
          lastRegex := none },
        environment)

/-! ### Output -/

/-- Tells what happens, if the run is to be traced. -/
def tell (event : Event) : Edit Unit :=
  modify fun e =>
    if e.options.debug then { e with environment := e.environment.note (.event event) } else e

/-- Writes to the output. -/
def emit (f : Output → Output.Attempt) : Edit Unit := do
  let e ← get
  let (output, fault) := f e.output
  set { e with output }
  match fault with
  | none => return ()
  | some fault => throw (.output fault.message)

/-- Prints a record to the output. -/
def printRecord (text : Text) (terminated : Bool) : Edit Unit :=
  emit (·.writeRecord text terminated)

/-- Prints a text and a newline to the output. -/
def printText (text : Text) : Edit Unit := emit (·.writeText text)

/-- Prints the pattern space. -/
def printPattern : Edit Unit := do
  let e ← get
  printRecord e.pattern e.terminated

/-- Writes a record to the file with a number. -/
def writeToFile (index : Nat) (text : Text) (terminated : Bool) : Edit Unit := do
  let e ← get
  match e.writers[index]? with
  | none => return ()
  | some writer =>
      let (writer, storage, failure) :=
        writer.writeRecord e.environment.storage text terminated
      set { e with
        writers := e.writers.set index writer
        environment := { e.environment with storage } }
      match failure with
      | none => return ()
      | some failure => throw failure

/-- Writes a record to a target. -/
def writeTo (target : Target) (text : Text) (terminated : Bool) : Edit Unit :=
  match target with
  | .output => printRecord text terminated
  | .errors =>
      modify fun e =>
        let ending := if terminated then [e.options.separator] else []
        { e with environment := e.environment.note (.bytes (Text.utf8 text ++ ending)) }
  | .file index => writeToFile index text terminated

/-- Adds something that waits for the end of the cycle. -/
def enqueue (q : Queued) : Edit Unit := modify fun e => { e with queue := e.queue ++ [q] }

/-- Writes something that waited. A file that cannot be read counts as empty. -/
def deliver : Queued → Edit Unit
  | .text t => printText t
  | .file name => do
      let e ← get
      let (contents, storage) := e.environment.storage.read? name
      set { e with environment := { e.environment with storage } }
      match contents with
      | .ok contents => emit (·.writeRaw contents)
      | .error _ => return ()

/-- Writes all that waited. -/
def release : Edit Unit := do
  let e ← get
  set { e with queue := [] }
  e.queue.forM deliver

/-- Ends a cycle. -/
def endCycle (autoprint : Bool) : Edit Unit := do
  let e ← get
  if autoprint && !e.options.quiet then printPattern
  release

/-! ### Input -/

/-- The next record of the input. -/
def readRecord : Edit (Option Record) :=
  modifyGet fun e =>
    let (record, input, environment) := e.input.read e.environment
    (record, { e with input, environment })

/-- Whether another record follows in the same stream. -/
def hasNext : Edit Bool :=
  modifyGet fun e =>
    let (found, input, environment) := e.input.hasNext e.environment
    (found, { e with input, environment })

/-- Makes a record, or a text that ends in it, the pattern space. -/
def load (record : Record) (pattern : Text) : Edit Unit :=
  modify fun e =>
    let file := e.input.recordIndex
    let before := if e.options.separate && file ≠ e.fileIndex then 0 else e.lineNumber
    { e with
      fileIndex := file
      lineNumber := before + 1
      recordsRead := e.recordsRead + 1
      pattern
      terminated := record.terminated
      substituted := false }

/-- The next line of a file that is read line by line; none if there are no more. -/
def readLineOf (name : Text) : Edit (Option Text) :=
  modifyGet fun e =>
    let key := Path.key name
    let storage := e.environment.storage
    let others := e.lineReaders.filter (·.1 ≠ key)
    match (e.lineReaders.lookup key).getD (Reader.open? storage name).toOption with
    | none => (none, { e with lineReaders := (key, none) :: others })
    | some reader =>
        let (found, reader, storage) := reader.read e.options.separator storage
        let line :=
          match found with
          | .ok record => record.map (·.content)
          | .error _ => none
        (line,
          { e with
            lineReaders := (key, some reader) :: others
            environment := { e.environment with storage } })

/-! ### Ending -/

/-- Delivers all that waits at the output files, in order, and then at the output, up to the
first failure. -/
def flush : Edit Unit := do
  let e ← get
  let (writers, storage, failure) := Writer.flushAll e.environment.storage e.writers
  set { e with writers, environment := { e.environment with storage } }
  match failure with
  | some failure => throw failure
  | none => emit Output.flush

/-- The environment after all output files are closed. -/
def close (e : Editor) : Environment :=
  { e.environment with storage := Writer.closeAll e.environment.storage e.writers }

end Editor

end StreamEditor
