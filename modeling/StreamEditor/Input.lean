import StreamEditor.Environment
import StreamEditor.Record
import StreamEditor.Text.ShellWord

/-!
The records of all input files, one after the other.

* `Input`: the files not yet opened, the one that is being read, and where the last record came
  from.
* `Input.read`: the next record.
* `Input.hasNext`: whether another record follows in the same stream; with `separate`, each file
  is a stream of its own.

Files that cannot be read are reported and passed over.
-/

namespace StreamEditor

/-- The records of all input files. -/
structure Input where
  /-- The files not yet opened. -/
  pending : List Text
  /-- What is being read. -/
  reader : Option Reader
  /-- The name of what is being read. -/
  readerName : Text
  /-- How many files have been opened. -/
  readerIndex : Nat
  /-- The name of the file that the last record came from. -/
  recordName : Text
  /-- The number of that file. -/
  recordIndex : Nat
  separator : UInt8
  /-- Each file is a stream of its own. -/
  separate : Bool
  deriving Repr, Inhabited

namespace Input

/-- The records of files; without any, those of the standard input. -/
def ofFiles (files : List Text) (separator : UInt8) (separate : Bool) : Input :=
  { pending := if files.isEmpty then [['-']] else files
    reader := none
    readerName := []
    readerIndex := 0
    recordName := []
    recordIndex := 0
    separator
    separate }

/-- Gives up what is being read because of a fault. -/
def abandon (i : Input) (env : Environment) (fault : Fault) : Input × Environment :=
  ({ i with reader := none },
    env.report (Text.ofString "read error on " ++ i.readerName ++ [':', ' '] ++ fault.reason))

/-- Opens a file, or reports that it cannot be read. -/
def enter (i : Input) (env : Environment) (name : Text) : Input × Environment :=
  match Reader.open? env.storage name with
  | .ok reader =>
      ({ i with reader := some reader, readerName := name, readerIndex := i.readerIndex + 1 },
        env)
  | .error fault =>
      (i, env.report
        (Text.ofString "can't read " ++ Text.shellWordIfNeeded name ++ [':', ' ']
          ++ fault.reason))

/-- The next record of what is being read; at its end nothing is being read any more. -/
def readCurrent (i : Input) (env : Environment) : Option Record × Input × Environment :=
  match i.reader with
  | none => (none, i, env)
  | some reader =>
      match reader.read i.separator env.storage with
      | (.ok (some record), reader, storage) =>
          (some record,
            { i with
              reader := some reader
              recordName := i.readerName
              recordIndex := i.readerIndex },
            { env with storage })
      | (.ok none, _, storage) => (none, { i with reader := none }, { env with storage })
      | (.error fault, _, storage) => (none, i.abandon { env with storage } fault)

/-- The next record of what is being read or of the files `pending`. -/
def readFrom (i : Input) (env : Environment) : List Text → Option Record × Input × Environment
  | [] =>
      let (record, i, env) := i.readCurrent env
      (record, { i with pending := [] }, env)
  | name :: rest =>
      match i.readCurrent env with
      | (some record, i, env) => (some record, { i with pending := name :: rest }, env)
      | (none, i, env) =>
          let (i, env) := i.enter env name
          readFrom i env rest

/-- The next record. -/
def read (i : Input) (env : Environment) : Option Record × Input × Environment :=
  i.readFrom env i.pending

/-- Whether another record follows in what is being read; at its end nothing is being read any
more. -/
def hasNextCurrent (i : Input) (env : Environment) : Bool × Input × Environment :=
  match i.reader with
  | none => (false, i, env)
  | some reader =>
      match reader.hasNext env.storage with
      | (.ok true, reader, storage) =>
          (true, { i with reader := some reader }, { env with storage })
      | (.ok false, _, storage) => (false, { i with reader := none }, { env with storage })
      | (.error fault, _, storage) => (false, i.abandon { env with storage } fault)

/-- Whether another record follows in what is being read or in the files `pending`. -/
def hasNextFrom (i : Input) (env : Environment) : List Text → Bool × Input × Environment
  | [] =>
      let (found, i, env) := i.hasNextCurrent env
      (found, { i with pending := [] }, env)
  | name :: rest =>
      match i.hasNextCurrent env with
      | (true, i, env) => (true, { i with pending := name :: rest }, env)
      | (false, i, env) =>
          if i.separate then (false, { i with pending := name :: rest }, env)
          else
            let (i, env) := i.enter env name
            hasNextFrom i env rest

/-- Whether another record follows in the same stream. -/
def hasNext (i : Input) (env : Environment) : Bool × Input × Environment :=
  i.hasNextFrom env i.pending

end Input

end StreamEditor
