import StreamEditor.CommandLine

/-!
The program. It brings what the arguments and the script name into a `Storage`, runs the editor
on it, and brings what the run has changed back.
-/

namespace StreamEditor.Main

/-- Adds the file or the folder at a way, and says whether the way leads further. -/
def fetchWay (s : Storage) (way : Path) : IO (Storage × Bool) := do
  try
    let contents ← IO.FS.readBinFile (String.ofList (Path.render way))
    return (s.addFile way contents.toList, false)
  catch
    | .inappropriateType .. => return (s.addFolder way, true)
    | _ => return (s, false)

/-- Adds what a name leads to, and the folders on the way. -/
def fetch (s : Storage) (name : Text) : IO Storage := do
  let path := Path.ofText name
  if (Storage.device? path).isSome then return s
  let mut s := s
  for n in List.range path.length do
    let (found, leadsOn) ← fetchWay s (path.take (n + 1))
    s := found
    if !leadsOn then break
  return s

/-- Reads a stream to its end. -/
partial def readToEnd (input : IO.FS.Stream) (before : List UInt8) : IO Bytes := do
  let piece ← input.read 65536
  if piece.isEmpty then return before.reverse
  readToEnd input (piece.toList.reverse ++ before)

/-- True for the names of the standard input. -/
def isStandardInput (name : Text) : Bool :=
  name = ['-'] || (Storage.device? (Path.ofText name)).any fun
    | .standardInput => true
    | _ => false

/-- The files that the sources of a script name. -/
def sourceNames (sources : List Source) : List Text :=
  sources.filterMap fun
    | .file name => some name
    | .text _ => none

/-- The files that a program names. -/
def programNames (p : Program) : List Text :=
  p.outputFiles.map (·.name) ++ p.commands.filterMap fun c =>
    match c.action with
    | .appendFile name | .appendFileLine name => some name
    | _ => none

/-- Everything that the arguments name, directly or through the script. -/
def gather (arguments : List Text) : IO Storage := do
  match Arguments.parse (CommandLine.invocation arguments).2 with
  | .error _ => return .empty
  | .ok a =>
      let given := sourceNames a.sources ++ a.files
      let mut s := Storage.empty
      for name in given do s ← fetch s name
      let early := a.files.isEmpty || given.any isStandardInput
      if early then s := { s with standardInput := ← readToEnd (← IO.getStdin) [] }
      let named :=
        match (Script.load s a.sources).1 with
        | .ok script => (Program.parse script a.options).toOption.elim [] programNames
        | .error _ => []
      for name in named do s ← fetch s name
      if !early && named.any isStandardInput then
        s := { s with standardInput := ← readToEnd (← IO.getStdin) [] }
      return s

/-- Runs until the run ends. -/
partial def runToEnd (job : CommandLine.Job) (stage : Stage) (e : Editor) :
    IO CommandLine.Outcome := do
  match e.advance job.program 1000000 stage with
  | (.finished result, e) => return CommandLine.finish job.filter result e
  | (stage, e) => runToEnd job stage e

/-- Writes the files that differ from those before. -/
def putBack (before after : Storage) : IO Unit := do
  for (way, contents) in after.files do
    if before.get? way ≠ some contents then
      IO.FS.writeBinFile (String.ofList (Path.render way)) (ByteArray.mk contents.toArray)

end StreamEditor.Main

open StreamEditor in
/-- Runs the editor on the arguments. -/
def main (arguments : List String) : IO UInt32 := do
  let arguments := arguments.map Text.ofString
  let log := (← IO.getEnv CommandLine.filterVariable).map Text.ofString
  let storage ← Main.gather arguments
  let outcome ←
    match CommandLine.prepare arguments log storage .unlimited with
    | .error outcome => pure outcome
    | .ok job => Main.runToEnd job .reading job.editor
  Main.putBack storage outcome.storage
  (← IO.getStdout).write (ByteArray.mk outcome.output.toArray)
  (← IO.getStderr).write (ByteArray.mk outcome.errors.toArray)
  return UInt32.ofNat outcome.exitCode
