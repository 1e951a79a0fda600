import StreamEditor.Arguments
import StreamEditor.Editor.Run
import StreamEditor.Program.Parser
import StreamEditor.Program.Printer
import StreamEditor.Regex.Builtin
import StreamEditor.Trace.Filter

/-!
The command line: from arguments to an exit code.

* `CommandLine.Outcome`: what the editor leaves behind when it ends.
* `CommandLine.prepare`: reads arguments and script, and gives the program and the editor ready
  to run it, or the outcome if it does not come to that.
* `CommandLine.finish`: the outcome after the run.
-/

namespace StreamEditor.CommandLine

/-- What the editor leaves behind when it ends. -/
structure Outcome where
  exitCode : Nat
  output : Bytes
  errors : Bytes
  storage : Storage
  deriving Inhabited

/-- A program, and the editor ready to run it. -/
structure Job where
  program : Program
  editor : Editor
  filter : Filter
  deriving Inhabited

/-- The variable that holds the filter of the trace. -/
def filterVariable : String := "RSED_LOG"

/-- The two ways to call the editor: with its name alone, or with its name as the first argument
as well. -/
def invocation (arguments : List Text) : Text × List Text :=
  match arguments with
  | first :: rest =>
      if first = programName then (programName ++ ' ' :: programName, rest)
      else (programName, arguments)
  | [] => (programName, [])

/-- The line that shows how the editor is called. -/
def usage : Text :=
  Text.ofString "Usage: " ++ programName ++ Text.ofString " [OPTION]... [script] [file]...\n"

/-- The line that explains a flag. -/
def explain (f : Flag) : Text :=
  let letter := f.letters.head?.elim (Text.ofString "    ") fun c => ['-', c, ',', ' ']
  ' ' :: ' ' :: letter ++ f.render ++ Text.ofString ": " ++ f.explanation ++ ['\n']

/-- The text that explains the editor. -/
def help : Text :=
  Text.ofString "Stream editor for filtering and transforming text\n\n" ++ usage
    ++ Text.ofString "\nOptions:\n" ++ Flag.all.flatMap explain

/-- What is wrong with the arguments. -/
def complaint : Refusal → Text
  | .unknown argument =>
      Text.ofString "unexpected argument '" ++ argument ++ Text.ofString "' found"
  | .missingValue what =>
      Text.ofString "a value is required for '" ++ what ++ Text.ofString "' but none was supplied"
  | .unexpectedValue f value =>
      Text.ofString "unexpected value '" ++ value ++ Text.ofString "' for '" ++ f.render
        ++ Text.ofString "' found; no more were expected"
  | .malformedValue f value =>
      Text.ofString "invalid value '" ++ value ++ Text.ofString "' for '" ++ f.render ++ ['\'']
  | .repeated f =>
      Text.ofString "the argument '" ++ f.render ++ Text.ofString "' cannot be used multiple times"
  | .missingScript => Text.ofString "missing script"
  | .help => []

/-- The outcome if the arguments are refused; `name` is how the editor was called. -/
def refuse (name : Text) (storage : Storage) : Refusal → Outcome
  | .help => ⟨0, Text.utf8 help, [], storage⟩
  | .missingScript =>
      let hint := Text.ofString "Try '" ++ name ++ Text.ofString " --help' for more information.\n"
      ⟨Phase.compiling.exitCode, [],
        Environment.line (complaint .missingScript) ++ Text.utf8 hint, storage⟩
  | refusal =>
      let report := Text.ofString "error: " ++ complaint refusal ++ Text.ofString "\n\n" ++ usage
        ++ Text.ofString "\nFor more information, try '--help'.\n"
      ⟨Phase.compiling.exitCode, [], Text.utf8 report, storage⟩

/-- The outcome after a failure, which is reported last. -/
def failed (filter : Filter) (env : Environment) (output : Bytes) (f : Failure) : Outcome :=
  ⟨f.exitCode, output, env.errors filter.shows ++ Environment.line f.message, env.storage⟩

/-- The filter that is asked for. Without a trace it does not matter. -/
def filterOf (o : Options) (log : Option Text) : Except Failure Filter :=
  if o.debug then
    match log.elim (some Filter.standard) Filter.parse? with
    | some filter => .ok filter
    | none =>
        .error (.environment .compiling
          (Text.ofString "invalid " ++ Text.ofString filterVariable ++ Text.ofString " value"))
  else .ok Filter.standard

/-- Writes the program to the output, if the run is to be traced. -/
def display (o : Options) (p : Program) (sink : Sink) : Sink × Option Failure :=
  if o.debug then
    let (sink, rest) := sink.take (Text.utf8 p.render)
    (sink, if rest.isEmpty then none else some (.output sink.fault.message))
  else (sink, none)

/-- Tells about the program that was read, if the run is to be traced. -/
def announceParsed (o : Options) (p : Program) (env : Environment) : Environment :=
  if o.debug then
    env.note (.event
      (.parsed p.commands.length p.labels.length p.rangeCount p.outputFiles.length))
  else env

/-- Makes everything ready to run a program. -/
def setUp (a : Arguments) (filter : Filter) (p : Program) (env : Environment) (sink : Sink) :
    Except Outcome Job :=
  let env := announceParsed a.options p env
  match display a.options p sink with
  | (sink, some f) => .error (failed filter env sink.delivered f)
  | (sink, none) =>
      let input := Input.ofFiles a.files a.options.separator a.options.separate
      match Editor.start? p a.options input sink env with
      | (.error f, env) => .error (failed filter env sink.delivered f)
      | (.ok editor, _) => .ok ⟨p, ((Editor.announce p).run editor).2, filter⟩

/-- Reads the script, and makes everything ready for the run. -/
def loadAndSetUp (a : Arguments) (log : Option Text) (storage : Storage) (sink : Sink) :
    Except Outcome Job := do
  let env := Environment.start storage
  let filter ← (filterOf a.options log).mapError (failed Filter.standard env [])
  let (script, storage) := Script.load storage a.sources
  let env := { env with storage }
  let script ← script.mapError (failed filter env [])
  let program ← (Program.parse script a.options).mapError (failed filter env [])
  setUp a filter program env sink

/-- Reads arguments and script, and makes everything ready for the run. -/
def prepare (arguments : List Text) (log : Option Text) (storage : Storage) (sink : Sink) :
    Except Outcome Job :=
  let (name, arguments) := invocation arguments
  match Arguments.parse arguments with
  | .error refusal => .error (refuse name storage refusal)
  | .ok a => loadAndSetUp a log storage sink

/-- The exit codes that there are. -/
def exitCodes : Nat := 256

/-- The outcome of a run with this result: all output is delivered as far as possible. The exit
code that the program asks for counts before the one that problems with the input ask for. -/
def finish (filter : Filter) (result : Except Failure Nat) (e : Editor) : Outcome :=
  let (result, e) := e.conclude result
  let env := e.close
  let output := e.output.flush.1.sink.delivered
  match result with
  | .error f => failed filter env output f
  | .ok 0 => ⟨env.status, output, env.errors filter.shows, env.storage⟩
  | .ok code => ⟨code % exitCodes, output, env.errors filter.shows, env.storage⟩

/-- The outcome, if the run ends within a number of steps. -/
def run? (steps : Nat) (arguments : List Text) (log : Option Text) (storage : Storage)
    (sink : Sink) : Option Outcome :=
  match prepare arguments log storage sink with
  | .error outcome => some outcome
  | .ok job =>
      match job.editor.advance job.program steps .reading with
      | (.finished result, e) => some (finish job.filter result e)
      | _ => none

end StreamEditor.CommandLine
