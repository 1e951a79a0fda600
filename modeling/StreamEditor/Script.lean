import StreamEditor.Failure
import StreamEditor.Storage
import StreamEditor.Text.ShellWord

/-!
Scripts: the text to run, joined from its sources, and where each of its lines came from.

* `Source`: a script written out, or the name of a file that holds it.
* `Script.append`: adds the contents of a source, ending its last line.
* `Script.location`: the source, line and column of a line and column of the joined text.
* `Script.load`: reads all sources in order.
-/

namespace StreamEditor

/-- Where a part of the script is found. -/
inductive Source where
  /-- The script itself. -/
  | text (script : Text)
  /-- The file with this name; `-` is the standard input. -/
  | file (name : Text)
  deriving DecidableEq, Repr

/-- The lines of the joined text from `firstLine` on, up to the next segment, came from the
source called `name`. Lines are counted from zero. -/
structure Segment where
  name : Text
  firstLine : Nat
  deriving DecidableEq, Repr

/-- The text of all sources, each ending in a newline, and where they begin. -/
structure Script where
  text : Text
  segments : List Segment
  deriving DecidableEq, Repr

namespace Script

/-- The number of characters of a script that name it. -/
def nameLength : Nat := 20

/-- The name of a script that is given as a text: the beginning of its first line, with dots if
that is not all of it. -/
def nameOf (script : Text) : Text :=
  let name := (script.takeWhile (· ≠ '\n')).take nameLength
  let all := (script.reverse.dropWhile (· = '\n')).reverse
  if Text.utf8Size name < Text.utf8Size all then name ++ ['.', '.', '.'] else name

/-- The script without sources. -/
def empty : Script := ⟨[], []⟩

/-- The contents of a source with its last line ended. -/
def terminated (contents : Text) : Text :=
  if contents.getLast? = some '\n' then contents else contents ++ ['\n']

/-- Adds the contents of a source. -/
def append (s : Script) (name contents : Text) : Script :=
  ⟨s.text ++ terminated contents, s.segments ++ [⟨name, s.text.count '\n'⟩]⟩

/-- The script given as a single text. -/
def ofText (script : Text) : Script := empty.append (nameOf script) script

/-- True if the script begins with the line `#n`, which asks for quiet operation. -/
def asksForQuiet (s : Script) : Bool :=
  match s.text with
  | '#' :: 'n' :: rest => rest.isEmpty || rest.head? = some '\n' || rest.take 2 = ['\r', '\n']
  | _ => false

/-- The place of a line, counted from zero, and a column of the joined text. -/
def location (s : Script) (line column : Nat) : Location :=
  match s.segments.reverse.find? (·.firstLine ≤ line) with
  | some segment => ⟨segment.name, line - segment.firstLine + 1, column⟩
  | none => ⟨[], line + 1, column⟩

/-- Reads one more source. -/
def appendSource (s : Script) (storage : Storage) : Source → Except Failure Script × Storage
  | .text script => (.ok (s.append (nameOf script) script), storage)
  | .file name =>
      if name = ['-'] then
        let rest := { storage with standardInput := [] }
        match Text.decode? storage.standardInput with
        | some contents => (.ok (s.append (Text.ofString "<stdin>") contents), rest)
        | none =>
            let reason := Text.ofString "couldn't read script from stdin: "
              ++ Fault.malformed.message
            (.error (.environment .compiling reason), rest)
      else
        let failed (fault : Fault) : Failure :=
          .environment .compiling <|
            Text.ofString "couldn't open file " ++ Text.shellWord name ++ [':', ' ']
              ++ fault.message
        match storage.read? name with
        | (.error fault, rest) => (.error (failed fault), rest)
        | (.ok bytes, rest) =>
            match Text.decode? bytes with
            | some contents => (.ok (s.append name contents), rest)
            | none => (.error (failed .malformed), rest)

/-- Reads sources in order, after those already read. -/
def appendSources (s : Script) (storage : Storage) :
    List Source → Except Failure Script × Storage
  | [] => (.ok s, storage)
  | source :: sources =>
      match s.appendSource storage source with
      | (.ok s', storage') => appendSources s' storage' sources
      | (.error failure, storage') => (.error failure, storage')

/-- Reads all sources in order. -/
def load (storage : Storage) (sources : List Source) : Except Failure Script × Storage :=
  empty.appendSources storage sources

end Script

end StreamEditor
