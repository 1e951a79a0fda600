import StreamEditor.Text

/-!
The files that the editor reads and writes, and the ways in which that can fail.

* `Fault`: why reading or writing failed.
* `Storage`: files and folders by name, and the bytes waiting on the standard input.
* `Storage.open?`, `Storage.read?`, `Storage.create?`: what a name leads to, all of its bytes,
  and an emptied file under that name.
* `Storage.overwrite`: replaces bytes of a file from an offset onward.
-/

namespace StreamEditor

/-- Why reading or writing failed. -/
inductive Fault where
  | notFound
  | isFolder
  | notFolder
  | nameTooLong
  | noSpace
  /-- A name holds a character that no file name may hold. -/
  | nameHoldsNul
  /-- A text was expected, and the bytes are not well-formed UTF-8. -/
  | malformed
  /-- The sink has taken all the bytes it accepts. -/
  | sinkFull
  deriving DecidableEq, Repr, Inhabited

namespace Fault

/-- What is wrong, without a number. -/
def reason : Fault → Text
  | notFound => Text.ofString "No such file or directory"
  | isFolder => Text.ofString "Is a directory"
  | notFolder => Text.ofString "Not a directory"
  | nameTooLong => Text.ofString "File name too long"
  | noSpace => Text.ofString "No space left on device"
  | nameHoldsNul => Text.ofString "file name contained an unexpected NUL byte"
  | malformed => Text.ofString "stream did not contain valid UTF-8"
  | sinkFull => Text.ofString "sink is full"

/-- The system's number of the fault, if it has one. -/
def number? : Fault → Option Nat
  | notFound => some 2
  | isFolder => some 21
  | notFolder => some 20
  | nameTooLong => some 36
  | noSpace => some 28
  | nameHoldsNul | malformed | sinkFull => none

/-- What is wrong, with the system's number. -/
def message (f : Fault) : Text :=
  match f.number? with
  | some n => f.reason ++ Text.ofString " (os error " ++ Text.decimal n ++ [')']
  | none => f.reason

end Fault

/-- A way through the folders; names from the root begin with `/`. -/
abbrev Path := List Text

/-- Files and folders by their way from the working folder. -/
structure Storage where
  files : List (Path × Bytes)
  folders : List Path
  /-- The bytes waiting on the standard input. -/
  standardInput : Bytes
  deriving DecidableEq, Repr, Inhabited

/-- What a name leads to. -/
inductive Node where
  | file (path : Path) (contents : Bytes)
  | folder
  /-- Accepts no bytes. It would give bytes without end; that is left out, so it cannot be read. -/
  | fullDevice
  /-- Accepts all bytes and, read, gives none. -/
  | nullDevice
  | standardInput
  deriving DecidableEq, Repr

namespace Path

/-- The names on the way: empty ones and `.` do not move, and the root is a name. -/
def ofText (name : Text) : Path :=
  let parts := (Text.pieces '/' name).filter fun p => p ≠ [] && p ≠ ['.']
  if name.head? = some '/' then ['/'] :: parts else parts

/-- The parts of a name that tell it from other names: empty parts, and `.` after the first
part, do not count. -/
def key (name : Text) : Path :=
  let parts := (Text.pieces '/' name).filter (· ≠ [])
  let significant := List.filter fun p : Text => p ≠ ['.']
  if name.head? = some '/' then ['/'] :: significant parts
  else parts.take 1 ++ significant (parts.drop 1)

/-- The form with `/` between the names. -/
def render (p : Path) : Text := Text.joinWith '/' p

end Path

namespace Storage

/-- No files at all. -/
def empty : Storage := ⟨[], [], []⟩

/-- The contents of a file. -/
def get? (s : Storage) (p : Path) : Option Bytes := s.files.lookup p

/-- Replaces the contents of a file, or adds the file. -/
def set (s : Storage) (p : Path) (contents : Bytes) : Storage :=
  if s.files.any (·.1 = p) then
    { s with files := s.files.map fun entry => if entry.1 = p then (p, contents) else entry }
  else { s with files := s.files ++ [(p, contents)] }

/-- True if there is a folder at a way; the working folder is one. -/
def isFolder (s : Storage) (p : Path) : Bool := p = [] || p = [['/']] || s.folders.contains p

/-- Adds a folder and those that hold it. -/
def addFolder (s : Storage) (p : Path) : Storage :=
  let ways := (List.range p.length).map fun n => p.take (n + 1)
  let missing := ways.filter fun way => !s.isFolder way
  { s with folders := s.folders ++ missing }

/-- Adds a file and the folders that hold it. -/
def addFile (s : Storage) (p : Path) (contents : Bytes) : Storage :=
  (s.addFolder p.dropLast).set p contents

/-- The longest name of a file, in bytes. -/
def maxNameSize : Nat := 255

/-- The longest way, in bytes. -/
def maxPathSize : Nat := 4095

/-- Goes along a way from the folder `here`. Nothing leads out of the working folder. -/
def walk (s : Storage) (here : Path) : Path → Except Fault Path
  | [] => .ok here
  | name :: rest =>
      if !s.isFolder here then .error (if (s.get? here).isSome then .notFolder else .notFound)
      else if name = ['.', '.'] then walk s here.dropLast rest
      else if maxNameSize < Text.utf8Size name then .error .nameTooLong
      else walk s (here ++ [name]) rest

/-- The devices that have names of their own. -/
def device? (p : Path) : Option Node :=
  if p = Path.ofText (Text.ofString "/dev/full") then some .fullDevice
  else if p = Path.ofText (Text.ofString "/dev/null") then some .nullDevice
  else if p = Path.ofText (Text.ofString "/dev/stdin") then some .standardInput
  else none

/-- The way that a name gives, and whether it asks for a folder by its last character. -/
def locate (s : Storage) (name : Text) : Except Fault (Path × Bool) :=
  if name.contains '\x00' then .error .nameHoldsNul
  else if name = [] then .error .notFound
  else if maxPathSize < Text.utf8Size name then .error .nameTooLong
  else
    let path := Path.ofText name
    if (device? path).isSome then .ok (path, false)
    else
      match s.walk [] path with
      | .ok way => .ok (way, name.getLast? = some '/')
      | .error fault => .error fault

/-- What a name leads to. -/
def open? (s : Storage) (name : Text) : Except Fault Node :=
  match s.locate name with
  | .error fault => .error fault
  | .ok (way, asFolder) =>
      match device? way with
      | some node => .ok node
      | none =>
          match s.get? way with
          | some contents => if asFolder then .error .notFolder else .ok (.file way contents)
          | none => if s.isFolder way then .ok .folder else .error .notFound

/-- All the bytes that a name leads to. Reading the standard input uses it up. -/
def read? (s : Storage) (name : Text) : Except Fault Bytes × Storage :=
  match s.open? name with
  | .error fault => (.error fault, s)
  | .ok (.file _ contents) => (.ok contents, s)
  | .ok .folder => (.error .isFolder, s)
  | .ok .fullDevice => (.error .notFound, s)
  | .ok .nullDevice => (.ok [], s)
  | .ok .standardInput => (.ok s.standardInput, { s with standardInput := [] })

/-- Makes sure that a name leads to an empty file, or to a device that accepts bytes. -/
def create? (s : Storage) (name : Text) : Except Fault Node × Storage :=
  match s.locate name with
  | .error fault => (.error fault, s)
  | .ok (way, asFolder) =>
      match device? way with
      | some node => (.ok node, s)
      | none =>
          if s.isFolder way || asFolder then (.error .isFolder, s)
          else (.ok (.file way []), s.set way [])

/-- Replaces bytes of a file from an offset onward, lengthening it as needed. -/
def overwrite (s : Storage) (p : Path) (offset : Nat) (data : Bytes) : Storage :=
  match data with
  | [] => s
  | _ =>
      let old := (s.get? p).getD []
      let before := old.take offset
      let gap := List.replicate (offset - old.length) 0
      s.set p (before ++ gap ++ data ++ old.drop (offset + data.length))

end Storage

end StreamEditor
