import StreamEditor.Options
import StreamEditor.Script

/-!
The arguments of the editor.

* `Flag`: what an argument that begins with a dash can ask for, under which names and letters.
* `Refusal`: why arguments are refused.
* `Arguments.parse`: the options, the sources of the script and the input files that the
  arguments name.

A long name may be shortened as long as it fits one flag only, and letters may be written
together behind one dash.
-/

namespace StreamEditor

/-- What an argument that begins with a dash asks for. -/
inductive Flag where
  | debug
  | extended
  | expression
  | scriptFile
  | lineLength
  | quiet
  | posix
  | separate
  | sandbox
  | unbuffered
  | nullData
  | help
  deriving DecidableEq, Repr, Inhabited

namespace Flag

/-- All flags, in the order in which they are explained. -/
def all : List Flag :=
  [debug, extended, expression, scriptFile, lineLength, quiet, posix, separate, sandbox,
   unbuffered, nullData, help]

/-- The long name of a flag. -/
def name : Flag → Text
  | debug => Text.ofString "debug"
  | extended => Text.ofString "regexp-extended"
  | expression => Text.ofString "expression"
  | scriptFile => Text.ofString "file"
  | lineLength => Text.ofString "line-length"
  | quiet => Text.ofString "quiet"
  | posix => Text.ofString "posix"
  | separate => Text.ofString "separate"
  | sandbox => Text.ofString "sandbox"
  | unbuffered => Text.ofString "unbuffered"
  | nullData => Text.ofString "null-data"
  | help => Text.ofString "help"

/-- The long names that a flag answers to. -/
def names (f : Flag) : List Text :=
  match f with
  | quiet => [f.name, Text.ofString "silent"]
  | _ => [f.name]

/-- The letters that a flag answers to. -/
def letters : Flag → List Char
  | extended => ['E', 'r']
  | expression => ['e']
  | scriptFile => ['f']
  | lineLength => ['l']
  | quiet => ['n']
  | separate => ['s']
  | unbuffered => ['u']
  | nullData => ['z']
  | help => ['h']
  | debug | posix | sandbox => []

/-- The word for the value of a flag that needs one. -/
def value? : Flag → Option Text
  | expression => some (Text.ofString "SCRIPT")
  | scriptFile => some (Text.ofString "FILE")
  | lineLength => some (Text.ofString "NUM")
  | _ => none

/-- What a flag does. -/
def explanation : Flag → Text
  | debug => Text.ofString "Annotate program execution."
  | extended => Text.ofString "Use extended regular expressions."
  | expression => Text.ofString "Add script to executed commands."
  | scriptFile => Text.ofString "Add the contents of FILE to executed commands."
  | lineLength => Text.ofString "Specify the 'l' command line-wrap length."
  | quiet => Text.ofString "Suppress automatic printing of pattern space."
  | posix => Text.ofString "Disable all GNU extensions."
  | separate => Text.ofString "Consider files as separate rather than as a long stream."
  | sandbox => Text.ofString "Operate in a sandbox by disabling r/R/w/W commands."
  | unbuffered => Text.ofString "Flush output buffers after every line."
  | nullData => Text.ofString "Separate lines by NUL characters."
  | help => Text.ofString "Print help"

/-- The flag that a long name, perhaps shortened, means. -/
def ofName? (given : Text) : Option Flag :=
  match all.find? (·.names.contains given) with
  | some f => some f
  | none =>
      match all.filter (·.names.any given.isPrefixOf) with
      | [f] => some f
      | _ => none

/-- The flag that a letter means. -/
def ofLetter? (c : Char) : Option Flag := all.find? (·.letters.contains c)

/-- The long form of a flag, with the word for its value. -/
def render (f : Flag) : Text :=
  let value := f.value?.elim [] fun word => ' ' :: '<' :: word ++ ['>']
  '-' :: '-' :: f.name ++ value

end Flag

/-- Why arguments are refused. -/
inductive Refusal where
  | unknown (argument : Text)
  | missingValue (what : Text)
  | unexpectedValue (flag : Flag) (value : Text)
  | malformedValue (flag : Flag) (value : Text)
  | repeated (flag : Flag)
  | missingScript
  /-- Not a fault: help is asked for instead. -/
  | help
  deriving DecidableEq, Repr, Inhabited

/-- What the arguments say. -/
structure Arguments where
  options : Options
  sources : List Source
  files : List Text
  deriving DecidableEq, Repr, Inhabited

namespace Arguments

/-- The arguments read so far. -/
structure Reading where
  /-- The flags without a value. -/
  flags : List Flag
  lineLength : Option Nat
  sources : List Source
  operands : List Text
  deriving Inhabited

namespace Reading

/-- Nothing is read. -/
def start : Reading := ⟨[], none, [], []⟩

/-- The greatest number that may be given. -/
def maxNumber : Nat := Nat.pow 2 64 - 1

/-- Reads a number; a plus sign may come first. -/
def number? (t : Text) : Option Nat :=
  let digits := if t.head? = some '+' then t.drop 1 else t
  if digits.isEmpty || !digits.all Char.isDigit then none
  else
    let n := Text.readDecimal digits
    if n ≤ maxNumber then some n else none

/-- Adds a flag without a value. -/
def mark (r : Reading) (f : Flag) : Except Refusal Reading :=
  if f = .help then .error .help
  else if r.flags.contains f then .error (.repeated f)
  else .ok { r with flags := r.flags ++ [f] }

/-- Adds a flag with its value. -/
def give (r : Reading) (f : Flag) (value : Text) : Except Refusal Reading :=
  match f with
  | .expression => .ok { r with sources := r.sources ++ [.text value] }
  | .scriptFile =>
      if value.isEmpty then .error (.missingValue f.render)
      else .ok { r with sources := r.sources ++ [.file value] }
  | _ =>
      match number? value with
      | none => .error (.malformedValue f value)
      | some n =>
          if r.lineLength.isSome then .error (.repeated f)
          else .ok { r with lineLength := some n }

/-- Adds an operand. The first may be a script, which can be empty. -/
def operand (r : Reading) (t : Text) : Except Refusal Reading :=
  if t.isEmpty && !r.operands.isEmpty then .error (.missingValue (Text.ofString "[file]..."))
  else .ok { r with operands := r.operands ++ [t] }

/-- Adds flags that are written as letters, and the flag among them that waits for its value
if that is not given with it. -/
def letters (r : Reading) : Text → Except Refusal (Option Flag × Reading)
  | [] => .ok (none, r)
  | c :: rest =>
      match Flag.ofLetter? c with
      | none => .error (.unknown ['-', c])
      | some f =>
          if f.value?.isSome then
            match rest with
            | [] => .ok (some f, r)
            | '=' :: value => return (none, ← r.give f value)
            | value => return (none, ← r.give f value)
          else
            match r.mark f with
            | .error refusal => .error refusal
            | .ok r => letters r rest

/-- Adds a flag that is written with its name, perhaps with a value after an equals sign, and
the flag itself if it waits for its value. -/
def named (r : Reading) (t : Text) : Except Refusal (Option Flag × Reading) :=
  let name := t.takeWhile (· ≠ '=')
  let value := (t.dropWhile (· ≠ '=')).drop 1
  let hasValue := t.contains '='
  match Flag.ofName? name with
  | none => .error (.unknown ('-' :: '-' :: name))
  | some f =>
      if f.value?.isSome then
        if hasValue then return (none, ← r.give f value) else .ok (some f, r)
      else if hasValue then .error (.unexpectedValue f value)
      else return (none, ← r.mark f)

/-- True for an argument that asks for flags, or ends them. -/
def isDashed (t : Text) : Bool := t.head? = some '-' && t ≠ ['-']

/-- Reads arguments; a flag before them may wait for its value. -/
def readAll (r : Reading) : Option Flag → List Text → Except Refusal Reading
  | none, [] => .ok r
  | some f, [] => .error (.missingValue f.render)
  | some f, t :: rest =>
      if isDashed t then .error (.missingValue f.render)
      else
        match r.give f t with
        | .ok r => readAll r none rest
        | .error refusal => .error refusal
  | none, t :: rest =>
      if t = ['-', '-'] then rest.foldlM operand r
      else
        let step :=
          if isDashed t then
            if t.take 2 = ['-', '-'] then r.named (t.drop 2) else r.letters (t.drop 1)
          else return (none, ← r.operand t)
        match step with
        | .ok (waiting, r) => readAll r waiting rest
        | .error refusal => .error refusal

/-- The options that were given. -/
def options (r : Reading) : Options :=
  let given (f : Flag) : Bool := r.flags.contains f
  { debug := given .debug
    extended := given .extended
    posix := given .posix
    quiet := given .quiet
    separate := given .separate
    sandbox := given .sandbox
    unbuffered := given .unbuffered
    nullData := given .nullData
    lineWrap := r.lineLength.getD Options.defaultLineWrap }

end Reading

/-- Reads the arguments. The first operand is the script, unless one was given otherwise. -/
def parse (arguments : List Text) : Except Refusal Arguments := do
  let r ← Reading.start.readAll none arguments
  match r.sources, r.operands with
  | [], [] => .error .missingScript
  | [], script :: files => return ⟨r.options, [.text script], files⟩
  | sources, files => return ⟨r.options, sources, files⟩

end Arguments

end StreamEditor
