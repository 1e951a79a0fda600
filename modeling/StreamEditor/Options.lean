/-!
The options of the editor.

* `Options`: what the command line can change.
* `Options.separator`: the byte that ends the records of input and output.
-/

namespace StreamEditor

/-- What the command line can change. -/
structure Options where
  /-- Print the program and trace its execution. -/
  debug : Bool
  /-- Patterns are in the extended notation. -/
  extended : Bool
  /-- Refuse, or read plainly, what goes beyond the standard. -/
  posix : Bool
  /-- Do not print the pattern space at the end of a cycle. -/
  quiet : Bool
  /-- Each input file is a stream of its own. -/
  separate : Bool
  /-- Refuse commands that read or write files. -/
  sandbox : Bool
  /-- Deliver the output after every record. -/
  unbuffered : Bool
  /-- Records end in a NUL byte rather than a newline. -/
  nullData : Bool
  /-- The width at which listings are wrapped. -/
  lineWrap : Nat
  deriving DecidableEq, Repr, Inhabited

namespace Options

/-- The width of listings if nothing else gives one. -/
def defaultLineWrap : Nat := 70

/-- No option is given. -/
def standard : Options :=
  ⟨false, false, false, false, false, false, false, false, defaultLineWrap⟩

/-- The byte that ends a record. -/
def separator (o : Options) : UInt8 := if o.nullData then 0 else 10

end Options

end StreamEditor
