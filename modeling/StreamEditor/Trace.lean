import StreamEditor.Text

/-!
Events that tell how a program is run.

* `Event`: what is told; `Event.render` is its line.
* `Severity`: how important an event is, and which events a filter lets through.
-/

namespace StreamEditor

/-- How important an event is. -/
inductive Severity where
  | error
  | warn
  | info
  | debug
  | trace
  deriving DecidableEq, Repr, Inhabited

namespace Severity

/-- The place in the order of importance; more detail comes later. -/
def detail : Severity → Nat
  | error => 1
  | warn => 2
  | info => 3
  | debug => 4
  | trace => 5

/-- The word for a severity. -/
def name : Severity → Text
  | error => Text.ofString "ERROR"
  | warn => Text.ofString "WARN"
  | info => Text.ofString "INFO"
  | debug => Text.ofString "DEBUG"
  | trace => Text.ofString "TRACE"

end Severity

/-- What is told about a run. -/
inductive Event where
  | parsed (commands labels ranges outputFiles : Nat)
  | started (commands : Nat) (quiet : Bool)
  | cycle (line : Nat) (pattern : Text)
  | substituted (count : Nat)
  | branch (target : Option Nat)
  | quit (line exitCode : Nat)
  deriving DecidableEq, Repr, Inhabited

namespace Event

/-- How important an event is. -/
def severity : Event → Severity
  | parsed _ _ _ _ | started _ _ | quit _ _ => .debug
  | cycle _ _ | substituted _ | branch _ => .trace

/-- A field of an event. -/
def field (name : String) (value : Text) : Text := ' ' :: Text.ofString name ++ '=' :: value

/-- What an event tells. -/
def message : Event → Text
  | parsed commands labels ranges outputFiles =>
      Text.ofString "parsed program" ++ field "commands" (Text.decimal commands)
        ++ field "labels" (Text.decimal labels) ++ field "ranges" (Text.decimal ranges)
        ++ field "output_files" (Text.decimal outputFiles)
  | started commands quiet =>
      Text.ofString "processing input" ++ field "commands" (Text.decimal commands)
        ++ field "quiet" (Text.ofString (if quiet then "true" else "false"))
  | cycle line pattern =>
      Text.ofString "cycle" ++ field "line" (Text.decimal line) ++ field "pattern" pattern
  | substituted count => Text.ofString "substituted" ++ field "count" (Text.decimal count)
  | branch (some target) =>
      Text.ofString "branch"
        ++ field "target" (Text.ofString "Some(" ++ Text.decimal target ++ [')'])
  | branch none => Text.ofString "branch" ++ field "target" (Text.ofString "None")
  | quit line exitCode =>
      Text.ofString "quit" ++ field "line" (Text.decimal line)
        ++ field "exit_code" (Text.decimal exitCode)

/-- The line of an event. -/
def render (e : Event) : Text := e.severity.name ++ ' ' :: e.message ++ ['\n']

end Event

end StreamEditor
