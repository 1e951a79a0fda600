import StreamEditor.Program
import StreamEditor.Text.Quoted

/-!
The printed form of a program, which a script may be written in as well.

* `Command.render`: a command, in the form in which scripts write it.
* `Program.render`: all commands, one to a line, indented by the depth of their blocks.
-/

namespace StreamEditor

namespace Address

/-- The written form of an address. -/
def render : Address → Text
  | line n => Text.decimal n
  | last => ['$']
  | pattern (some re) => '/' :: re.source ++ ['/']
  | pattern none => ['/', '/']
  | step first every => Text.decimal first ++ '~' :: Text.decimal every
  | zero => ['0']

end Address

namespace RangeEnd

/-- The written form of the end of a range. -/
def render : RangeEnd → Text
  | address a => a.render
  | following n => '+' :: Text.decimal n
  | multiple n => '~' :: Text.decimal n

end RangeEnd

namespace Selection

/-- The written form of a selection. -/
def render : Selection → Text
  | all => []
  | single a => a.render
  | range start stop _ => start.render ++ ',' :: stop.render

end Selection

namespace Target

/-- The name under which a target is written. -/
def name (files : List OutputFile) : Target → Text
  | output => Text.ofString "/dev/stdout"
  | errors => Text.ofString "/dev/stderr"
  | file i => (files[i]?.map (·.name)).getD []

end Target

namespace Substitution

/-- The written form of a substitution. -/
def render (files : List OutputFile) (s : Substitution) : Text :=
  let source := (s.regex.map (·.source)).getD []
  let occurrence := if s.occurrence > 1 then Text.decimal s.occurrence else []
  let write :=
    match s.write with
    | some target => 'w' :: ' ' :: target.name files
    | none => []
  ['s', '/'] ++ source ++ '/' :: s.template.render ++ '/' :: occurrence
    ++ (if s.everywhere then ['g'] else []) ++ (if s.print then ['p'] else []) ++ write

end Substitution

namespace Action

/-- The written form of what a command with a letter does. -/
def render (files : List OutputFile) (letter : Char) : Action → Text
  | label name => ':' :: name
  | branch _ (some name) _ => letter :: ' ' :: name
  | substitute s => s.render files
  | transliterate y =>
      ['y', '/'] ++ Text.escaped y.source ++ '/' :: Text.escaped y.target ++ ['/']
  | insert text | append text | change text =>
      letter :: '\\' :: (Text.pieces '\n' text).flatMap ('\n' :: ·)
  | quit code _ => if code = 0 then [letter] else letter :: ' ' :: Text.decimal code
  | appendFile name | appendFileLine name => letter :: ' ' :: name
  | write target | writeFirstLine target => letter :: ' ' :: target.name files
  | list (some width) => 'l' :: ' ' :: Text.decimal width
  | _ => [letter]

end Action

namespace Command

/-- The written form of a command. -/
def render (files : List OutputFile) (c : Command) : Text :=
  c.selection.render ++ (if c.negated then ['!'] else []) ++ c.action.render files c.letter

end Command

namespace Program

/-- The depths of blocks before and after a command at a depth. -/
def depths (depth : Nat) (c : Command) : Nat × Nat :=
  match c.action with
  | .blockEnd => (depth - 1, depth - 1)
  | .block _ => (depth, depth + 1)
  | _ => (depth, depth)

/-- The lines of commands, the first at a depth. -/
def renderCommands (files : List OutputFile) (depth : Nat) : List Command → Text
  | [] => []
  | c :: rest =>
      let (here, next) := depths depth c
      List.replicate (here * 2) ' ' ++ c.render files ++ '\n' :: renderCommands files next rest

/-- The line before the commands. -/
def header : Text := Text.ofString "SED PROGRAM:\n"

/-- The printed form of a program. -/
def render (p : Program) : Text := header ++ renderCommands p.outputFiles 1 p.commands

end Program

end StreamEditor
