import StreamEditor.Cursor
import StreamEditor.Escape
import StreamEditor.Failure
import StreamEditor.Location
import StreamEditor.Text
import StreamEditor.Text.CaseFold
import StreamEditor.Text.Printable
import StreamEditor.Text.Quoted
import StreamEditor.Text.Ranges
import StreamEditor.Text.ShellWord
import StreamEditor.Text.Word
import StreamEditor.Scanner
import StreamEditor.Script
import StreamEditor.Storage
import StreamEditor.Token
import StreamEditor.Template
import StreamEditor.Transliteration
import StreamEditor.Regex.CharSet
import StreamEditor.Regex.Tree
import StreamEditor.Regex.Lexeme
import StreamEditor.Regex.Notation
import StreamEditor.Regex.Automaton
import StreamEditor.Regex.BasicNotation
import StreamEditor.Regex.Literal
import StreamEditor.Regex.Referring
import StreamEditor.Regex.Referring.Notation
import StreamEditor.Regex.Referring.Machine
import StreamEditor.Regex.Match
import StreamEditor.Regex.Library
import StreamEditor.Regex
import StreamEditor.Regex.Builtin
import StreamEditor.Regex.InBytes
import StreamEditor.Options
import StreamEditor.Program
import StreamEditor.Program.Printer
import StreamEditor.Program.Complaint
import StreamEditor.Program.Parser
import StreamEditor.Record
import StreamEditor.Trace
import StreamEditor.Environment
import StreamEditor.Input
import StreamEditor.Output
import StreamEditor.Writer
import StreamEditor.Listing
import StreamEditor.Editor
import StreamEditor.Editor.Selection
import StreamEditor.Editor.Run
import StreamEditor.Trace.Filter
import StreamEditor.Arguments
import StreamEditor.CommandLine
import StreamEditor.Main
import StreamEditor.Proofs.Parser.Statements
import StreamEditor.Proofs.Program.Nesting
import StreamEditor.Proofs.Program.Parsed
import StreamEditor.Proofs.Program.Body
import StreamEditor.Proofs.Regex.Spelling
import StreamEditor.Proofs.Regex.Conversion
import StreamEditor.Proofs.Regex.Signs
import StreamEditor.Proofs.Regex.Straight
import StreamEditor.Proofs.Regex.Plain
import StreamEditor.Proofs.Regex.Letters
import StreamEditor.Proofs.Regex.Lettered
import StreamEditor.Proofs.Regex.Shortcut
import StreamEditor.Proofs.Regex.Anchors
import StreamEditor.Proofs.Regex.Replaced
import StreamEditor.Proofs.Regex.Thinned
import StreamEditor.Proofs.Regex.Ungrouped
import StreamEditor.Proofs.Regex.Balanced
import StreamEditor.Proofs.Regex.Ordered
import StreamEditor.Proofs.Text.Boundaries
import StreamEditor.Proofs.Regex.Leftmost
import StreamEditor.Proofs.Regex.Reached
import StreamEditor.Proofs.Regex.Generated
import StreamEditor.Proofs.Regex.Attempts
import StreamEditor.Proofs.Regex.Numbered
import StreamEditor.Proofs.Regex.Chosen
import StreamEditor.Proofs.Program.Quoted
import StreamEditor.Proofs.Parser.Substitution
import StreamEditor.Proofs.Scanner.Measure
import StreamEditor.Proofs.Scanner.Passage
import StreamEditor.Proofs.Parser.Parallel
import StreamEditor.Proofs.Program.Moved
import StreamEditor.Proofs.Parser.Passage
import StreamEditor.Proofs.Program.Joined
import StreamEditor.Proofs.Input.Lookahead
import StreamEditor.Proofs.Input.Single
import StreamEditor.Proofs.Input.Whole
import StreamEditor.Proofs.Input.Records
import StreamEditor.Proofs.Input.Delivered
import StreamEditor.Proofs.Output.Written
import StreamEditor.Proofs.Output.Capped
import StreamEditor.Proofs.Output.Calls
import StreamEditor.Proofs.Editor.Edits
import StreamEditor.Proofs.Editor.Asking
import StreamEditor.Proofs.Editor.Stays
import StreamEditor.Proofs.Editor.Bounds
import StreamEditor.Proofs.Editor.Structured
import StreamEditor.Proofs.Editor.Substituted
import StreamEditor.Proofs.Editor.Outcome
import StreamEditor.Proofs.Editor.Capped
import StreamEditor.Proofs.Output.Replayed
import StreamEditor.Proofs.Editor.Printing
import StreamEditor.Proofs.Editor.Hushed
import StreamEditor.Proofs.Range.Machine
import StreamEditor.Proofs.Range.Asked
import StreamEditor.Proofs.Range.Run
import StreamEditor.Proofs.Editor.Lockstep
import StreamEditor.Proofs.Separate.SingleFile
import StreamEditor.Proofs.Separate.Along
import StreamEditor.Proofs.Separate.Streams
import StreamEditor.Proofs.Separate.OneByOne
import StreamEditor.Proofs.Parser.Printed
import StreamEditor.Proofs.Parser.Reread
import StreamEditor.Proofs.Program.Printed
import StreamEditor.Proofs.Editor.Confined
import StreamEditor.Proofs.Editor.Flushed
import StreamEditor.Proofs.Editor.Requests
import StreamEditor.Proofs.Output.Closed
import StreamEditor.Proofs.Editor.Reused
import StreamEditor.Proofs.Editor.Copied
import StreamEditor.Proofs.Editor.Cycles
import StreamEditor.Proofs.Editor.Sandboxed
import StreamEditor.Proofs.Parser.Delimited
import StreamEditor.Proofs.Parser.Fuel
import StreamEditor.Proofs.Program.Delimited
import StreamEditor.Proofs.Regex.Enclosed
import StreamEditor.Proofs.Regex.Grouped
import StreamEditor.Proofs.Regex.Repeatable
import StreamEditor.Proofs.Regex.Composed
import StreamEditor.Proofs.Regex.Stacked
import StreamEditor.Proofs.Editor.Likened
import StreamEditor.Proofs.Editor.Reprinted
import StreamEditor.Proofs.Editor.Directed
import StreamEditor.Proofs.Output.Brought
import StreamEditor.Proofs.Editor.Recorded
import StreamEditor.Proofs.Input.Beside
import StreamEditor.Proofs.Editor.Redirected
import StreamEditor.Proofs.Editor.Waiting
import StreamEditor.Proofs.Editor.Released
import StreamEditor.Proofs.Editor.Linewise
import StreamEditor.Proofs.Range.Met
import StreamEditor.Proofs.Range.Changed
import StreamEditor.Proofs.Editor.Reversed
import StreamEditor.Proofs.Editor.Ledger
import StreamEditor.Proofs.Editor.Accounted
import StreamEditor.Proofs.Text.Listed
import StreamEditor.Proofs.Program.Templates
import StreamEditor.Proofs.Editor.Transliterated
import StreamEditor.Proofs.Program.Relocated
import StreamEditor.Proofs.Program.Texts
import StreamEditor.Proofs.Input.Answered
import StreamEditor.Proofs.Program.Located
import StreamEditor.Proofs.Parser.Ends
import StreamEditor.Proofs.Text.Escapes
