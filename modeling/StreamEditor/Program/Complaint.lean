import StreamEditor.Text.Quoted

/-!
What can be wrong in a script.

* `Complaint`: the faults that the parser finds; `Complaint.message` is their wording.
-/

namespace StreamEditor

/-- A fault of a script. -/
inductive Complaint where
  | unexpectedClose
  | unclosedBlock
  | extraCharacters
  | negatedTwice
  | addressedLabel
  | missingLabel
  | missingCommand
  | unknownCommand (letter : Char)
  | misplacedZero
  | unexpectedComma
  | expectedNumber
  | numberTooLarge (digits : Text)
  | unterminatedAddress
  | flagsOnEmptyPattern
  /-- No library accepts the pattern. What the library says of it follows the message, and is left
  out here. -/
  | malformedPattern (pattern : Text)
  | tooManyAddresses
  | invalidExitCode
  | sandboxed
  | missingFileName
  | missingText
  | textOnSameLine (letter : Char)
  | invalidDelimiter (letter : Char)
  | unterminatedFields (letter : Char)
  | repeatedCount
  | zeroCount
  | repeatedPrint
  | invalidFlag (flag : Char)
  | missingGroup (number : Nat)
  | unequalSets
  | duplicateLabel (name : Text)
  deriving DecidableEq, Repr

namespace Complaint

/-- The wording of a fault. -/
def message : Complaint → Text
  | unexpectedClose => Text.ofString "unexpected `\x7d'"
  | unclosedBlock => Text.ofString "unmatched `\x7b'"
  | extraCharacters => Text.ofString "extra characters after command"
  | negatedTwice => Text.ofString "multiple `!'s"
  | addressedLabel => Text.ofString ": doesn't want any addresses"
  | missingLabel => Text.ofString "\":\" lacks a label"
  | missingCommand => Text.ofString "missing command"
  | unknownCommand letter => Text.ofString "unknown command: `" ++ [letter, '\'']
  | misplacedZero => Text.ofString "invalid usage of line address 0"
  | unexpectedComma => Text.ofString "unexpected `,'"
  | expectedNumber => Text.ofString "expected a number"
  | numberTooLarge digits => Text.ofString "invalid number: " ++ digits
  | unterminatedAddress => Text.ofString "unterminated address regex"
  | flagsOnEmptyPattern =>
      Text.ofString "cannot specify modifiers on an empty regular expression"
  | malformedPattern pattern =>
      Text.ofString "invalid regular expression " ++ Text.quoted pattern
  | tooManyAddresses => Text.ofString "command only uses one address"
  | invalidExitCode => Text.ofString "invalid exit code"
  | sandboxed => Text.ofString "e/r/w commands disabled in sandbox mode"
  | missingFileName => Text.ofString "missing filename in r/R/w/W commands"
  | missingText => Text.ofString "expected \\ after `a', `c' or `i'"
  | textOnSameLine letter =>
      Text.ofString "command `" ++ letter :: Text.ofString "' expects \\ followed by text"
  | invalidDelimiter letter =>
      let what := if letter = 's' then "substitute pattern" else "transliteration strings"
      Text.ofString what ++ Text.ofString " cannot be delimited by newline or backslash"
  | unterminatedFields letter =>
      Text.ofString "unterminated `" ++ letter :: Text.ofString "' command"
  | repeatedCount =>
      Text.ofString "multiple 'g' or numeric flags in substitute command"
  | zeroCount => Text.ofString "number option to `s' command may not be zero"
  | repeatedPrint => Text.ofString "multiple 'p' options to 's' command"
  | invalidFlag flag => Text.ofString "invalid substitute flag: '" ++ [flag, '\'']
  | missingGroup number =>
      Text.ofString "invalid reference \\" ++ Text.decimal number
        ++ Text.ofString " on `s' command's RHS"
  | unequalSets => Text.ofString "transliteration strings are not the same length"
  | duplicateLabel name => Text.ofString "duplicate label `" ++ name ++ ['\'']

end Complaint

end StreamEditor
