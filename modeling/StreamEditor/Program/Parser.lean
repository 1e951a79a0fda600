import StreamEditor.Failure
import StreamEditor.Options
import StreamEditor.Program
import StreamEditor.Program.Complaint
import StreamEditor.Scanner
import StreamEditor.Script

/-!
The program that a script says.

* `Parser`: the token to be read next, and the program read so far.
* `Argument`: what follows a command letter; `Argument.ofLetter?` gives it for each letter, and how
  many addresses it takes.
* `Program.parse`: the program of a script, or the first fault in it. Labels are resolved when
  all commands are read, and all labels that are missing are reported together.
-/

namespace StreamEditor

/-- What follows the letter of a command. -/
inductive Argument where
  | label
  | nothing
  | number
  | readName
  | substitution
  | text
  | transliteration
  | writeName
  deriving DecidableEq, Repr

/-- The argument and the number of addresses that a command letter allows; none if it is no
command. Some commands take a second address only beyond the standard. -/
def Argument.ofLetter? (posix : Bool) (letter : Char) : Option (Argument × Nat) :=
  let beyond := if posix then 1 else 2
  match letter with
  | 'a' | 'i' => some (text, beyond)
  | 'c' => some (text, 2)
  | 'b' | 't' | 'T' => some (label, 2)
  | 'd' | 'D' | 'g' | 'G' | 'h' | 'H' | 'n' | 'N' | 'p' | 'P' | 'x' | 'z' | 'F' =>
      some (nothing, 2)
  | '=' => some (nothing, beyond)
  | 'l' => some (number, 2)
  | 'q' | 'Q' => some (number, 1)
  | 'r' => some (readName, beyond)
  | 'R' => some (readName, 2)
  | 's' => some (substitution, 2)
  | 'y' => some (transliteration, 2)
  | 'w' | 'W' => some (writeName, 2)
  | _ => none

/-- The token to be read next, and the program read so far. -/
structure Parser where
  script : Script
  options : Options
  /-- The scanner after the current token. -/
  scanner : Scanner
  /-- The current token. -/
  token : Token
  commands : List Command
  outputFiles : List OutputFile
  rangeCount : Nat
  /-- The numbers of the blocks that are open, the innermost first. -/
  openBlocks : List Nat

namespace Parser

open Token (Kind)

/-- A part of the work of reading: it may fail. -/
abbrev Parse (α : Type) := StateT Parser (Except Failure) α

/-- The place of the current token. -/
def place (p : Parser) : Location :=
  let (line, column) := p.scanner.lineColumn
  p.script.location line column

/-- Reads the next token. -/
def advanced (p : Parser) : Parser :=
  let (token, scanner) := p.scanner.next
  { p with token, scanner }

/-- Passes the current token. -/
def advance : Parse Unit := modify advanced

/-- Passes the current token; the next one is to be read in a mode. -/
def advanceIn (mode : Scanner.Mode) : Parse Unit :=
  modify fun p => { p with scanner := { p.scanner with mode } }.advanced

/-- The beginning of a script. -/
def start (script : Script) (options : Options) : Parser :=
  { script
    options
    scanner := .start script.text
    token := .endOfScript
    commands := []
    outputFiles := []
    rangeCount := 0
    openBlocks := [] : Parser }.advanced

/-- Complains about the current token. -/
def complain {α : Type} (c : Complaint) : Parse α := do
  throw (.script (← get).place c.message)

/-- Complains about a command. -/
def complainOf {α : Type} (place : Location) (letter : Char) (c : Complaint) : Parse α :=
  throw (.command .compiling place letter c.message)

/-- True if the current token is of a kind. -/
def isAt (kind : Kind) : Parse Bool := return (← get).token.kind = kind

/-- The first character of the current token. -/
def currentChar : Parse Char := return (← get).token.firstChar.getD ' '

/-- The literal of the current token, which is passed if it is of a kind. -/
def literalIf (kind : Kind) : Parse (Option Text) := do
  let token := (← get).token
  if token.kind = kind then
    advance
    return some token.literal
  else return none

/-- A number of tokens that suffices to reach the end of the script. -/
def bound (p : Parser) : Nat := p.scanner.bound + 1

/-- Adds a command. -/
def push (c : Command) : Parse Unit :=
  modify fun p => { p with commands := p.commands ++ [c] }

/-- Requires the end of a command. -/
def expectEnd : Parse Unit := do
  let token := (← get).token
  if token.isSeparator || token.kind = .closeBrace then return ()
  else complain .extraCharacters

/-! ### Numbers and addresses -/

/-- The numbers that a script may hold are below this. -/
def numberLimit : Nat := Nat.pow 2 64

/-- The number that the current token writes. -/
def number : Parse Nat := do
  let digits := (← get).token.literal
  let n := Text.readDecimal digits
  if n < numberLimit then return n else complain (.numberTooLarge digits)

/-- Passes the current token and the number after it. -/
def numberAfter : Parse Nat := do
  advance
  if ← isAt .number then
    let n ← number
    advance
    return n
  else complain .expectedNumber

variable [Regex.Library]

/-- Reads a pattern with its flags; an empty one stands for the expression used last. -/
def compilePattern (pattern : Text) (options : Regex.Options) : Parse (Option Regex) :=
  if pattern.isEmpty then
    if options.ignoreCase || options.multiLine then complain .flagsOnEmptyPattern
    else return none
  else
    match Regex.compile? options (unescapePattern pattern) with
    | some re => return some re
    | none => complain (.malformedPattern pattern)

/-- Reads the flags after the pattern of an address; there are at most `fuel` of them. -/
def patternFlags : Nat → Regex.Options → Parse Regex.Options
  | 0, options => return options
  | fuel + 1, options => do
      if ← isAt .word then
        let options :=
          if (← currentChar) = 'I' then { options with ignoreCase := true }
          else { options with multiLine := true }
        advance
        patternFlags fuel options
      else return options

/-- Reads the pattern of an address after its delimiter. -/
def patternAddress : Parse Address := do
  advance
  let pattern := (← literalIf .text).getD []
  if ← isAt .slash then
    advance
    let p ← get
    let options ← patternFlags p.bound ⟨p.options.extended, false, false⟩
    return .pattern (← compilePattern pattern options)
  else complain .unterminatedAddress

/-- Reads an address that begins with a number. -/
def numberAddress : Parse Address := do
  let first ← number
  advance
  if ← isAt .tilde then return .step first (← numberAfter)
  else return if first = 0 then .zero else .line first

/-- Reads an address. -/
def address : Parse Address := do
  match (← get).token.kind with
  | .dollar =>
      advance
      return .last
  | .number => numberAddress
  | _ => patternAddress

/-- Reads the end of a range. -/
def rangeEnd : Parse RangeEnd := do
  match (← get).token.kind with
  | .plus => return .following (← numberAfter)
  | .tilde => return .multiple (← numberAfter)
  | .number | .dollar | .slash => return .address (← address)
  | _ => complain .unexpectedComma

/-- True if a range may begin before the first record and end so. -/
def zeroAllowed : Address → RangeEnd → Bool
  | _, .address .zero => false
  | .zero, .address (.pattern _) => true
  | .zero, _ => false
  | _, _ => true

/-- Reads the addresses of a command. -/
def selection : Parse Selection := do
  match (← get).token.kind with
  | .number | .dollar | .slash =>
      let start ← address
      if ← isAt .comma then
        advance
        let stop ← rangeEnd
        if zeroAllowed start stop then
          let slot := (← get).rangeCount
          modify fun p => { p with rangeCount := slot + 1 }
          return .range start stop slot
        else complain .misplacedZero
      else
        match start with
        | .zero => complain .misplacedZero
        | _ => return .single start
  | _ => return .all

/-! ### Arguments -/

/-- Reads the file name after the current token. -/
def fileName : Parse Text := do
  if (← get).options.sandbox then complain .sandboxed
  else
    advance
    match ← literalIf .word with
    | some name => return name
    | none => complain .missingFileName

/-- The target that a file name stands for. A file named for the first time is added to those
that the program writes. -/
def target (name : Text) (place : Location) : Parse Target := do
  if name = Text.ofString "/dev/stdout" then return .output
  else if name = Text.ofString "/dev/stderr" then return .errors
  else
    let files := (← get).outputFiles
    match files.findIdx? (Path.key ·.name = Path.key name) with
    | some i => return .file i
    | none =>
        modify fun p => { p with outputFiles := files ++ [⟨name, place⟩] }
        return .file files.length

/-- Reads the text of a command. -/
def textArgument (letter : Char) : Parse Action := do
  advance
  let onSameLine := !(← isAt .backslash)
  if !onSameLine then advance
  let p ← get
  let literal := p.token.literal
  if p.token.kind ≠ .text || (onSameLine && literal.isEmpty) then complain .missingText
  else if onSameLine && p.options.posix then complain (.textOnSameLine letter)
  else
    let text := unescapeText p.options.posix literal
    advance
    if literal.isEmpty && (← isAt .eof) then complain .missingText
    else
      match letter with
      | 'a' => return .append text
      | 'i' => return .insert text
      | _ => return .change text

/-- Reads a field after its delimiter. -/
def field (letter : Char) : Parse Text := do
  if ← isAt .delimiter then
    advance
    return (← literalIf .text).getD []
  else complain (.unterminatedFields letter)

/-- Reads the two fields of a command, up to the delimiter that closes the second. -/
def fields (letter : Char) : Parse (Text × Text) := do
  advance
  if ← isAt .illegal then complain (.invalidDelimiter letter)
  else
    let first ← field letter
    let second ← field letter
    if ← isAt .delimiter then return (first, second) else complain (.unterminatedFields letter)

/-- The flags of a substitution. -/
structure SubstitutionFlags where
  pattern : Regex.Options
  occurrence : Option Nat
  everywhere : Bool
  print : Bool
  write : Option Target

/-- Takes in a flag of a substitution other than a number or a file name. -/
def SubstitutionFlags.add? (f : SubstitutionFlags) (letter : Char) :
    Except Complaint SubstitutionFlags :=
  match letter with
  | 'g' => if f.everywhere then .error .repeatedCount else .ok { f with everywhere := true }
  | 'p' => if f.print then .error .repeatedPrint else .ok { f with print := true }
  | 'i' | 'I' => .ok { f with pattern := { f.pattern with ignoreCase := true } }
  | 'm' | 'M' => .ok { f with pattern := { f.pattern with multiLine := true } }
  | c => .error (.invalidFlag c)

/-- Reads the flags of a substitution; there are at most `fuel` of them. -/
def substitutionFlags (place : Location) :
    Nat → SubstitutionFlags → Parse SubstitutionFlags
  | 0, flags => return flags
  | fuel + 1, flags => do
      match (← get).token.kind with
      | .number =>
          if flags.occurrence.isSome then complain .repeatedCount
          else
            let n ← number
            if n = 0 then complain .zeroCount
            else
              advance
              substitutionFlags place fuel { flags with occurrence := some n }
      | .word =>
          let letter ← currentChar
          if letter = 'w' then
            let name ← fileName
            return { flags with write := some (← target name place) }
          else
            match flags.add? letter with
            | .ok flags =>
                advance
                substitutionFlags place fuel flags
            | .error c => complain c
      | _ => return flags

/-- Reads a substitution. -/
def substitution (place : Location) : Parse Action := do
  let (pattern, replacement) ← fields 's'
  advance
  let p ← get
  let initial : SubstitutionFlags :=
    ⟨⟨p.options.extended, false, false⟩, none, false, false, none⟩
  let flags ← substitutionFlags place p.bound initial
  if ← isAt .illegal then complain (.invalidFlag (← currentChar))
  else
    let regex ← compilePattern pattern flags.pattern
    let template := Template.compile replacement
    if regex.any fun re => re.groupCount ≤ template.maxGroup then
      complainOf place 's' (.missingGroup template.maxGroup)
    else
      return .substitute {
        regex
        template
        occurrence := flags.occurrence.getD 1
        everywhere := flags.everywhere
        print := flags.print
        write := flags.write }

/-- Reads a transliteration. -/
def transliteration : Parse Action := do
  let (source, target) ← fields 'y'
  let source := unescapeSet source
  let target := unescapeSet target
  if source.length ≠ target.length then complain .unequalSets
  else
    advanceIn .ending
    return .transliterate ⟨source, target⟩

/-- What a command without argument does. -/
def plainAction : Char → Action
  | 'd' => .delete
  | 'D' => .deleteFirstLine
  | 'g' => .get
  | 'G' => .getAppend
  | 'h' => .hold
  | 'H' => .holdAppend
  | 'n' => .next
  | 'N' => .appendNext
  | 'p' => .print
  | 'P' => .printFirstLine
  | 'x' => .exchange
  | 'z' => .zap
  | 'F' => .fileName
  | _ => .lineNumber

/-- When a branch command is taken. -/
def branchCondition : Char → Condition
  | 't' => .ifSubstituted
  | 'T' => .ifNotSubstituted
  | _ => .always

/-- Exit codes are below this. -/
def exitCodeLimit : Nat := Nat.pow 2 31

/-- Reads the number that may follow a command. -/
def numberArgument (letter : Char) : Parse Action := do
  advance
  let n ←
    if ← isAt .number then
      let n ← number
      advance
      pure (some n)
    else pure none
  if letter = 'l' then return .list n
  else
    let code := n.getD 0
    if code < exitCodeLimit then return .quit code (letter = 'q') else complain .invalidExitCode

/-- Reads the argument of a command. -/
def argument (letter : Char) (place : Location) : Argument → Parse Action
  | .nothing => do
      advanceIn .ending
      return plainAction letter
  | .label => do
      advance
      return .branch (branchCondition letter) (← literalIf .word) none
  | .number => numberArgument letter
  | .readName => do
      let name ← fileName
      return if letter = 'R' then .appendFileLine name else .appendFile name
  | .writeName => do
      let target ← target (← fileName) place
      return if letter = 'W' then .writeFirstLine target else .write target
  | .text => textArgument letter
  | .substitution => substitution place
  | .transliteration => transliteration

/-! ### Commands -/

/-- Reads a command from its letter on. -/
def command (selection : Selection) (negated : Bool) (place : Location) : Parse Unit := do
  let p ← get
  let letter ← currentChar
  match Argument.ofLetter? p.options.posix letter with
  | none => complain (.unknownCommand letter)
  | some (kind, addresses) =>
      if addresses < selection.addressCount then complain .tooManyAddresses
      else
        let action ← argument letter place kind
        push ⟨letter, selection, negated, action, place⟩

/-- Reads a label from its colon on. -/
def label (selection : Selection) (place : Location) : Parse Unit := do
  if selection.addressCount > 0 then complain .addressedLabel
  else
    advance
    let token := (← get).token
    if token.kind = .word then
      push ⟨':', selection, false, .label token.literal, place⟩
      advance
      expectEnd
    else complain .missingLabel

/-- Reads the signs of negation; there may be one. -/
def negation : Parse Bool := do
  if ← isAt .bang then
    advance
    if ← isAt .bang then complain .negatedTwice else return true
  else return false

/-- Opens a block. -/
def openBlock (selection : Selection) (negated : Bool) (place : Location) : Parse Unit := do
  modify fun p => { p with openBlocks := p.commands.length :: p.openBlocks }
  push ⟨'{', selection, negated, .block 0, place⟩
  advance

/-- Reads a command with its addresses. -/
def statement : Parse Unit := do
  let selection ← selection
  let negated ← negation
  let p ← get
  match p.token.kind with
  | .openBrace => openBlock selection negated p.place
  | .colon => label selection p.place
  | .command =>
      command selection negated p.place
      expectEnd
  | .closeBrace => complain .unexpectedClose
  | .newline | .semicolon | .eof => complain .missingCommand
  | _ => complain (.unknownCommand (← currentChar))

/-- The command with the place at which its block ends, if it opens one. -/
def closed (stop : Nat) (c : Command) : Command :=
  match c.action with
  | .block _ => { c with action := .block stop }
  | _ => c

/-- Closes the innermost block. -/
def closeBlock : Parse Unit := do
  let p ← get
  match p.openBlocks with
  | [] => complain .unexpectedClose
  | block :: outer =>
      let stop := p.commands.length
      set { p with commands := p.commands.modify block (closed stop), openBlocks := outer }
      push ⟨'}', .all, false, .blockEnd, p.place⟩
      advance
      expectEnd

/-- Reads commands up to the end of the script. Each step passes a token, so `fuel` need be no
more than their number. -/
def statements : Nat → Parse Unit
  | 0 => return ()
  | fuel + 1 => do
      match (← get).token.kind with
      | .newline | .semicolon =>
          advance
          statements fuel
      | .eof => return ()
      | .closeBrace =>
          closeBlock
          statements fuel
      | _ =>
          statement
          statements fuel

/-- Reads a whole script. -/
def wholeScript : Parse Unit := do
  statements (← get).bound
  let p ← get
  match p.openBlocks with
  | [] => return ()
  | block :: _ =>
      let place := ((p.commands[block]?).map (·.place)).getD p.place
      throw (.script place Complaint.unclosedBlock.message)

end Parser

namespace Program

/-- The labels that commands define, each with the number of its command; `index` is the number
of the first. A label defined before is a fault. -/
def collectLabels (index : Nat) (labels : List (Text × Nat)) :
    List Command → Except Failure (List (Text × Nat))
  | [] => .ok labels
  | c :: rest =>
      match c.action with
      | .label name =>
          if labels.any (·.1 = name) then
            .error (.command .compiling c.place ':' (Complaint.duplicateLabel name).message)
          else collectLabels (index + 1) (labels ++ [(name, index)]) rest
      | _ => collectLabels (index + 1) labels rest

/-- A command with the target of its branch. -/
def resolve (labels : List (Text × Nat)) (c : Command) : Command :=
  match c.action with
  | .branch condition (some name) _ =>
      { c with action := .branch condition (some name) (labels.lookup name) }
  | _ => c

/-- The label to which a command branches and that is not defined, with the command's place. -/
def undefinedLabel? (labels : List (Text × Nat)) (c : Command) : Option (Location × Text) :=
  match c.action with
  | .branch _ (some name) _ =>
      if (labels.lookup name).isNone then some (c.place, name) else none
  | _ => none

/-- The program of a script. -/
def parse [Regex.Library] (script : Script) (options : Options) : Except Failure Program := do
  let ((), p) ← Parser.wholeScript.run (Parser.start script options)
  let labels ← collectLabels 0 [] p.commands
  match p.commands.filterMap (undefinedLabel? labels) with
  | [] =>
      return {
        commands := p.commands.map (resolve labels)
        labels
        outputFiles := p.outputFiles
        rangeCount := p.rangeCount
        quiet := script.asksForQuiet }
  | uses => throw (.undefinedLabels uses)

end Program

end StreamEditor
