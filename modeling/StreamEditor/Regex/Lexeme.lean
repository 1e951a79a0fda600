import StreamEditor.Escape
import StreamEditor.Regex.Tree

/-!
The parts of the extended notation of regular expressions.

* `Flags`: how the notation is read; a group can change them up to its end.
* `Lexeme`: a character set, a condition, a parenthesis, a bar or a repetition.
* `Lexeme.ofText?`: the lexemes of a pattern, or none if a part of it is malformed.
-/

namespace StreamEditor.Regex

/-- How the notation is read. -/
structure Flags where
  /-- `i`: letters stand for all their forms. -/
  ignoreCase : Bool
  /-- `m`: anchors match at the ends of lines too. -/
  multiLine : Bool
  /-- `s`: a dot matches a newline too. -/
  dotAll : Bool
  /-- `U`: repetitions prefer to be short unless a question mark follows. -/
  swapGreed : Bool
  /-- `x`: white space and comments mean nothing. -/
  verbose : Bool
  deriving DecidableEq, Repr, Inhabited

/-- No flag is set. -/
def Flags.none : Flags := ⟨false, false, false, false, false⟩

/-- A part of the notation. -/
inductive Lexeme where
  | set (s : CharSet)
  | look (l : Look)
  /-- Opens a group that remembers what it matches, possibly under a name. -/
  | openGroup (name : Option Text)
  /-- Opens a group that does not, with flags of its own. -/
  | openPlain (flags : Flags)
  /-- Changes the flags up to the end of the group. -/
  | setFlags (flags : Flags)
  | close
  | bar
  | loop (least : Nat) (most : Option Nat) (greedy : Bool)
  deriving DecidableEq, Repr, Inhabited

namespace Lexeme

/-- What a backslash and the text after it mean. -/
inductive Escaped where
  | char (c : Char)
  | set (s : CharSet)
  | look (l : Look)
  deriving DecidableEq, Repr

/-- True for the characters that have a meaning outside or inside brackets. -/
def isMeta (c : Char) : Bool :=
  ['\\', '.', '+', '*', '?', '(', ')', '|', '[', ']', '{', '}', '^', '$', '#', '&', '-',
    '~'].contains c

/-- True for the characters that a backslash may precede without giving them a meaning. -/
def mayBeEscaped (c : Char) : Bool :=
  isMeta c || (c.toNat < 0x80 && !c.isAlphanum && c ≠ '<' && c ≠ '>')

/-- True for the hexadecimal digits. -/
def isHexDigit (c : Char) : Bool := (Escape.digit? 16 c).isSome

/-- The number that hexadecimal digits write. -/
def hexValue (digits : Text) : Nat :=
  digits.foldl (fun n c => n * 16 + (Escape.digit? 16 c).getD 0) 0

/-- Reads a code point of `width` hexadecimal digits, or of any number of them in braces, and
tells how many characters write it. -/
def hexEscape (width : Nat) (rest : Text) : Option (Char × Nat) :=
  match rest with
  | '{' :: rest =>
      let digits := rest.takeWhile isHexDigit
      if digits.isEmpty || (rest.drop digits.length).head? ≠ some '}' then none
      else (Escape.ofCode? (hexValue digits)).map (·, digits.length + 2)
  | _ =>
      let digits := rest.take width
      if digits.length = width && digits.all isHexDigit then
        (Escape.ofCode? (hexValue digits)).map (·, width)
      else none

/-- The conditions that are written with a name in braces. -/
def namedLook? (name : Text) : Option Look :=
  match String.ofList name with
  | "start" => some .wordStart
  | "end" => some .wordEnd
  | "start-half" => some .wordStartHalf
  | "end-half" => some .wordEndHalf
  | _ => none

/-- True for the characters in the names of conditions. -/
def isLookName (c : Char) : Bool := c.isAlpha || c = '-'

/-- Reads a word boundary, which a name in braces may qualify; braces around anything else are
a repetition. -/
def boundary (rest : Text) : Option (Look × Nat) :=
  match rest with
  | '{' :: c :: more =>
      if isLookName c then
        let name := (c :: more).takeWhile isLookName
        if ((c :: more).drop name.length).head? = some '}' then
          (namedLook? name).map (·, name.length + 2)
        else none
      else some (.wordBoundary, 0)
  | ['{'] => none
  | _ => some (.wordBoundary, 0)

/-- What a backslash means before the character `c` and `rest`, and how many characters of
`rest` belong to it. -/
def escaped (c : Char) (rest : Text) : Option (Escaped × Nat) :=
  if isMeta c then some (.char c, 0)
  else
    match c with
    | 'x' => (hexEscape 2 rest).map fun (c, used) => (.char c, used)
    | 'u' => (hexEscape 4 rest).map fun (c, used) => (.char c, used)
    | 'U' => (hexEscape 8 rest).map fun (c, used) => (.char c, used)
    | 'd' => some (.set .digit, 0)
    | 's' => some (.set .space, 0)
    | 'w' => some (.set .word, 0)
    | 'D' => some (.set (.compl .digit), 0)
    | 'S' => some (.set (.compl .space), 0)
    | 'W' => some (.set (.compl .word), 0)
    | 'A' => some (.look .textStart, 0)
    | 'z' => some (.look .textEnd, 0)
    | 'b' => (boundary rest).map fun (l, used) => (.look l, used)
    | 'B' => some (.look .notWordBoundary, 0)
    | '<' => some (.look .wordStart, 0)
    | '>' => some (.look .wordEnd, 0)
    | _ =>
        if mayBeEscaped c then some (.char c, 0)
        else (Escape.letter? c).map fun c => (.char c, 0)

/-! ### Brackets -/

/-- How two sets in brackets are combined. -/
inductive SetOp where
  | inter
  | diff
  | symm
  deriving DecidableEq, Repr

/-- Combines two sets. -/
def SetOp.apply : SetOp → CharSet → CharSet → CharSet
  | inter => .inter
  | diff => .diff
  | symm => .symm

/-- What waits while brackets are read. -/
inductive Waiting where
  /-- An opened bracket, and the set read before it. -/
  | bracket (negated : Bool) (before : CharSet)
  /-- The left side of a combination. -/
  | operand (op : SetOp) (left : CharSet)
  deriving DecidableEq, Repr

/-- Ends a combination whose right side is `right`. -/
def endOperand (fold : Bool) (right : CharSet) : List Waiting → CharSet × List Waiting
  | .operand op left :: stack => (op.apply (left.foldIf fold) (right.foldIf fold), stack)
  | stack => (right, stack)

/-- Reads the name of a class after an opening bracket. -/
def className (fold : Bool) (rest : Text) : Option (CharSet × Nat) :=
  match rest with
  | ':' :: more =>
      let (negated, more, skipped) :=
        match more with
        | '^' :: more => (true, more, 2)
        | _ => (false, more, 1)
      let name := more.takeWhile (· ≠ ':')
      if (more.drop name.length).take 2 = [':', ']'] then
        (CharSet.named? name).map fun s =>
          ((s.foldIf fold).complIf negated, skipped + name.length + 2)
      else none
  | _ => none

/-- Reads what has no other meaning at the front of brackets: the sign of negation, and after
it hyphens or a closing bracket. -/
def bracketFront (rest : Text) : Bool × CharSet × Nat :=
  let (negated, rest, skipped) :=
    match rest with
    | '^' :: rest => (true, rest, 1)
    | _ => (false, rest, 0)
  let hyphens := (rest.takeWhile (· = '-')).length
  if hyphens > 0 then (negated, .single '-', skipped + hyphens)
  else if rest.head? = some ']' then (negated, .single ']', skipped + 1)
  else (negated, .empty, skipped)

/-- Reads a character or an escape inside brackets. -/
def bracketItem (c : Char) (rest : Text) : Option (Escaped × Nat) :=
  if c = '\\' then
    match rest with
    | [] => none
    | d :: more => (escaped d more).map fun (item, used) => (item, used + 1)
  else some (.char c, 0)

/-- Reads an item inside brackets, or a range of characters. -/
def bracketRange (c : Char) (rest : Text) : Option (CharSet × Nat) :=
  match bracketItem c rest with
  | none => none
  | some (first, used) =>
      match rest.drop used with
      | '-' :: d :: more =>
          if d = ']' || d = '-' then alone first used
          else
            match first, bracketItem d more with
            | .char low, some (.char high, used') =>
                if low ≤ high then some (.range low high, used + used' + 2) else none
            | _, _ => none
      | _ => alone first used
where
  /-- An item that is no end of a range. -/
  alone : Escaped → Nat → Option (CharSet × Nat)
    | .char c, used => some (.single c, used)
    | .set s, used => some (s, used)
    | .look _, _ => none

/-- Reads brackets up to the one that closes the outermost: the set, and how many characters
were read. The first argument counts characters already read, `stack` holds what waits, and
`sofar` is the set read in the innermost brackets. -/
def brackets (flags : Flags) : Nat → List Waiting → CharSet → Text → Option (CharSet × Nat)
  | _, _, _, [] => none
  | n + 1, stack, sofar, _ :: rest => (brackets flags n stack sofar rest).map (·.map id (· + 1))
  | 0, stack, sofar, c :: rest =>
      let continueWith (used : Nat) (stack : List Waiting) (sofar : CharSet) :=
        (brackets flags used stack sofar rest).map (·.map id (· + 1))
      let combine (op : SetOp) :=
        let (left, stack) := endOperand flags.ignoreCase sofar stack
        continueWith 1 (.operand op left :: stack) .empty
      if flags.verbose && Text.isSpace c then continueWith 0 stack sofar
      else if c = '[' then
        match className flags.ignoreCase rest with
        | some (s, used) => continueWith used stack (.union sofar s)
        | none =>
            let (negated, first, used) := bracketFront rest
            continueWith used (.bracket negated sofar :: stack) first
      else if c = ']' then
        let (inner, stack) := endOperand flags.ignoreCase sofar stack
        match stack with
        | .bracket negated before :: stack =>
            let s := (inner.foldIf flags.ignoreCase).complIf negated
            if stack.isEmpty then some (s, 1) else continueWith 0 stack (.union before s)
        | _ => none
      else if c = '&' && rest.head? = some '&' then combine .inter
      else if c = '-' && rest.head? = some '-' then combine .diff
      else if c = '~' && rest.head? = some '~' then combine .symm
      else
        match bracketRange c rest with
        | some (s, used) => continueWith used stack (.union sofar s)
        | none => none

/-- Reads brackets after the one that opens them. -/
def bracket (flags : Flags) (rest : Text) : Option (CharSet × Nat) :=
  let (negated, first, used) := bracketFront rest
  brackets flags used [.bracket negated .empty] first rest

/-! ### Repetitions -/

/-- Reads a number between blanks, and tells how many characters write it. -/
def count (rest : Text) : Option (Nat × Nat) :=
  let before := rest.takeWhile Text.isSpace
  let rest := rest.drop before.length
  let digits := rest.takeWhile Char.isDigit
  let after := (rest.drop digits.length).takeWhile Text.isSpace
  let value := Text.readDecimal digits
  if digits.isEmpty || value ≥ Nat.pow 2 32 then none
  else some (value, before.length + digits.length + after.length)

/-- Reads the bounds of a repetition after its opening brace. -/
def bounds (rest : Text) : Option (Nat × Option Nat × Nat) :=
  match count rest with
  | none => none
  | some (least, used) =>
      match rest.drop used with
      | '}' :: _ => some (least, some least, used + 1)
      | ',' :: '}' :: _ => some (least, none, used + 2)
      | ',' :: more =>
          match count more with
          | some (most, used') =>
              if (more.drop used').head? = some '}' && least ≤ most then
                some (least, some most, used + used' + 2)
              else none
          | none => none
      | _ => none

/-- A repetition, and how many of the characters of `rest` after `used` belong to it: a question
mark makes it prefer to be short. -/
def repetition (flags : Flags) (least : Nat) (most : Option Nat) (used : Nat) (rest : Text) :
    Lexeme × Nat :=
  if (rest.drop used).head? = some '?' then (.loop least most flags.swapGreed, used + 1)
  else (.loop least most (!flags.swapGreed), used)

/-! ### Groups -/

/-- Changes the flag with a letter. -/
def setFlag? (flags : Flags) (value : Bool) : Char → Option Flags
  | 'i' => some { flags with ignoreCase := value }
  | 'm' => some { flags with multiLine := value }
  | 's' => some { flags with dotAll := value }
  | 'U' => some { flags with swapGreed := value }
  | 'x' => some { flags with verbose := value }
  | 'u' | 'R' => some flags
  | _ => none

/-- Changes the flags that letters name; those after a hyphen are taken away. No letter and no
hyphen may occur twice, and a hyphen may not be the last. -/
def changeFlags (flags : Flags) (value : Bool) (seen : Text) : Text → Option Flags
  | [] => some flags
  | c :: rest =>
      if seen.contains c then none
      else if c = '-' then
        if rest.isEmpty then none else changeFlags flags false (c :: seen) rest
      else
        match setFlag? flags value c with
        | some flags => changeFlags flags value (c :: seen) rest
        | none => none

/-- True for the characters of the name of a group. -/
def isGroupName (first : Bool) (c : Char) : Bool :=
  c = '_' || (Text.isWord c && !(first && Text.isDigit c))
    || (!first && (c = '.' || c = '[' || c = ']'))

/-- Reads the name of a group up to the sign that ends it. -/
def groupName (rest : Text) : Option (Text × Nat) :=
  let name := rest.takeWhile (· ≠ '>')
  if (rest.drop name.length).isEmpty then none
  else
    match name with
    | [] => none
    | c :: more =>
        if isGroupName true c && more.all (isGroupName false) then some (name, name.length + 1)
        else none

/-- Reads what follows an opening parenthesis. -/
def openParen (flags : Flags) (rest : Text) : Option (Lexeme × Nat) :=
  match rest with
  | '?' :: 'P' :: '<' :: more =>
      (groupName more).map fun (name, used) => (.openGroup (some name), used + 3)
  | '?' :: '<' :: c :: more =>
      if c = '=' || c = '!' then none
      else (groupName (c :: more)).map fun (name, used) => (.openGroup (some name), used + 2)
  | '?' :: more =>
      let letters := more.takeWhile fun c => c ≠ ':' && c ≠ ')'
      match more.drop letters.length, changeFlags flags true [] letters with
      | ':' :: _, some flags => some (.openPlain flags, letters.length + 2)
      | ')' :: _, some flags =>
          if letters.isEmpty then none else some (.setFlags flags, letters.length + 2)
      | _, _ => none
  | _ => some (.openGroup none, 0)

/-! ### Patterns -/

/-- A character that stands for itself, or for all its forms. -/
def literal (flags : Flags) (c : Char) : Lexeme :=
  .set ((CharSet.single c).foldIf flags.ignoreCase)

/-- Reads the lexeme that begins with `c`, and tells how many characters of `rest` belong to
it. -/
def read (flags : Flags) (c : Char) (rest : Text) : Option (Lexeme × Nat) :=
  match c with
  | '(' => openParen flags rest
  | ')' => some (.close, 0)
  | '|' => some (.bar, 0)
  | '[' => (bracket flags rest).map fun (s, used) => (.set s, used)
  | '?' => some (repetition flags 0 (some 1) 0 rest)
  | '*' => some (repetition flags 0 none 0 rest)
  | '+' => some (repetition flags 1 none 0 rest)
  | '{' => (bounds rest).map fun (least, most, used) => repetition flags least most used rest
  | '.' => some (.set (if flags.dotAll then .any else .compl (.single '\n')), 0)
  | '^' => some (.look (if flags.multiLine then .lineStart else .textStart), 0)
  | '$' => some (.look (if flags.multiLine then .lineEnd else .textEnd), 0)
  | '\\' =>
      match rest with
      | [] => none
      | d :: more =>
          (escaped d more).map fun
            | (.char c, used) => (literal flags c, used + 1)
            | (.set s, used) => (.set s, used + 1)
            | (.look l, used) => (.look l, used + 1)
  | c => some (literal flags c, 0)

/-- The flags after a lexeme, and those to return to at the ends of the open groups. -/
def flagsAfter (flags : Flags) (outer : List Flags) : Lexeme → Flags × List Flags
  | .openGroup _ => (flags, flags :: outer)
  | .openPlain inner => (inner, flags :: outer)
  | .setFlags new => (new, outer)
  | .close =>
      match outer with
      | flags :: outer => (flags, outer)
      | [] => (flags, [])
  | _ => (flags, outer)

/-- Reads the lexemes of a pattern. The first argument counts characters already read. -/
def readAll : Nat → Flags → List Flags → Text → Option (List Lexeme)
  | _, _, _, [] => some []
  | n + 1, flags, outer, _ :: rest => readAll n flags outer rest
  | 0, flags, outer, c :: rest =>
      if flags.verbose && Text.isSpace c then readAll 0 flags outer rest
      else if flags.verbose && c = '#' then
        readAll (rest.takeWhile (· ≠ '\n')).length flags outer rest
      else
        match read flags c rest with
        | none => none
        | some (lexeme, used) =>
            let (flags, outer) := flagsAfter flags outer lexeme
            (readAll used flags outer rest).map (lexeme :: ·)

/-- The lexemes of a pattern; none if a part of it is malformed. -/
def ofText? (flags : Flags) (pattern : Text) : Option (List Lexeme) := readAll 0 flags [] pattern

end Lexeme

end StreamEditor.Regex
