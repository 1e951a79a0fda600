import StreamEditor.Regex.Lexeme
import StreamEditor.Regex.Referring

/-!
The notation of expressions that refer back.

It differs from that of plain expressions in a few points: a digit after a backslash refers to a
group, a repetition may be followed by `+` to hold on to its match, braces that hold no bounds
stand for themselves, and only expressions that can match something may be repeated.

* `Referring.Building`: the groups that are open while a pattern is read.
* `Referring.ofText?`: the expression of a pattern.
-/

namespace StreamEditor.Regex.Referring

/-- A part of the notation. -/
inductive Sign where
  | atom (e : Referring)
  | openGroup (name : Option Text)
  | openPlain (flags : Flags)
  | setFlags (flags : Flags)
  | close
  | bar
  | loop (least : Nat) (most : Option Nat) (greedy : Bool) (holds : Bool)
  deriving DecidableEq, Repr

/-- The bounds of a repetition after its opening brace; a missing least count is zero. -/
def bounds (rest : Text) : Option (Nat × Option Nat × Nat) :=
  let least := rest.takeWhile Char.isDigit
  let rest := rest.drop least.length
  match rest with
  | '}' :: _ =>
      if least.isEmpty then none
      else some (Text.readDecimal least, some (Text.readDecimal least), least.length + 1)
  | ',' :: rest =>
      let most := rest.takeWhile Char.isDigit
      if (rest.drop most.length).head? = some '}' then
        let limit := if most.isEmpty then none else some (Text.readDecimal most)
        some (Text.readDecimal least, limit, least.length + most.length + 2)
      else none
  | _ => none

/-- A repetition, and how many characters of `rest` after `used` belong to it. -/
def repetition (flags : Flags) (least : Nat) (most : Option Nat) (used : Nat) (rest : Text) :
    Sign × Nat :=
  let rest := rest.drop used
  let short := rest.head? = some '?'
  let rest := if short then rest.drop 1 else rest
  let holds := rest.head? = some '+'
  (.loop least most (short = flags.swapGreed) holds,
    used + (if short then 1 else 0) + (if holds then 1 else 0))

/-- What a backslash means before the character `c` and `rest`. References beyond the half of
the pattern's `size` are refused. -/
def escaped (flags : Flags) (size : Nat) (c : Char) (rest : Text) : Option (Sign × Nat) :=
  let character (c : Char) : Sign := .atom (.char c flags.ignoreCase)
  let set (s : CharSet) : Sign := .atom (.set (s.foldIf flags.ignoreCase))
  let hex (width : Nat) : Option (Sign × Nat) :=
    (Lexeme.hexEscape width rest).map fun (c, used) => (character c, used)
  let hexDigits := CharSet.ofRanges [('0', '9'), ('A', 'F'), ('a', 'f')]
  if c.isDigit then
    let digits := (c :: rest).takeWhile Char.isDigit
    let number := Text.readDecimal digits
    if number < size / 2 then some (.atom (.reference number flags.ignoreCase), digits.length - 1)
    else none
  else
    match c with
    | 'A' => some (.atom (.look .textStart), 0)
    | 'z' => some (.atom (.look .textEnd), 0)
    | 'b' => if rest.head? = some '{' then none else some (.atom (.look .wordBoundary), 0)
    | 'B' => some (.atom (.look .notWordBoundary), 0)
    | '<' => some (.atom (.look .wordStart), 0)
    | '>' => some (.atom (.look .wordEnd), 0)
    | 'd' => some (set .digit, 0)
    | 's' => some (set .space, 0)
    | 'w' => some (set .word, 0)
    | 'D' => some (set (.compl .digit), 0)
    | 'S' => some (set (.compl .space), 0)
    | 'W' => some (set (.compl .word), 0)
    | 'h' => some (set hexDigits, 0)
    | 'H' => some (set (.compl hexDigits), 0)
    | 'x' => hex 2
    | 'u' => hex 4
    | 'U' => hex 8
    | 'e' => some (character '\x1B', 0)
    | 'O' => some (.atom (.set .any), 0)
    | _ =>
        match Escape.letter? c with
        | some c => some (character c, 0)
        | none => if c.isAlpha then none else some (character c, 0)

/-- Reads the sign that begins with `c`, and tells how many characters of `rest` belong to it. -/
def read (flags : Flags) (size : Nat) (c : Char) (rest : Text) : Option (Sign × Nat) :=
  let character (c : Char) : Sign := .atom (.char c flags.ignoreCase)
  match c with
  | '(' =>
      match Lexeme.openParen flags rest with
      | some (.openGroup name, used) => some (.openGroup name, used)
      | some (.openPlain flags, used) => some (.openPlain flags, used)
      | some (.setFlags flags, used) => some (.setFlags flags, used)
      | _ => none
  | ')' => some (.close, 0)
  | '|' => some (.bar, 0)
  | '[' => (Lexeme.bracket flags rest).map fun (s, used) => (.atom (.set s), used)
  | '?' => some (repetition flags 0 (some 1) 0 rest)
  | '*' => some (repetition flags 0 none 0 rest)
  | '+' => some (repetition flags 1 none 0 rest)
  | '{' =>
      match bounds rest with
      | some (least, most, used) => some (repetition flags least most used rest)
      | none => some (character '{', 0)
  | '.' => some (.atom (.set (if flags.dotAll then .any else .compl (.single '\n'))), 0)
  | '^' => some (.atom (.look (if flags.multiLine then .lineStart else .textStart)), 0)
  | '$' => some (.atom (.look (if flags.multiLine then .lineEnd else .textEnd)), 0)
  | '\\' =>
      match rest with
      | [] => none
      | d :: more => (escaped flags size d more).map fun (sign, used) => (sign, used + 1)
  | c => some (character c, 0)

/-- A group that is being read. -/
structure Level where
  number : Option Nat
  /-- The alternatives already complete, the last first. -/
  branches : List Referring
  /-- The parts of the current alternative, the last first. -/
  pieces : List Referring
  /-- Whether the part just read may be repeated; none after a repetition and where nothing is
  read yet, so that braces stand for themselves. -/
  last : Option Bool
  deriving DecidableEq, Repr

namespace Level

/-- A group in which nothing is read yet. -/
def opened (number : Option Nat) : Level := ⟨number, [], [], none⟩

/-- True for the expressions that may be repeated. -/
def mayRepeat : Referring → Bool
  | .empty | .look _ => false
  | _ => true

/-- Adds a part; an empty one leaves no trace, but cannot be repeated. -/
def add (l : Level) (e : Referring) : Level :=
  let pieces := if e = .empty then l.pieces else e :: l.pieces
  { l with pieces, last := some (mayRepeat e) }

/-- Ends the current alternative. -/
def endBranch (l : Level) : Level :=
  { l with branches := catAll l.pieces.reverse :: l.branches, pieces := [], last := none }

/-- The expression of all that is read. -/
def content (l : Level) : Referring := altAll l.endBranch.branches.reverse

/-- The expression of the group. -/
def finish (l : Level) : Referring :=
  match l.number, l.content with
  | some n, e => .group n e
  | none, .cat a b => .plain (.cat a b)
  | none, e => e

end Level

/-- The groups that are open while a pattern is read. -/
structure Building where
  current : Level
  outer : List Level
  groups : Nat
  deriving DecidableEq, Repr

namespace Building

/-- Nothing is read yet. -/
def start : Building := ⟨.opened none, [], 0⟩

/-- Takes in one sign. Fails at a repetition of what may not be repeated. -/
def push (b : Building) : Sign → Option Building
  | .atom e => some { b with current := b.current.add e }
  | .openGroup _ =>
      some ⟨.opened (some (b.groups + 1)), b.current :: b.outer, b.groups + 1⟩
  | .openPlain _ => some { b with current := .opened none, outer := b.current :: b.outer }
  | .setFlags _ => some { b with current := b.current.add .empty }
  | .close =>
      match b.outer with
      | [] => none
      | level :: outer =>
          some { b with current := level.add b.current.finish, outer }
  | .bar => some { b with current := b.current.endBranch }
  | .loop least most greedy holds =>
      match b.current.last, b.current.pieces with
      | some true, e :: pieces =>
          let repeated := Referring.loop e least most greedy
          let repeated := if holds then .atomic repeated else repeated
          some { b with current := { b.current with pieces := repeated :: pieces, last := none } }
      | _, _ => none

end Building

/-- True if braces after what is read hold the bounds of a repetition. -/
def Building.awaitsBounds (b : Building) : Bool := b.current.last.isSome

/-- The flags after a sign, and those to return to at the ends of the open groups. -/
def flagsAfter (flags : Flags) (outer : List Flags) : Sign → Flags × List Flags
  | .openGroup _ => (flags, flags :: outer)
  | .openPlain inner => (inner, flags :: outer)
  | .setFlags new => (new, outer)
  | .close =>
      match outer with
      | flags :: outer => (flags, outer)
      | [] => (flags, [])
  | _ => (flags, outer)

/-- Reads a pattern. The first argument counts characters already read. -/
def readAll (size : Nat) : Nat → Flags → List Flags → Building → Text → Option Building
  | _, _, _, b, [] => some b
  | n + 1, flags, outer, b, _ :: rest => readAll size n flags outer b rest
  | 0, flags, outer, b, c :: rest =>
      let sign :=
        if c = '{' && !b.awaitsBounds then some (.atom (.char '{' flags.ignoreCase), 0)
        else read flags size c rest
      match sign with
      | none => none
      | some (sign, used) =>
          let (flags, outer) := flagsAfter flags outer sign
          match b.push sign with
          | some b => readAll size used flags outer b rest
          | none => none

/-- How deeply groups may be nested. -/
def maxDepth : Nat := 64

/-- How deeply groups are nested. -/
def depth : Referring → Nat
  | empty | set _ | char _ _ | look _ | reference _ _ => 0
  | group _ e | plain e => e.depth + 1
  | loop e _ _ _ | atomic e => e.depth
  | cat a b | alt a b => max a.depth b.depth

/-- The expression of a pattern; `size` is the number of its bytes. All references must be to
groups that the expression has. -/
def ofText? (flags : Flags) (size : Nat) (pattern : Text) : Option Referring :=
  match readAll size 0 flags [] .start pattern with
  | some b =>
      let e := b.current.content
      if b.outer.isEmpty && e.depth ≤ maxDepth
          && e.referred.all (fun n => 0 < n && n ≤ e.groupCount) then some e
      else none
  | none => none

end StreamEditor.Regex.Referring
