/-!
Texts, byte strings and the passage between them.

* `Text`: a sequence of Unicode characters; `Bytes`: a sequence of bytes.
* `expand`: a left-to-right reading in which each element, together with some of those that
  follow it, stands for a piece of the result. Escape sequences and UTF-8 are both read this
  way, and `expand_eq_drop` says that a pending skip is the same as dropping.
* `Text.utf8`, `Text.decode`: the UTF-8 form of a text, and the text of any bytes whatever, in
  which each maximal malformed piece becomes one replacement character.
* `Text.decimal`, `Text.readDecimal`: the decimal form of a number and its reading.
-/

namespace StreamEditor

/-- A text is a sequence of Unicode characters. -/
abbrev Text := List Char

/-- The contents of files and of streams are sequences of bytes. -/
abbrev Bytes := List UInt8

/-! ### Reading from left to right -/

/-- Reads a list from left to right. `step a rest` gives what the element `a`, followed by
`rest`, stands for, and how many elements at the front of `rest` belong to it. The first
argument counts elements that belong to an element already read. -/
def expand {α β : Type} (step : α → List α → List β × Nat) : Nat → List α → List β
  | _, [] => []
  | n + 1, _ :: rest => expand step n rest
  | 0, a :: rest =>
      let piece := step a rest
      piece.1 ++ expand step piece.2 rest

/-- Skipping while reading is dropping before reading. -/
theorem expand_eq_drop {α β : Type} (step : α → List α → List β × Nat) (n : Nat)
    (l : List α) : expand step n l = expand step 0 (l.drop n) := by
  induction l generalizing n with
  | nil => cases n <;> rfl
  | cons a rest ih =>
    cases n with
    | zero => rfl
    | succ n => simpa [expand] using ih n

/-- A list whose elements all stand for themselves alone reads as itself. -/
theorem expand_of_self {α : Type} {step : α → List α → List α × Nat} {l : List α}
    (h : ∀ a ∈ l, ∀ rest, step a rest = ([a], 0)) : expand step 0 l = l := by
  induction l with
  | nil => rfl
  | cons a rest ih =>
    rw [expand, h a (by simp) rest]
    simpa using ih fun b hb => h b (by simp [hb])

/-! ### UTF-8 -/

/-- The character that stands for malformed bytes. -/
def replacementChar : Char := '\uFFFD'

/-- True for a byte that continues a character begun earlier. -/
def isContinuation (b : UInt8) : Bool := 0x80 ≤ b && b ≤ 0xBF

/-- True if `second` may follow the first byte `first` of a character of three or four bytes:
this leaves out overlong forms, surrogates and what lies beyond the last code point. -/
def isSecondOf (first second : UInt8) : Bool :=
  if first = 0xE0 then 0xA0 ≤ second && second ≤ 0xBF
  else if first = 0xED then 0x80 ≤ second && second ≤ 0x9F
  else if first = 0xF0 then 0x90 ≤ second && second ≤ 0xBF
  else if first = 0xF4 then 0x80 ≤ second && second ≤ 0x8F
  else isContinuation second

/-- The six bits that a continuation byte carries. -/
def payload (b : UInt8) : Nat := b.toNat % 64

/-- Reads the character that begins with byte `b`, and the number of bytes of `rest` it takes;
`none` if there is none, with the number of bytes of `rest` in the malformed piece. -/
def decodeStep (b : UInt8) (rest : Bytes) : Option Char × Nat :=
  if b < 0x80 then (some (Char.ofNat b.toNat), 0)
  else if 0xC2 ≤ b && b ≤ 0xDF then
    match rest with
    | b₁ :: _ =>
        if isContinuation b₁ then (some (Char.ofNat (b.toNat % 32 * 64 + payload b₁)), 1)
        else (none, 0)
    | [] => (none, 0)
  else if 0xE0 ≤ b && b ≤ 0xEF then
    match rest with
    | b₁ :: b₂ :: _ =>
        if !isSecondOf b b₁ then (none, 0)
        else if !isContinuation b₂ then (none, 1)
        else (some (Char.ofNat ((b.toNat % 16 * 64 + payload b₁) * 64 + payload b₂)), 2)
    | [b₁] => (none, if isSecondOf b b₁ then 1 else 0)
    | [] => (none, 0)
  else if 0xF0 ≤ b && b ≤ 0xF4 then
    match rest with
    | b₁ :: b₂ :: b₃ :: _ =>
        if !isSecondOf b b₁ then (none, 0)
        else if !isContinuation b₂ then (none, 1)
        else if !isContinuation b₃ then (none, 2)
        else
          let high := (b.toNat % 8 * 64 + payload b₁) * 64 + payload b₂
          (some (Char.ofNat (high * 64 + payload b₃)), 3)
    | [b₁, b₂] => (none, if !isSecondOf b b₁ then 0 else if isContinuation b₂ then 2 else 1)
    | [b₁] => (none, if isSecondOf b b₁ then 1 else 0)
    | [] => (none, 0)
  else (none, 0)

namespace Text

/-- The UTF-8 form of a text. -/
def utf8 (t : Text) : Bytes := t.flatMap String.utf8EncodeChar

/-- The length in bytes of the UTF-8 form. -/
def utf8Size (t : Text) : Nat := t.foldl (fun n c => n + c.utf8Size) 0

/-- The text of any bytes: each maximal malformed piece reads as one replacement character. -/
def decode : Bytes → Text :=
  expand (fun b rest =>
    let (found, used) := decodeStep b rest
    ([found.getD replacementChar], used)) 0

/-- The text of well-formed bytes. -/
def decode? (bytes : Bytes) : Option Text :=
  let pieces := expand (fun b rest =>
    let (found, used) := decodeStep b rest
    ([found], used)) 0 bytes
  pieces.foldr (fun c t => c.bind fun c => t.map (c :: ·)) (some [])

/-- The characters of a string. -/
def ofString (s : String) : Text := s.toList

/-! ### Numbers -/

/-- The decimal form of a number. -/
def decimal (n : Nat) : Text := Nat.toDigits 10 n

/-- The number that a sequence of decimal digits denotes. -/
def readDecimal (digits : Text) : Nat :=
  digits.foldl (fun n c => n * 10 + (c.toNat - '0'.toNat)) 0

/-! ### Pieces -/

/-- The pieces of a text between the occurrences of `separator`; never an empty list. -/
def pieces (separator : Char) : Text → List Text
  | [] => [[]]
  | c :: rest =>
      if c = separator then [] :: pieces separator rest
      else
        match pieces separator rest with
        | first :: others => (c :: first) :: others
        | [] => [[c]]

/-- The part before the first newline, and the part after it if there is one. -/
def splitLine (t : Text) : Text × Option Text :=
  match t.dropWhile (· ≠ '\n') with
  | [] => (t, none)
  | _ :: rest => (t.takeWhile (· ≠ '\n'), some rest)

/-- Joins texts with `separator` between them. -/
def joinWith (separator : Char) : List Text → Text
  | [] => []
  | [t] => t
  | t :: rest => t ++ separator :: joinWith separator rest

end Text

end StreamEditor
