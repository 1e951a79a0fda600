import StreamEditor.Proofs.Program.Spelled
import StreamEditor.Proofs.Scanner.Behind

/-!
Commands as scripts can say them.

* `Selection.Writable`, `Argument.Writes`: the addresses, and the actions of each letter.
* `Command.Writable`: the commands that a script can say; where a block ends makes no difference.
* `Command.Printable`: the commands of which the printed form tells all.
* `OutputFile.Writable`: the files that a script can name.
-/

open StreamEditor.Parser (numberLimit exitCodeLimit branchCondition plainAction)
open StreamEditor.Scanner (Word isLabelChar isNameChar)

namespace StreamEditor

variable {library : Regex.Library}

/-! ### Addresses -/

/-- An expression that is written between delimiters. -/
structure Regex.Writable (re : Regex) : Prop where
  ne_nil : re.source ≠ []
  spelled : Spelled re.source

/-- Numbers are limited, and no line has the number zero. -/
def Address.Writable : Address → Prop
  | .line n => 0 < n ∧ n < numberLimit
  | .pattern regex => ∀ re ∈ regex, re.Writable
  | .step first every => first < numberLimit ∧ every < numberLimit
  | .last | .zero => True

def RangeEnd.Writable : RangeEnd → Prop
  | .address a => a.Writable
  | .following n | .multiple n => n < numberLimit

def Selection.Writable : Selection → Prop
  | .all => True
  | .single a => a.Writable
  | .range start stop _ => start.Writable ∧ stop.Writable

/-! ### Actions -/

/-- A substitution whose template was read from a script. -/
structure Substitution.Writable (s : Substitution) : Prop where
  regex : ∀ re ∈ s.regex, re.Writable
  template : ∃ replacement, s.template = .compile replacement
  occurrence_pos : 0 < s.occurrence
  occurrence_lt : s.occurrence < numberLimit

/-- What a command does with its text. -/
def Action.ofText (letter : Char) (text : Text) : Action :=
  match letter with
  | 'a' => .append text
  | 'i' => .insert text
  | _ => .change text

/-- The mode in which an argument is scanned. -/
def Argument.mode : Argument → Scanner.Mode
  | nothing => .command
  | label => .label
  | number => .number
  | readName | writeName => .fileName
  | substitution => .substitution
  | text => .text
  | transliteration => .transliteration

/-- The actions that a command letter with an argument of this sort can have. No file is named in a
sandbox. -/
def Argument.Writes (o : Options) (letter : Char) : Argument → Action → Prop
  | nothing, a => a = plainAction letter
  | label, a => ∃ goal, a = .branch (branchCondition letter) goal none ∧
      ∀ name ∈ goal, Word isLabelChar name
  | number, a =>
      if letter = 'l' then ∃ width, a = .list width ∧ ∀ n ∈ width, n < numberLimit
      else ∃ code, a = .quit code (letter = 'q') ∧ code < exitCodeLimit
  | readName, a => o.sandbox = false ∧ ∃ name, Word isNameChar name ∧
      a = if letter = 'R' then .appendFileLine name else .appendFile name
  | writeName, a => o.sandbox = false ∧ ∃ target,
      a = if letter = 'W' then .writeFirstLine target else .write target
  | substitution, a => ∃ s, a = .substitute s ∧ s.Writable ∧ (s.write.isSome → o.sandbox = false)
  | text, a => ∃ text, a = .ofText letter text
  | transliteration, a => ∃ y, a = .transliterate y ∧ y.source.length = y.target.length

/-- The scanner reads the argument in its mode. -/
lemma Argument.afterCommand_eq {posix : Bool} {letter : Char} {kind : Argument} {addresses : ℕ}
    (h : ofLetter? posix letter = some (kind, addresses)) :
    Scanner.Mode.afterCommand letter = kind.mode := by
  unfold ofLetter? at h
  dsimp only at h
  split at h <;> cases h <;> rfl

lemma Argument.eq_of_substitution {posix : Bool} {letter : Char} {addresses : ℕ}
    (h : ofLetter? posix letter = some (substitution, addresses)) : letter = 's' := by
  unfold ofLetter? at h
  dsimp only at h
  split at h <;> cases h
  rfl

lemma Argument.eq_of_transliteration {posix : Bool} {letter : Char} {addresses : ℕ}
    (h : ofLetter? posix letter = some (transliteration, addresses)) : letter = 'y' := by
  unfold ofLetter? at h
  dsimp only at h
  split at h <;> cases h
  rfl

/-! ### Printed commands -/

/-- The expression of an address. -/
def Address.regex? : Address → Option Regex
  | .pattern regex => regex
  | _ => none

def RangeEnd.regex? : RangeEnd → Option Regex
  | .address a => a.regex?
  | _ => none

/-- The expressions of a selection. -/
def Selection.expressions : Selection → List Regex
  | .all => []
  | .single a => a.regex?.toList
  | .range start stop _ => start.regex?.toList ++ stop.regex?.toList

/-- The expression of a substitution. -/
def Action.regex? : Action → Option Regex
  | .substitute s => s.regex
  | _ => none

/-- The text of a command. -/
def Action.text? : Action → Option Text
  | .append text | .insert text | .change text => some text
  | _ => none

/-- The expression is the one that its source says without the flags `I` and `M`. -/
def Regex.Unflagged [Library] (extended : Bool) (re : Regex) : Prop :=
  compile? ⟨extended, false, false⟩ re.source = some re

/-- The printed form, which leaves out flags and writes slashes and texts as they are, says all that
the command does. -/
structure Command.Printable [Regex.Library] (extended : Bool) (c : Command) : Prop where
  regexes : ∀ re ∈ c.selection.expressions ++ c.action.regex?.toList,
    re.Unflagged extended ∧ '/' ∉ re.source
  text : ∀ t ∈ c.action.text?, '\n' ∉ t ∧ '\\' ∉ t
  sets : ∀ y, c.action = .transliterate y → ∀ x ∈ y.source ++ y.target, x.isAlphanum = true

/-- An expression that is searched for as plain text, and means no more. -/
def Regex.isPlain (extended : Bool) (re : Regex) : Bool :=
  let pattern := if extended then re.source else BasicNotation.toExtended re.source
  match re.engine with
  | .literal l => !needsTree pattern && !refersBack pattern && l = .ofText pattern
  | _ => false

/-- The source of plain text says all of it. -/
lemma Regex.unflagged_of_isPlain {extended : Bool} {re : Regex}
    (h : re.isPlain extended = true) : re.Unflagged extended := by
  obtain ⟨source, engine⟩ := re
  cases engine with
  | literal l =>
      obtain ⟨⟨hsigns, hrefers⟩, rfl⟩ : (_ ∧ _) ∧ _ := by simpa [Regex.isPlain] using h
      rw [Regex.Unflagged, compile?, Engine.ofText?]
      dsimp only
      rw [hsigns, hrefers]
      rfl
  | _ => cases h

/-- The characters of the sets of a transliteration. -/
def Action.sets : Action → Text
  | .transliterate y => y.source ++ y.target
  | _ => []

/-- The printed form of a command says all that it does if its expressions are plain text. -/
lemma Command.printable_of_isPlain {extended : Bool} {c : Command}
    (hregexes : ∀ re ∈ c.selection.expressions ++ c.action.regex?.toList,
      re.isPlain extended = true ∧ '/' ∉ re.source)
    (htext : ∀ t ∈ c.action.text?.toList, '\n' ∉ t ∧ '\\' ∉ t)
    (hsets : c.action.sets.all Char.isAlphanum = true) : c.Printable extended where
  regexes re hre := ⟨Regex.unflagged_of_isPlain (hregexes re hre).1, (hregexes re hre).2⟩
  text t ht := htext t (Option.mem_toList.2 ht)
  sets y hy := by
    rw [hy] at hsets
    exact List.all_eq_true.1 hsets

/-- The expressions of a selection that a script can say were written between delimiters. -/
lemma Selection.Writable.expressions {s : Selection} (h : s.Writable) :
    ∀ re ∈ s.expressions, re.Writable := by
  have haddress : ∀ {a : Address}, a.Writable → ∀ re ∈ a.regex?, re.Writable := by
    intro a ha re hre
    cases a with
    | pattern regex => exact ha re hre
    | _ => cases hre
  have hrangeEnd : ∀ {stop : RangeEnd}, stop.Writable → ∀ re ∈ stop.regex?, re.Writable := by
    intro stop hstop re hre
    cases stop with
    | address a => exact haddress hstop re hre
    | _ => cases hre
  cases s with
  | all => exact fun re hre => absurd hre List.not_mem_nil
  | single a => exact fun re hre => haddress h re (Option.mem_toList.1 hre)
  | range start stop slot =>
      intro re hre
      rcases List.mem_append.1 hre with hre | hre
      · exact haddress h.1 re (Option.mem_toList.1 hre)
      · exact hrangeEnd h.2 re (Option.mem_toList.1 hre)

/-! ### Commands -/

/-- What a script can say by a command, before its labels are resolved. -/
inductive Command.Writable (o : Options) (c : Command) : Prop
  | openBlock {stop : ℕ} (hletter : c.letter = '{') (haction : c.action = .block stop)
      (hselection : c.selection.Writable)
  | closeBlock (hletter : c.letter = '}') (haction : c.action = .blockEnd)
      (hselection : c.selection = .all) (hnegated : c.negated = false)
  | label {name : Text} (hletter : c.letter = ':') (haction : c.action = .label name)
      (hselection : c.selection = .all) (hnegated : c.negated = false)
      (hname : Word isLabelChar name)
  | command {kind : Argument} {addresses : ℕ}
      (hletter : Argument.ofLetter? o.posix c.letter = some (kind, addresses))
      (haction : kind.Writes o c.letter c.action) (hselection : c.selection.Writable)
      (hcount : c.selection.addressCount ≤ addresses)

lemma Command.Writable.selection {o : Options} {c : Command} (h : c.Writable o) :
    c.selection.Writable := by
  cases h with
  | openBlock _ _ hselection => exact hselection
  | closeBlock _ _ hselection | label _ _ hselection =>
      rw [hselection]
      trivial
  | command _ _ hselection => exact hselection

/-- A file that is written, but for the standard streams. -/
structure OutputFile.Writable (f : OutputFile) : Prop where
  word : Word isNameChar f.name
  ne_output : f.name ≠ Text.ofString "/dev/stdout"
  ne_errors : f.name ≠ Text.ofString "/dev/stderr"

/-- No argument opens a block. -/
lemma Argument.Writes.ne_block {o : Options} {letter : Char} {kind : Argument} {a : Action}
    (h : kind.Writes o letter a) (stop : ℕ) : a ≠ .block stop := by
  rintro rfl
  cases kind with
  | nothing =>
      change Action.block stop = plainAction letter at h
      unfold plainAction at h
      split at h <;> cases h
  | label =>
      obtain ⟨goal, h, -⟩ := h
      cases h
  | number =>
      rw [Argument.Writes] at h
      split at h <;> obtain ⟨_, h, -⟩ := h <;> cases h
  | readName =>
      obtain ⟨-, name, -, h⟩ := h
      split at h <;> cases h
  | writeName =>
      obtain ⟨-, target, h⟩ := h
      split at h <;> cases h
  | substitution =>
      obtain ⟨s, h, -⟩ := h
      cases h
  | text =>
      obtain ⟨text, h⟩ := h
      unfold Action.ofText at h
      split at h <;> cases h
  | transliteration =>
      obtain ⟨y, h, -⟩ := h
      cases h

/-- Where a block ends makes no difference. -/
lemma Command.writable_closed {o : Options} {stop : ℕ} {c : Command} :
    (Parser.closed stop c).Writable o ↔ c.Writable o := by
  rw [Parser.closed]
  split
  · rename_i t ht
    constructor
    · rintro (⟨hletter, -, hselection⟩ | ⟨-, haction⟩ | ⟨-, haction⟩ | ⟨-, haction⟩)
      · exact .openBlock hletter ht hselection
      · cases haction
      · cases haction
      · exact absurd rfl (haction.ne_block stop)
    · rintro (⟨hletter, -, hselection⟩ | ⟨-, haction⟩ | ⟨-, haction⟩ | ⟨-, haction⟩)
      · exact .openBlock hletter rfl hselection
      · rw [ht] at haction
        cases haction
      · rw [ht] at haction
        cases haction
      · exact absurd ht (haction.ne_block t)
  · exact Iff.rfl

end StreamEditor
