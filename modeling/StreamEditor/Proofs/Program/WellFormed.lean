import Mathlib.Tactic
import StreamEditor.Program
import StreamEditor.Storage

/-!
Programs that can be run without surprise.

* `Selection.slot?`, `Selection.ZeroPlaced`, `Action.target?`, `Substitution.Sound`: what a
  single command says about ranges, the address zero, output files and groups.
* `Opens`, `Closes`: the commands at which a block begins and ends.
* `Program.WellFormed`: blocks are nested, labels are defined once and branches lead to them,
  ranges and output files are numbered without gaps, the address zero stands only where it has
  a meaning, and substitutions refer only to groups that there are.
-/

namespace StreamEditor

/-- The number of the range, if the selection is one. -/
def Selection.slot? : Selection → Option Nat
  | .range _ _ slot => some slot
  | _ => none

/-- The address zero stands only at the beginning of a range that a pattern ends. -/
def Selection.ZeroPlaced : Selection → Prop
  | .all => True
  | .single a => a ≠ .zero
  | .range first stop _ =>
      stop ≠ .address .zero ∧ (first = .zero → ∃ regex, stop = .address (.pattern regex))

/-- Where a command writes records. -/
def Action.target? : Action → Option Target
  | .substitute s => s.write
  | .write target | .writeFirstLine target => some target
  | _ => none

/-- The template refers to groups of the pattern only, and matches are counted from one. -/
structure Substitution.Sound (s : Substitution) : Prop where
  occurrence_pos : 1 ≤ s.occurrence
  maxGroup_lt : ∀ regex, s.regex = some regex → s.template.maxGroup < regex.groupCount

/-- The command with this number opens a block that ends at `stop`. -/
def Opens (commands : List Command) (i stop : ℕ) : Prop :=
  ∃ c, commands[i]? = some c ∧ c.action = .block stop

/-- The command with this number closes a block. -/
def Closes (commands : List Command) (i : ℕ) : Prop :=
  ∃ c, commands[i]? = some c ∧ c.action = .blockEnd

/-- The command with this number defines a label. -/
def Defines (commands : List Command) (i : ℕ) (name : Text) : Prop :=
  ∃ c, commands[i]? = some c ∧ c.action = .label name

lemma Opens.lt_length {commands : List Command} {i stop : ℕ} (h : Opens commands i stop) :
    i < commands.length := by
  obtain ⟨c, hc, -⟩ := h
  exact (List.getElem?_eq_some_iff.1 hc).1

lemma Closes.lt_length {commands : List Command} {i : ℕ} (h : Closes commands i) :
    i < commands.length := by
  obtain ⟨c, hc, -⟩ := h
  exact (List.getElem?_eq_some_iff.1 hc).1

lemma Defines.lt_length {commands : List Command} {i : ℕ} {name : Text}
    (h : Defines commands i name) : i < commands.length := by
  obtain ⟨c, hc, -⟩ := h
  exact (List.getElem?_eq_some_iff.1 hc).1

namespace Program

/-- What holds of every program that is read from a script. -/
structure WellFormed (p : Program) : Prop where
  /-- A block ends later, at a command that closes it. -/
  opens : ∀ i stop, Opens p.commands i stop → i < stop ∧ Closes p.commands stop
  /-- What closes a block closes exactly one. -/
  closes : ∀ j, Closes p.commands j → ∃! i, Opens p.commands i j
  /-- Of two blocks one lies within the other, or they have nothing in common. -/
  nested : ∀ i j s t, Opens p.commands i s → Opens p.commands j t → i < j → s < j ∨ t < s
  /-- No label is entered twice. -/
  labels_nodup : (p.labels.map Prod.fst).Nodup
  /-- A label stands for the one command that defines it. -/
  labels : ∀ name i, p.labels.lookup name = some i ↔ Defines p.commands i name
  /-- A branch to a label leads to its definition; one without a label leads nowhere else. -/
  branches : ∀ c ∈ p.commands, ∀ condition label target,
    c.action = .branch condition label target →
      (label = none → target = none) ∧
        ∀ name, label = some name → ∃ i, p.labels.lookup name = some i ∧ target = some i
  /-- The ranges are numbered in the order of their commands. -/
  slots : p.commands.filterMap (·.selection.slot?) = List.range p.rangeCount
  /-- The files to which commands write are files of the program. -/
  targets : ∀ c ∈ p.commands, ∀ i, c.action.target? = some (.file i) → i < p.outputFiles.length
  /-- Every file of the program is written by some command. -/
  files : ∀ i < p.outputFiles.length, ∃ c ∈ p.commands, c.action.target? = some (.file i)
  /-- No file is named twice. -/
  files_nodup : (p.outputFiles.map (Path.key ·.name)).Nodup
  zero_placed : ∀ c ∈ p.commands, c.selection.ZeroPlaced
  substitutions : ∀ c ∈ p.commands, ∀ s, c.action = .substitute s → s.Sound

/-- A program that writes nowhere but to the output has no output files. -/
lemma WellFormed.outputFiles_eq_nil {p : Program} (h : p.WellFormed)
    (hnowhere : ∀ c ∈ p.commands, c.action.target? = none) : p.outputFiles = [] := by
  by_contra hne
  obtain ⟨c, hc, htarget⟩ := h.files 0 (List.length_pos_iff.2 hne)
  rw [hnowhere c hc] at htarget
  cases htarget

end Program

end StreamEditor
