import StreamEditor.Editor
import StreamEditor.Proofs.Input.Delivered

/-!
What the editor remembers of the records that were read and of substitutions.

* `Editor.Mark`: a record is read, a substitution succeeds, or it is tested whether one did.
* `Editor.Ledger`: what is remembered. `Editor.Ledger.enter`: what a mark makes of it.
* `Editor.ReplacedSince`, `Editor.ordinal`: what is to be remembered, told from all marks.
* `Editor.Ledger.Exact`: the one is the other. It stays so with every mark
  (`Editor.Ledger.Exact.enter`), as long as no record of a file comes after those of a later one.
-/

namespace StreamEditor.Editor

/-! ### Marks -/

/-- What has a part in what is remembered. -/
inductive Mark where
  /-- A record was read from the input. -/
  | consumed (d : Delivery)
  /-- A substitution replaced something. -/
  | replaced
  /-- It was tested whether a substitution did. -/
  | tested
  deriving DecidableEq, Repr

/-- The record that was read. -/
def Mark.delivery? : Mark → Option Delivery
  | consumed d => some d
  | replaced | tested => none

/-- The records that were read. -/
def consumed (marks : List Mark) : List Delivery := marks.filterMap Mark.delivery?

/-- A substitution replaced something, and after it no record was read and nothing tested. -/
def ReplacedSince (marks : List Mark) : Prop :=
  ∃ before since, marks = before ++ .replaced :: since ∧ .tested ∉ since ∧ ∀ d, .consumed d ∉ since

/-- The number of the last record among all, or among those of its file if files are streams of
their own. -/
def ordinal (separate : Bool) (ds : List Delivery) : ℕ :=
  ds.getLast?.elim 0 fun last =>
    (if separate then ds.filter (·.index = last.index) else ds).length

/-- No record of a file comes after those of a later one. -/
def Ascending (ds : List Delivery) : Prop := ds.Pairwise (·.index ≤ ·.index)

section Marks

variable {marks : List Mark} {m : Mark} {ds : List Delivery} {d : Delivery}

@[simp] lemma consumed_append (marks marks' : List Mark) :
    consumed (marks ++ marks') = consumed marks ++ consumed marks' := List.filterMap_append ..

lemma consumed_eq_nil (h : ∀ d, .consumed d ∉ marks) : consumed marks = [] := by
  refine List.filterMap_eq_nil_iff.2 fun m hm => ?_
  cases m with
  | consumed d => exact absurd hm (h d)
  | replaced | tested => rfl

lemma consumed_concat_of_none (h : m.delivery? = none) :
    consumed (marks ++ [m]) = consumed marks := by
  have hnone : consumed [m] = [] := List.filterMap_cons_none h
  rw [consumed_append, hnone, List.append_nil]

/-- Only the last mark matters. -/
lemma replacedSince_concat : ReplacedSince (marks ++ [m]) ↔ m = .replaced := by
  constructor
  · rintro ⟨before, since, heq, htested, hconsumed⟩
    rcases since.eq_nil_or_concat' with rfl | ⟨since, last, rfl⟩
    · exact (List.append_inj' heq rfl).2 |> List.singleton_inj.1
    · rw [← List.cons_append, ← List.append_assoc] at heq
      obtain rfl := List.singleton_inj.1 (List.append_inj' heq rfl).2
      cases m with
      | replaced => rfl
      | tested => simp at htested
      | consumed d => exact absurd (hconsumed d) (by simp)
  · rintro rfl
    exact ⟨marks, [], rfl, List.not_mem_nil, fun _ => List.not_mem_nil⟩

lemma not_replacedSince_nil : ¬ReplacedSince [] := by
  rintro ⟨before, since, heq, -⟩
  simp at heq

/-- The next record is numbered on, or begins a file. -/
lemma ordinal_concat (separate : Bool) (h : Ascending (ds ++ [d])) :
    ordinal separate (ds ++ [d]) =
      (if separate && d.index ≠ ds.getLast?.elim 0 (·.index) then 0
        else ordinal separate ds) + 1 := by
  rw [ordinal, List.getLast?_concat, Option.elim_some]
  cases separate with
  | false =>
      have hall : ordinal false ds = ds.length := by
        rcases ds.eq_nil_or_concat' with rfl | ⟨front, last, rfl⟩
        · rfl
        · rw [ordinal, List.getLast?_concat]
          rfl
      simp [hall]
  | true =>
      rcases ds.eq_nil_or_concat' with rfl | ⟨front, last, rfl⟩
      · simp [ordinal]
      · rw [ordinal, List.getLast?_concat, Option.elim_some, Option.elim_some, if_pos rfl,
          if_pos rfl, List.filter_append, List.length_append]
        by_cases hsame : d.index = last.index
        · simp [hsame]
        · have hbefore : ∀ d' ∈ front ++ [last], d'.index ≠ d.index := by
            obtain ⟨hfront, -, hnew⟩ := List.pairwise_append.1 h
            obtain ⟨-, -, hlast⟩ := List.pairwise_append.1 hfront
            have hlt : last.index < d.index :=
              lt_of_le_of_ne (hnew last (by simp) d (by simp)) (Ne.symm hsame)
            intro d' hd'
            obtain hd' | hd' := List.mem_append.1 hd'
            · exact ((hlast d' hd' last (by simp)).trans_lt hlt).ne
            · rw [List.mem_singleton.1 hd']
              exact hlt.ne
          have hnone : (front ++ [last]).filter (·.index = d.index) = [] :=
            List.filter_eq_nil_iff.2 fun d' hd' => by simpa using hbefore d' hd'
          rw [hnone]
          simp [hsame]

end Marks

/-! ### The ledger -/

/-- What is remembered of the marks. -/
structure Ledger where
  substituted : Bool
  recordsRead : ℕ
  lineNumber : ℕ
  fileIndex : ℕ
  terminated : Bool
  deriving DecidableEq, Repr

namespace Ledger

/-- What is remembered before the first mark. -/
def empty : Ledger := ⟨false, 0, 0, 0, true⟩

/-- What a mark makes of it. -/
def enter (separate : Bool) (l : Ledger) : Mark → Ledger
  | .consumed d =>
      { substituted := false
        recordsRead := l.recordsRead + 1
        lineNumber := (if separate && d.index ≠ l.fileIndex then 0 else l.lineNumber) + 1
        fileIndex := d.index
        terminated := d.record.terminated }
  | .replaced => { l with substituted := true }
  | .tested => { l with substituted := false }

/-- What marks make of it. -/
def after (separate : Bool) (l : Ledger) (marks : List Mark) : Ledger :=
  marks.foldl (enter separate) l

/-- What is remembered is what the marks tell. -/
structure Exact (separate : Bool) (marks : List Mark) (l : Ledger) : Prop where
  substituted : l.substituted = true ↔ ReplacedSince marks
  recordsRead : l.recordsRead = (consumed marks).length
  lineNumber : l.lineNumber = ordinal separate (consumed marks)
  fileIndex : l.fileIndex = (consumed marks).getLast?.elim 0 (·.index)
  terminated : l.terminated = (consumed marks).getLast?.elim true (·.record.terminated)

variable {separate : Bool} {marks : List Mark} {m : Mark} {l : Ledger}

/-- It stays so with every mark. -/
lemma Exact.enter (h : l.Exact separate marks) (hm : Ascending (consumed (marks ++ [m]))) :
    (l.enter separate m).Exact separate (marks ++ [m]) := by
  cases m with
  | replaced | tested =>
      constructor
      case substituted =>
        rw [replacedSince_concat]
        simp [Ledger.enter]
      all_goals rw [consumed_concat_of_none rfl]
      case recordsRead => exact h.recordsRead
      case lineNumber => exact h.lineNumber
      case fileIndex => exact h.fileIndex
      case terminated => exact h.terminated
  | consumed d =>
      have hone : consumed (marks ++ [.consumed d]) = consumed marks ++ [d] := consumed_append _ _
      rw [hone] at hm
      constructor
      case substituted =>
        rw [replacedSince_concat]
        simp [Ledger.enter]
      all_goals rw [hone]
      case recordsRead =>
        rw [List.length_append, ← h.recordsRead]
        rfl
      case lineNumber =>
        rw [ordinal_concat separate hm, ← h.fileIndex, ← h.lineNumber]
        rfl
      case fileIndex | terminated =>
        rw [List.getLast?_concat]
        rfl

lemma exact_empty (separate : Bool) : empty.Exact separate [] :=
  ⟨iff_of_false Bool.false_ne_true not_replacedSince_nil, rfl, rfl, rfl, rfl⟩

/-- What is remembered after some marks is what they tell. -/
lemma exact_after (separate : Bool) (h : Ascending (consumed marks)) :
    (empty.after separate marks).Exact separate marks := by
  induction marks using List.reverseRecOn with
  | nil => exact exact_empty separate
  | append_singleton marks m ih =>
      have hbefore : Ascending (consumed marks) := by
        rw [consumed_append] at h
        exact (List.pairwise_append.1 h).1
      rw [after, List.foldl_append]
      exact (ih hbefore).enter h

end Ledger

end StreamEditor.Editor
