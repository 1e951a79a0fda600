import StreamEditor.Proofs.Editor.Edits

/-!
Asking whether a command applies.

* `Editor.Looking`: a relation of editors that looking on stays within, and that takes no notice of
  where the ranges stand and which expression was used last.
* `Editor.Looking.applies`: asking whether a command applies stays within it too.
-/

namespace StreamEditor.Editor

/-- Looking on stays within the relation `R`, and so does moving ranges and remembering an
expression. -/
structure Looking (R : Editor → Editor → Prop) : Prop where
  aside : ∀ (e : Editor) ranges lastRegex, R e { e with ranges, lastRegex }
  hasNext : Moves R hasNext

namespace Looking

variable {R : Editor → Editor → Prop} {α : Type}

lemma refl (h : Looking R) : Std.Refl R := ⟨fun e => h.aside e e.ranges e.lastRegex⟩

lemma pure (h : Looking R) (a : α) : Moves R (Pure.pure a) :=
  have := h.refl
  Moves.pure a

lemma throw (h : Looking R) (failure : Failure) : Moves R (throw failure : Edit α) :=
  have := h.refl
  Moves.throw failure

lemma resolve (h : Looking R) (c : Command) (regex : Option Regex) :
    Moves R (resolve c regex) := by
  refine Moves.get fun e => ?_
  cases regex.or e.lastRegex with
  | none => exact h.aside e e.ranges e.lastRegex
  | some regex => exact h.aside e e.ranges (some regex)

lemma searched (h : Looking R) (c : Command) (result : Except Regex.Exhausted α) :
    Moves R (searched c result) := by
  cases result with
  | ok found => exact h.pure found
  | error _ => exact h.throw _

variable [IsTrans Editor R]

lemma atLast (h : Looking R) : Moves R atLast := h.hasNext.bind fun _ => h.pure _

lemma meets (h : Looking R) (c : Command) (a : Address) : Moves R (meets c a) := by
  refine Moves.get_bind fun e => ?_
  cases a with
  | line n => exact h.pure _
  | last => exact h.atLast
  | pattern regex =>
      exact (h.resolve c regex).bind fun regex => Moves.get_bind fun e => h.searched c _
  | step first step => cases step <;> exact h.pure _
  | zero => exact h.pure _

lemma endLine (h : Looking R) (stop : RangeEnd) (line : ℕ) : Moves R (endLine stop line) := by
  unfold Editor.endLine
  split
  · exact h.pure _
  · exact h.atLast.bind fun _ => h.pure _
  all_goals exact h.pure _

lemma advanceRange (h : Looking R) (c : Command) (first : Address) (stop : RangeEnd)
    (state : RangeState) : Moves R (advanceRange c first stop state) := by
  refine Moves.get_bind fun e => Moves.ite ?_ ((h.meets c first).bind fun _ => Moves.ite ?_ ?_)
  · split
    · exact h.pure _
    · exact (h.meets c _).bind fun _ => h.pure _
    · exact h.pure _
  · exact (h.endLine _ _).bind fun _ => h.pure _
  · exact h.pure _

lemma inRange (h : Looking R) (c : Command) (first : Address) (stop : RangeEnd) (slot : ℕ) :
    Moves R (inRange c first stop slot) := by
  have moved (state : RangeState) : Moves R (inRange.moved c first stop slot state) := by
    refine (h.advanceRange c first stop state).bind fun ⟨answer, state'⟩ => ?_
    exact Moves.bind (Moves.modify fun e => h.aside e _ e.lastRegex) fun _ => h.pure _
  refine Moves.get_bind fun e => ?_
  cases e.ranges[slot]? with
  | none => exact h.pure _
  | some state =>
      dsimp only
      split
      · exact Moves.ite (h.pure _) (moved state)
      · exact moved state

lemma applies (h : Looking R) (c : Command) : Moves R (applies c) := by
  rw [Editor.applies]
  cases c.selection with
  | all => exact h.pure _
  | single a => exact (h.meets c a).bind fun _ => h.pure _
  | range first stop slot => exact (h.inRange c first stop slot).bind fun _ => h.pure _

end Looking

end StreamEditor.Editor
