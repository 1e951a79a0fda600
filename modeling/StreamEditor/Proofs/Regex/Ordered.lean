import Mathlib.Tactic
import StreamEditor.Regex

/-!
Matches in order, and what is put in their place.

* `Match.Ordered`: matches that begin and end within a text, each behind the one before.
* `Match.text`: what a group matched, taken from the whole text.
* `Text.weave`: pieces that are kept, each before another piece. A text is woven from its matches
  and what stands between them (`Match.Ordered.weave_kept`).
* `Match.Ordered.rewrite_eq_weave`: what a template makes of the text is woven from the same pieces
  between, and from the replacements.
-/

namespace StreamEditor

/-- Pieces that are kept, each before another piece, and then the last of them. -/
def Text.weave : List Text → List Text → Text → Text
  | kept :: keeps, piece :: pieces, last => kept ++ piece ++ weave keeps pieces last
  | _, _, last => last

namespace Regex.Match

/-- Matches that begin and end between `position` and `length`, each behind the one before. -/
inductive Ordered (length : ℕ) : ℕ → List Match → Prop
  | nil {position : ℕ} (h : position ≤ length) : Ordered length position []
  | cons {position : ℕ} {m : Match} {ms : List Match} (hstart : position ≤ m.start)
      (hstop : m.start ≤ m.stop) (hwhole : m.span? 0 = some (m.start, m.stop))
      (hbehind : ∀ m' ∈ ms, m.stop < m'.stop) (hrest : Ordered length m.stop ms) :
      Ordered length position (m :: ms)

/-- What a group matched in a text; a group that took no part matched nothing. -/
def text (m : Match) (t : Text) (n : ℕ) : Text := m.groupText 0 t n

/-- What is kept of a text before each of some matches, from a position on. -/
def kept (t : Text) : ℕ → List Match → List Text
  | _, [] => []
  | position, m :: ms => (t.drop position).take (m.start - position) :: kept t m.stop ms

/-- What is kept of a text behind the last of some matches. -/
def behind (t : Text) : ℕ → List Match → Text
  | position, [] => t.drop position
  | _, m :: ms => behind t m.stop ms

/-- The matches to be replaced: the one with number `occurrence`, counted from one, and, if
`everywhere`, all that follow it. -/
def chosen (occurrence : ℕ) (everywhere : Bool) (ms : List Match) : List Match :=
  if everywhere then ms.drop (occurrence - 1) else ms[occurrence - 1]?.toList

namespace Ordered

variable {length position : ℕ} {ms : List Match}

lemma le (h : Ordered length position ms) : position ≤ length := by
  induction h with
  | nil h => exact h
  | cons hstart hstop _ _ _ ih => exact hstart.trans (hstop.trans ih)

/-- All matches begin and end within the text. -/
lemma within (h : Ordered length position ms) :
    ∀ m ∈ ms, position ≤ m.start ∧ m.start ≤ m.stop ∧ m.stop ≤ length := by
  induction h with
  | nil _ => simp
  | cons hstart hstop _ _ hrest ih =>
      rw [List.forall_mem_cons]
      refine ⟨⟨hstart, hstop, hrest.le⟩, fun m hm => ?_⟩
      obtain ⟨hle, hm⟩ := ih m hm
      exact ⟨hstart.trans (hstop.trans hle), hm⟩

lemma pairwise (h : Ordered length position ms) :
    ms.Pairwise fun m m' => m.stop ≤ m'.start ∧ m.stop < m'.stop := by
  induction h with
  | nil _ => exact .nil
  | cons _ _ _ hbehind hrest ih =>
      exact .cons (fun m' hm' => ⟨(hrest.within m' hm').1, hbehind m' hm'⟩) ih

/-- Matches are still in order from a place before. -/
lemma mono (h : Ordered length position ms) {position' : ℕ} (hle : position' ≤ position) :
    Ordered length position' ms := by
  cases h with
  | nil h => exact .nil (hle.trans h)
  | cons hstart hstop hwhole hbehind hrest =>
      exact .cons (hle.trans hstart) hstop hwhole hbehind hrest

/-- Some of the first matches are in order. -/
lemma take (h : Ordered length position ms) (n : ℕ) : Ordered length position (ms.take n) := by
  induction h generalizing n with
  | nil h =>
      rw [List.take_nil]
      exact .nil h
  | cons hstart hstop hwhole hbehind hrest ih =>
      cases n with
      | zero => exact .nil (hstart.trans (hstop.trans hrest.le))
      | succ n =>
          exact .cons hstart hstop hwhole
            (fun m' hm' => hbehind m' (List.mem_of_mem_take hm')) (ih n)

/-- The matches behind some of the first are in order. -/
lemma drop (h : Ordered length position ms) (n : ℕ) : Ordered length position (ms.drop n) := by
  induction h generalizing n with
  | nil h =>
      rw [List.drop_nil]
      exact .nil h
  | cons hstart hstop hwhole hbehind hrest ih =>
      cases n with
      | zero => exact .cons hstart hstop hwhole hbehind hrest
      | succ n => exact (ih n).mono (hstart.trans hstop)

lemma chosen (h : Ordered length position ms) (occurrence : ℕ) (everywhere : Bool) :
    Ordered length position (chosen occurrence everywhere ms) := by
  rw [Match.chosen]
  split
  · exact h.drop _
  · have hone : ms[occurrence - 1]?.toList = (ms.drop (occurrence - 1)).take 1 := by
      rw [← List.head?_drop]
      cases ms.drop (occurrence - 1) <;> rfl
    rw [hone]
    exact (h.drop _).take 1

variable {t : Text}

/-- A text is what its matches are and what is kept between them. -/
lemma weave_kept (h : Ordered t.length position ms) :
    Text.weave (kept t position ms) (ms.map (·.text t 0)) (behind t position ms) =
      t.drop position := by
  induction h with
  | nil => rfl
  | @cons position m ms hstart hstop hwhole _ _ ih =>
      have hmatched : m.text t 0 = (t.drop m.start).take (m.stop - m.start) := by
        rw [text, groupText, hwhole]
        rfl
      rw [kept, List.map_cons, behind, Text.weave, ih, hmatched, List.append_assoc]
      calc (t.drop position).take (m.start - position) ++
            ((t.drop m.start).take (m.stop - m.start) ++ t.drop m.stop)
          = (t.drop position).take (m.start - position) ++ t.drop m.start := by
            rw [← Nat.add_sub_cancel' hstop, ← List.drop_drop, Nat.add_sub_cancel_left,
              List.take_append_drop]
        _ = t.drop position := by
            rw [← Nat.add_sub_cancel' hstart, ← List.drop_drop, Nat.add_sub_cancel_left,
              List.take_append_drop]

/-- A template is put in the place of the matches, and all else is kept. -/
lemma rewrite_eq_weave (template : Template) (h : Ordered t.length position ms) :
    rewrite template t position (t.drop position) ms =
      Text.weave (kept t position ms) (ms.map fun m => template.apply (m.text t))
        (behind t position ms) := by
  induction h with
  | nil => rfl
  | cons hstart hstop _ _ _ ih =>
      rw [rewrite, List.drop_drop, Nat.add_sub_cancel' (hstart.trans hstop), ih]
      rfl

end Ordered

end Regex.Match

end StreamEditor
