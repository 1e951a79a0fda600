import StreamEditor.Proofs.Regex.Plain

/-!
Replacing all occurrences of a text.

* `Text.replaceAll`: the text with another in the place of the occurrences of a text, taken from
  the left; `replaceAll_append` and `replaceAll_cons` say what it is at an occurrence and elsewhere.
* `rewrite_occurrences`: that is what a substitution makes of the matches of plain text.
* `replace_everywhere`: a substitution in all places, and how often it replaced something.
-/

namespace StreamEditor

/-- The text with `new` in the place of the occurrences of `old`, a text that is not empty. They
are taken from the left, none overlapping another. -/
def Text.replaceAll (old new : Text) : Text → Text :=
  expand (fun c rest => if old <+: c :: rest then (new, old.length - 1) else ([c], 0)) 0

namespace Text

variable {old : Text} (new : Text)

@[simp] lemma replaceAll_nil : replaceAll old new [] = [] := rfl

/-- An occurrence is replaced. -/
lemma replaceAll_append (hold : old ≠ []) (t : Text) :
    replaceAll old new (old ++ t) = new ++ replaceAll old new t := by
  obtain ⟨c, rest, rfl⟩ := List.exists_cons_of_ne_nil hold
  have hoccurs : c :: rest <+: c :: (rest ++ t) := List.prefix_append (c :: rest) t
  rw [replaceAll, List.cons_append, expand, if_pos hoccurs]
  change new ++ expand _ rest.length (rest ++ t) = new ++ expand _ 0 t
  rw [expand_eq_drop, List.drop_left]

/-- A character with which no occurrence begins is kept. -/
lemma replaceAll_cons {c : Char} {t : Text} (h : ¬old <+: c :: t) :
    replaceAll old new (c :: t) = c :: replaceAll old new t := by
  rw [replaceAll, expand, if_neg h]
  rfl

/-- A text that does not occur is not replaced. -/
lemma replaceAll_of_not_infix {t : Text} (h : ¬old <:+: t) : replaceAll old new t = t := by
  induction t with
  | nil => rfl
  | cons c t ih =>
      rw [List.infix_cons_iff, not_or] at h
      rw [replaceAll_cons new h.1, ih h.2]

example : replaceAll ['a', 'a'] ['b'] ['a', 'a', 'a'] = ['b', 'a'] := rfl

end Text

namespace Regex

namespace Literal

variable {old : Text}

lemma occurrences_eq_nil_iff (hold : old ≠ []) (position : ℕ) (t : Text) :
    occurrences old 0 position t = [] ↔ ¬old <:+: t := by
  induction t generalizing position with
  | nil => simpa [occurrences] using hold
  | cons c t ih =>
      by_cases h : old <+: c :: t
      · obtain ⟨rest, hrest⟩ := h
        have hinfix : old <:+: old ++ rest := (List.prefix_append old rest).isInfix
        simp [← hrest, occurrences_append hold, hinfix]
      · rw [occurrences_cons h, ih, List.infix_cons_iff]
        simp [h]

end Literal

open Literal (occurrences occurrences_append occurrences_cons occurrences_eq_nil_iff)

variable {old new : Text} {template : Template}

/-- The first match is replaced, and what comes before it kept. -/
lemma rewrite_matchAt (htemplate : ∀ group, template.apply group = new) (whole : Text)
    (position : ℕ) (held rest : Text) (others : List Match) :
    rewrite template whole position (held ++ (old ++ rest))
        (Literal.matchAt ⟨old, false, false⟩ (position + held.length) :: others) =
      held ++
        (new ++ rewrite template whole (position + held.length + old.length) rest others) := by
  have hpassed : position + held.length + old.length - position = (held ++ old).length := by
    rw [List.length_append]
    omega
  rw [rewrite, htemplate]
  simp only [Literal.matchAt, Nat.add_sub_cancel_left, List.take_left, hpassed]
  rw [← List.append_assoc held old, List.drop_left, List.append_assoc]

/-- A template that does not depend on the match replaces the occurrences. The induction is over
the text from the place on where an occurrence is looked for; `held` is what was passed since the
last one. -/
lemma rewrite_occurrences (hold : old ≠ []) (htemplate : ∀ group, template.apply group = new)
    (whole : Text) (position : ℕ) (held t : Text) :
    rewrite template whole position (held ++ t)
        ((occurrences old 0 (position + held.length) t).map
          (Literal.matchAt ⟨old, false, false⟩)) =
      held ++ Text.replaceAll old new t := by
  induction hn : t.length using Nat.strong_induction_on generalizing position held t with
  | _ n ih =>
      cases t with
      | nil => simp [occurrences, rewrite]
      | cons c t =>
          by_cases h : old <+: c :: t
          · obtain ⟨rest, hrest⟩ := h
            have hlength : rest.length < n := by
              have hpos := List.length_pos_iff.2 hold
              rw [← hn, ← hrest, List.length_append]
              omega
            have hrewrite := ih _ hlength (position + held.length + old.length) [] rest rfl
            rw [← hrest, occurrences_append hold, Text.replaceAll_append new hold, List.map_cons,
              rewrite_matchAt htemplate]
            exact congrArg (fun text => held ++ (new ++ text)) hrewrite
          · have hlength : t.length < n := by rw [← hn]; exact Nat.lt_succ_self _
            have hrewrite := ih _ hlength position (held ++ [c]) t rfl
            rw [occurrences_cons h, Text.replaceAll_cons new h]
            simpa [Nat.add_assoc] using hrewrite

/-- A substitution in all places replaces the occurrences of plain text. -/
lemma replace_everywhere (hold : old ≠ []) (htemplate : ∀ group, template.apply group = new)
    {re : Regex} {t : Text}
    (hmatches : re.allMatches none t = (literalMatches ⟨old, false, false⟩ t, none)) :
    ∃ count, re.replace template 1 true t = .ok (Text.replaceAll old new t, count) ∧
      (count = 0 ↔ ¬old <:+: t) := by
  have hfound : literalMatches ⟨old, false, false⟩ t =
      (occurrences old 0 0 t).map (Literal.matchAt ⟨old, false, false⟩) := by
    simp [literalMatches, Literal.starts, hold, Literal.matchAt]
  refine ⟨(occurrences old 0 0 t).length, ?_, ?_⟩
  · rw [replace]
    simp only [if_true, hmatches, hfound, Nat.sub_self, List.drop_zero, List.length_map]
    exact congrArg (fun text => Except.ok (text, _)) (rewrite_occurrences hold htemplate t 0 [] t)
  · rw [List.length_eq_zero_iff, occurrences_eq_nil_iff hold]

end Regex

end StreamEditor
