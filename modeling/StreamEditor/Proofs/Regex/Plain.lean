import Mathlib.Tactic
import StreamEditor.Regex

/-!
Plain text, possibly tied to the ends of the text to search.

* `Literal.fits`: the text occurs at a place; `Literal.firstFit` is the first such place, which the
  search for plain text finds (`find?_eq_firstFit`).
* `Literal.Finds`: what finds the first such place; one match after the other, it finds those of the
  search for plain text (`Literal.Finds.all`).
-/

namespace StreamEditor.Regex

namespace Literal

/-! ### Places -/

/-- A text occurs at a place. -/
def fits (l : Literal) (before : Option Char) (rest : Text) : Bool :=
  (!l.atStart || before.isNone) && l.needle.isPrefixOf rest &&
    (!l.atEnd || rest.length = l.needle.length)

/-- The first place at which a text occurs. -/
def firstFit (l : Literal) (before : Option Char) (position : ℕ) : Text → Option ℕ
  | [] => if l.fits before [] then some position else none
  | c :: rest =>
      if l.fits before (c :: rest) then some position
      else firstFit l (some c) (position + 1) rest

/-- The match of a text at a place. -/
def matchAt (l : Literal) (position : ℕ) : Match :=
  let stop := position + l.needle.length
  ⟨position, stop, [some (position, stop)]⟩

lemma prefix_of_fits {l : Literal} {before : Option Char} {rest : Text}
    (h : l.fits before rest = true) : l.needle <+: rest := by
  rw [fits, Bool.and_eq_true, Bool.and_eq_true] at h
  exact List.isPrefixOf_iff_prefix.1 h.1.2

/-- A text tied to the end is all that follows. -/
lemma fits_iff_eq {l : Literal} (hend : l.atEnd = true) {before : Option Char}
    (hbefore : l.atStart = false ∨ before = none) (t : Text) :
    l.fits before t = true ↔ t = l.needle := by
  have hstart : (!l.atStart || before.isNone) = true := by
    obtain h | rfl := hbefore
    · rw [h]; rfl
    · rw [Option.isNone_none, Bool.or_true]
  simp only [fits, hstart, hend, Bool.true_and, Bool.not_true, Bool.false_or, Bool.and_eq_true,
    decide_eq_true_eq, List.isPrefixOf_iff_prefix]
  exact ⟨fun h => (h.1.eq_of_length h.2.symm).symm, fun h => h ▸ ⟨List.prefix_rfl, rfl⟩⟩

/-- The text occurs at the first place at which it fits, which lies ahead. -/
lemma of_firstFit {l : Literal} {before : Option Char} {position start : ℕ} {rest : Text}
    (h : l.firstFit before position rest = some start) :
    ∃ skipped later, rest = skipped ++ later ∧ start = position + skipped.length ∧
      l.fits (skipped.getLast?.or before) later = true := by
  induction rest generalizing before position with
  | nil =>
      rw [firstFit] at h
      split at h
      · exact ⟨[], [], rfl, (Option.some.inj h).symm, ‹_›⟩
      · cases h
  | cons c rest ih =>
      rw [firstFit] at h
      split at h
      · exact ⟨[], c :: rest, rfl, (Option.some.inj h).symm, ‹_›⟩
      · obtain ⟨skipped, later, rfl, rfl, hfits⟩ := ih h
        refine ⟨c :: skipped, later, rfl, by simp; omega, ?_⟩
        rw [List.getLast?_cons]
        cases hlast : skipped.getLast? <;> simpa [hlast] using hfits

/-- A text tied to the start occurs nowhere behind a character. -/
lemma firstFit_behind {l : Literal} (hl : l.atStart = true) (c : Char) (position : ℕ)
    (rest : Text) : l.firstFit (some c) position rest = none := by
  have hfits : ∀ d t, l.fits (some d) t = false := fun d t => by simp [fits, hl]
  induction rest generalizing c position with
  | nil => rw [firstFit, hfits]; rfl
  | cons d rest ih => rw [firstFit, hfits]; exact ih d (position + 1)

/-- A text tied to the start occurs there or nowhere. -/
lemma firstFit_atStart {l : Literal} (hl : l.atStart = true) (before : Option Char)
    (position : ℕ) (rest : Text) :
    l.firstFit before position rest = if l.fits before rest then some position else none := by
  cases rest with
  | nil => rfl
  | cons c rest => rw [firstFit, firstFit_behind hl]

/-- A text tied to the end occurs there or nowhere. -/
lemma firstFit_atEnd {l : Literal} (hstart : l.atStart = false) (hend : l.atEnd = true)
    (before : Option Char) (position : ℕ) (rest : Text) :
    l.firstFit before position rest =
      if l.needle.isSuffixOf rest then some (position + (rest.length - l.needle.length))
      else none := by
  have hfits : ∀ before t, l.fits before t = true ↔ t = l.needle :=
    fun before t => fits_iff_eq hend (.inl hstart) t
  induction rest generalizing before position with
  | nil =>
      rw [firstFit]
      by_cases h : [] = l.needle
      · rw [if_pos ((hfits before []).2 h), if_pos (by rw [← h]; rfl), ← h]
        rfl
      · have hsuffix : ¬l.needle.isSuffixOf [] = true := by
          simpa [List.isSuffixOf_iff_suffix] using Ne.symm h
        rw [if_neg (mt (hfits before []).1 h), if_neg hsuffix]
  | cons c rest ih =>
      rw [firstFit, ih]
      by_cases h : c :: rest = l.needle
      · rw [if_pos ((hfits before _).2 h), if_pos (by simp [List.isSuffixOf_iff_suffix, ← h]), ← h]
        simp
      · rw [if_neg (mt (hfits before _).1 h)]
        have hsuffix : l.needle.isSuffixOf (c :: rest) = l.needle.isSuffixOf rest := by
          rw [Bool.eq_iff_iff, List.isSuffixOf_iff_suffix, List.isSuffixOf_iff_suffix,
            List.suffix_cons_iff, or_iff_right (Ne.symm h)]
        rw [hsuffix]
        split
        · rename_i hs
          have hlength := (List.isSuffixOf_iff_suffix.1 hs).length_le
          rw [List.length_cons]
          congr 1
          omega
        · rfl

/-- A text without anchors occurs where it is found as plain text. -/
lemma firstFit_free {l : Literal} (hstart : l.atStart = false) (hend : l.atEnd = false)
    (before : Option Char) (position : ℕ) (rest : Text) :
    l.firstFit before position rest = findFrom l.needle position rest := by
  have hfits : ∀ before t, l.fits before t = l.needle.isPrefixOf t := fun before t => by
    simp [fits, hstart, hend]
  induction rest generalizing before position with
  | nil =>
      rw [firstFit, findFrom, hfits]
      cases l.needle with
      | nil => rfl
      | cons c needle => rfl
  | cons c rest ih => rw [firstFit, findFrom, hfits, ih]

/-- The search for plain text finds the first place at which it occurs. -/
lemma find?_eq_firstFit (l : Literal) (t : Text) : l.find? t = l.firstFit none 0 t := by
  rw [find?]
  cases hstart : l.atStart with
  | true =>
      rw [firstFit_atStart hstart]
      cases hend : l.atEnd with
      | true =>
          simp only [fits_iff_eq hend (.inr rfl)]
      | false =>
          have hfits : l.fits none t = l.needle.isPrefixOf t := by simp [fits, hend]
          simp only [hfits]
  | false =>
      cases hend : l.atEnd with
      | true => simp only [firstFit_atEnd hstart hend, Nat.zero_add]
      | false => simp only [firstFit_free hstart hend]

/-! ### Occurrences -/

/-- Characters that belong to an occurrence are dropped. -/
lemma occurrences_eq_drop (needle : Text) (n position : ℕ) (t : Text) :
    occurrences needle n position t = occurrences needle 0 (position + n) (t.drop n) := by
  induction t generalizing n position with
  | nil => cases n <;> rfl
  | cons c t ih =>
      cases n with
      | zero => rfl
      | succ n => rw [occurrences, ih, List.drop_succ_cons, Nat.add_right_comm, Nat.add_assoc]

lemma occurrences_append {needle : Text} (hneedle : needle ≠ []) (position : ℕ) (t : Text) :
    occurrences needle 0 position (needle ++ t) =
      position :: occurrences needle 0 (position + needle.length) t := by
  obtain ⟨c, rest, rfl⟩ := List.exists_cons_of_ne_nil hneedle
  have hoccurs : (c :: rest).isPrefixOf (c :: (rest ++ t)) = true :=
    List.isPrefixOf_iff_prefix.2 (List.prefix_append (c :: rest) t)
  rw [List.cons_append, occurrences, if_pos hoccurs, occurrences_eq_drop]
  simp only [List.length_cons, Nat.add_sub_cancel, List.drop_left, Nat.add_assoc,
    Nat.add_comm 1]

lemma occurrences_cons {needle : Text} {c : Char} {t : Text} (h : ¬needle <+: c :: t)
    (position : ℕ) :
    occurrences needle 0 position (c :: t) = occurrences needle 0 (position + 1) t := by
  rw [occurrences, if_neg (by rwa [List.isPrefixOf_iff_prefix])]

/-- Occurrences of a text are its first one, and those behind that. -/
lemma occurrences_eq_findFrom {needle : Text} (hneedle : needle ≠ []) (position : ℕ) (t : Text) :
    occurrences needle 0 position t =
      match findFrom needle position t with
      | none => []
      | some start =>
          start :: occurrences needle 0 (start + needle.length)
            (t.drop (start + needle.length - position)) := by
  induction t generalizing position with
  | nil =>
      cases needle with
      | nil => exact absurd rfl hneedle
      | cons c needle => rfl
  | cons c t ih =>
      rw [findFrom]
      by_cases h : needle <+: c :: t
      · rw [if_pos (List.isPrefixOf_iff_prefix.2 h)]
        obtain ⟨rest, hrest⟩ := h
        simp only [← hrest, occurrences_append hneedle, Nat.add_sub_cancel_left, List.drop_left]
      · rw [if_neg (by rwa [List.isPrefixOf_iff_prefix]), occurrences_cons h, ih]
        cases hfind : findFrom needle (position + 1) t with
        | none => rfl
        | some start =>
            have hle : position + 1 ≤ start := by
              have hfirst := firstFit_free (l := ⟨needle, false, false⟩) rfl rfl none
                  (position + 1) t
              obtain ⟨skipped, later, -, hstart, -⟩ := of_firstFit (hfirst.trans hfind)
              omega
            have hdrop : start + needle.length - position =
                start + needle.length - (position + 1) + 1 := by omega
            simp only [hdrop, List.drop_succ_cons]

/-! ### All matches -/

end Literal

section Successive

variable {find : Finder} {fuel : ℕ} {before : Option Char} {position : ℕ} {rest : Text}
  {last : Option ℕ}

/-- The search for one more match. -/
lemma successive_succ :
    successive find (fuel + 1) before position rest last =
      match find before position rest with
      | .error e => ([], some e)
      | .ok none => ([], none)
      | .ok (some m) =>
          if m.start = m.stop && last = some m.stop then
            match rest with
            | [] => ([], none)
            | c :: rest => successive find fuel (some c) (position + 1) rest last
          else
            let passed := rest.take (m.stop - position)
            let (others, fault) :=
              successive find fuel (passed.getLast?.or before) m.stop (rest.drop passed.length)
                (some m.stop)
            (m :: others, fault) := rfl

lemma successive_absent (h : find before position rest = .ok none) :
    successive find fuel before position rest last = ([], none) := by
  cases fuel with
  | zero => rfl
  | succ fuel => rw [successive_succ, h]

/-- An empty match right after the last one is none. -/
lemma successive_again {m : Match} (h : find before position rest = .ok (some m))
    (hm : m.start = m.stop)
    (hothers : ∀ c later, rest = c :: later → find (some c) (position + 1) later = .ok none) :
    successive find fuel before position rest (some m.stop) = ([], none) := by
  cases fuel with
  | zero => rfl
  | succ fuel =>
      rw [successive_succ, h]
      simp only [hm, decide_true, Bool.and_self, if_true]
      cases rest with
      | nil => rfl
      | cons c rest => exact successive_absent (hothers c rest rfl)

/-- Any other match is followed by those behind it. -/
lemma successive_found {m : Match} (h : find before position rest = .ok (some m))
    (hm : ¬(m.start = m.stop ∧ last = some m.stop)) {others : List Match}
    (hothers : successive find fuel ((rest.take (m.stop - position)).getLast?.or before) m.stop
      (rest.drop (m.stop - position)) (some m.stop) = (others, none)) :
    successive find (fuel + 1) before position rest last = (m :: others, none) := by
  have hdrop : rest.drop (rest.take (m.stop - position)).length =
      rest.drop (m.stop - position) := by
    rw [List.length_take]
    obtain h | h := le_total (m.stop - position) rest.length
    · rw [min_eq_left h]
    · rw [min_eq_right h, List.drop_length, List.drop_eq_nil_of_le h]
  have hm : ¬(m.start = m.stop && last = some m.stop) = true := by simpa using hm
  rw [successive_succ, h]
  simp only [if_neg hm, hdrop, hothers]

/-- There is a match if and only if there is a first one. -/
lemma isEmpty_all {find : Finder} {t : Text} {m : Option Match} (h : find none 0 t = .ok m) :
    (find.all t).1.isEmpty = m.isNone := by
  rw [Finder.all, successive_succ, h]
  cases m with
  | none => rfl
  | some m => simp

end Successive

namespace Literal

/-- The first place at which a text occurs is found. -/
def Finds (l : Literal) (find : Finder) : Prop :=
  ∀ before position rest, find before position rest =
    .ok ((l.firstFit before position rest).map l.matchAt)

namespace Finds

variable {l : Literal} {find : Finder} (hfind : l.Finds find) {fuel : ℕ} {before : Option Char}
  {position : ℕ} {rest : Text} {last : Option ℕ}

include hfind

/-- The matches of a text without anchors are its occurrences. -/
lemma successive_free (hstart : l.atStart = false) (hend : l.atEnd = false)
    (hneedle : l.needle ≠ []) (hfuel : rest.length < fuel) :
    successive find fuel before position rest last =
      ((occurrences l.needle 0 position rest).map l.matchAt, none) := by
  induction fuel generalizing before position rest last with
  | zero => omega
  | succ fuel ih =>
      have hfound := hfind before position rest
      rw [occurrences_eq_findFrom hneedle, ← firstFit_free hstart hend before]
      cases hfirst : l.firstFit before position rest with
      | none =>
          rw [hfirst] at hfound
          exact successive_absent hfound
      | some start =>
          rw [hfirst] at hfound
          have hlength : 0 < l.needle.length := List.length_pos_iff.2 hneedle
          obtain ⟨skipped, later, rfl, rfl, hfits⟩ := of_firstFit hfirst
          have hlater := (prefix_of_fits hfits).length_le
          rw [List.map_cons]
          refine successive_found hfound (fun h => ?_) (ih ?_)
          · have := h.1
            simp only [matchAt] at this
            omega
          · simp only [matchAt, List.length_drop, List.length_append] at hfuel ⊢
            omega

/-- Behind the match of a text tied to the start there is no other. -/
lemma successive_behind_start (hstart : l.atStart = true) {t : Text}
    (hfits : l.fits none t = true) :
    successive find fuel ((t.take l.needle.length).getLast?) l.needle.length
      (t.drop l.needle.length) (some l.needle.length) = ([], none) := by
  have hbehind : ∀ c position later, find (some c) position later = .ok none :=
    fun c position later => by rw [hfind, firstFit_behind hstart]; rfl
  cases hlast : (t.take l.needle.length).getLast? with
  | some c => exact successive_absent (hbehind ..)
  | none =>
      have hzero : l.needle.length = 0 := by
        have hlength := (prefix_of_fits hfits).length_le
        rw [List.getLast?_eq_none_iff, List.take_eq_nil_iff] at hlast
        obtain h | h := hlast
        · exact h
        · simpa [h] using hlength
      have hfound : find none 0 t = .ok (some (l.matchAt 0)) := by
        rw [hfind, firstFit_atStart hstart, if_pos hfits]
        rfl
      have hstop : (l.matchAt 0).stop = 0 := by rw [matchAt, hzero]
      have hagain : successive find fuel none 0 t (some (l.matchAt 0).stop) = ([], none) :=
        successive_again hfound hstop.symm fun c later _ => hbehind c 1 later
      rw [hstop] at hagain
      rw [hzero]
      exact hagain

/-- Behind the match of a text tied to the end there is no other. -/
lemma successive_behind_end :
    successive find fuel before position [] (some position) = ([], none) := by
  have hfound := hfind before position []
  rw [firstFit] at hfound
  split at hfound
  · rename_i hfits
    have hneedle : l.needle = [] := List.prefix_nil.1 (prefix_of_fits hfits)
    have hstop : (l.matchAt position).stop = position := by rw [matchAt, hneedle]; rfl
    have hagain : successive find fuel before position [] (some (l.matchAt position).stop) =
        ([], none) :=
      successive_again hfound hstop.symm fun c later h => by cases h
    rwa [hstop] at hagain
  · exact successive_absent hfound

/-- A text with an anchor has one match at most. -/
lemma successive_anchored (hl : l.atStart = true ∨ l.atEnd = true) (t : Text) :
    successive find (fuel + 1) none 0 t none =
      ((l.firstFit none 0 t).toList.map l.matchAt, none) := by
  have hfound := hfind none 0 t
  cases hfirst : l.firstFit none 0 t with
  | none =>
      rw [hfirst] at hfound
      exact successive_absent hfound
  | some start =>
      rw [hfirst] at hfound
      refine successive_found hfound (fun h => by cases h.2) ?_
      -- Behind a match at the start there is no other start, and behind one at the end no text.
      cases hstart : l.atStart with
      | true =>
          rw [firstFit_atStart hstart] at hfirst
          split at hfirst
          · obtain rfl := Option.some.inj hfirst
            simpa [matchAt] using hfind.successive_behind_start hstart ‹_›
          · cases hfirst
      | false =>
          have hend : l.atEnd = true := by simpa [hstart] using hl
          rw [firstFit_atEnd hstart hend] at hfirst
          split at hfirst
          · obtain rfl := Option.some.inj hfirst
            have hlength := (List.isSuffixOf_iff_suffix.1 ‹_›).length_le
            have hstop : (l.matchAt (0 + (t.length - l.needle.length))).stop = t.length := by
              simp only [matchAt]
              omega
            rw [hstop, Nat.sub_zero, List.drop_length]
            exact hfind.successive_behind_end
          · cases hfirst

/-- One match after the other, the matches of a text are those that the search for plain text
finds, if the text is not empty or has an anchor. -/
lemma all (hl : l.needle ≠ [] ∨ l.atStart = true ∨ l.atEnd = true) (t : Text) :
    find.all t = (literalMatches l t, none) := by
  by_cases hanchored : l.atStart = true ∨ l.atEnd = true
  · have hstarts : l.starts t = (l.firstFit none 0 t).toList := by
      have hnot : (!l.atStart && !l.atEnd && !l.needle.isEmpty) = false := by
        obtain h | h := hanchored <;> simp [h]
      rw [starts, hnot, ← find?_eq_firstFit]
      rfl
    rw [Finder.all, hfind.successive_anchored hanchored, literalMatches, hstarts]
    rfl
  · rw [not_or, Bool.not_eq_true, Bool.not_eq_true] at hanchored
    obtain ⟨hstart, hend⟩ := hanchored
    have hneedle : l.needle ≠ [] := by simpa [hstart, hend] using hl
    have hstarts : l.starts t = occurrences l.needle 0 0 t := by
      simp [starts, hstart, hend, hneedle]
    rw [Finder.all, hfind.successive_free hstart hend hneedle (by omega), literalMatches, hstarts]
    rfl

end Finds

/-- A text is found if and only if it has a match. -/
lemma isSome_find? (l : Literal) (t : Text) :
    (l.find? t).isSome = !(literalMatches l t).isEmpty := by
  rw [literalMatches, List.isEmpty_map, starts]
  split
  · rename_i hfree
    obtain ⟨⟨hstart, hend⟩, hneedle⟩ : (l.atStart = false ∧ l.atEnd = false) ∧ l.needle ≠ [] := by
      simpa using hfree
    have hfind : l.find? t = findFrom l.needle 0 t := by
      rw [find?_eq_firstFit, firstFit_free hstart hend]
    rw [occurrences_eq_findFrom hneedle, hfind]
    cases findFrom l.needle 0 t with
    | none | some => rfl
  · cases l.find? t with
    | none | some => rfl

end Literal

end StreamEditor.Regex
