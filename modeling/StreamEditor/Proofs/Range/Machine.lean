import StreamEditor.Editor.Selection
import StreamEditor.Proofs.Range.Spans

/-!
How a range moves on from one record to the next.

* `RangeEnd.Fits`: the end of a span is no greater than a line number can be.
* `RangeState.moved`: what a range answers about a record and where it then stands, from whether
  the record meets its start and its end.
* `Tracks`: where a range stands agrees with the spans up to a record.
* `Tracks.moved`: moving on to the next record gives the right answer and keeps this agreement.
-/

namespace StreamEditor

/-- A span that begins at `line` ends, if the end is counted from there, at a number that a line can
have. -/
def RangeEnd.Fits (line : ℕ) : RangeEnd → Prop
  | .address _ => True
  | .following n => line + n < Editor.lineLimit
  | .multiple n => ∀ m, IsLeast {k | line ≤ k ∧ n ∣ k} m → m < Editor.lineLimit

/-- The line that ends a span which begins at `line`, if that is known there; `met` says whether
the record meets the end of the range. -/
def RangeEnd.knownEnd (stop : RangeEnd) (line : ℕ) (met : Bool) : Option ℕ :=
  match stop with
  | .address (.line n) => some n
  | .address .last => if met then some line else none
  | .address _ => none
  | .following n => some ((line + n) % Editor.lineLimit)
  | .multiple 0 => some line
  | .multiple n => some ((line + n - 1) / n * n % Editor.lineLimit)

/-- A range moved on to the record `line`, which meets its start or its end as told: whether it
includes the record, and where it then stands. -/
def RangeState.moved (st : RangeState) (stop : RangeEnd) (line : ℕ) (starts ends : Bool) :
    Bool × RangeState :=
  if st.active then
    match st.lastLine, stop with
    | some last, _ => (line ≤ last, { st with active := line < last })
    | none, .address _ => (true, { st with active := !ends })
    | none, _ => (true, { st with active := false })
  else if starts then
    let last := stop.knownEnd line ends
    (true, { st with lastLine := last, active := last.all (line < ·) })
  else (false, st)

namespace RangeState

variable {st : RangeState} {stop : RangeEnd} {line : ℕ} {starts ends : Bool}

lemma moved_of_inactive (h : st.active = false) :
    st.moved stop line starts ends =
      if starts then
        (true,
          { st with
            lastLine := stop.knownEnd line ends
            active := (stop.knownEnd line ends).all (line < ·) })
      else (false, st) := by
  unfold RangeState.moved
  rw [if_neg (by simp [h])]

lemma moved_of_known {last : ℕ} (h : st.active = true) (hlast : st.lastLine = some last) :
    st.moved stop line starts ends =
      (decide (line ≤ last), { st with active := line < last }) := by
  unfold RangeState.moved
  rw [if_pos h, hlast]

lemma moved_of_searching {a : Address} (h : st.active = true) (hlast : st.lastLine = none) :
    st.moved (.address a) line starts ends = (true, { st with active := !ends }) := by
  unfold RangeState.moved
  rw [if_pos h, hlast]

/-- The number of the record about which a range was asked last; zero if there was none. -/
def record (st : RangeState) : ℕ := (st.answered.map Prod.fst).getD 0

lemma record_of_answered {i : ℕ} {b : Bool} (h : st.answered = some (i, b)) : st.record = i := by
  rw [record, h]
  rfl

lemma answered_of_record (h : 0 < st.record) : ∃ b, st.answered = some (st.record, b) := by
  cases hst : st.answered with
  | none =>
      rw [record, hst] at h
      exact absurd h (lt_irrefl 0)
  | some known => exact ⟨known.2, by rw [record_of_answered hst]⟩

end RangeState

section Machine

variable {S E : ℕ → Prop} {first : Address} {stop : RangeEnd}

/-! ### Known ends -/

lemma isLeast_multiple (line n : ℕ) :
    IsLeast {k | line ≤ k ∧ (n + 1) ∣ k} ((line + (n + 1) - 1) / (n + 1) * (n + 1)) := by
  rw [Nat.add_succ_sub_one]
  refine ⟨⟨?_, Nat.dvd_mul_left _ _⟩, ?_⟩
  · have hdiv : (line + n) / (n + 1) * (n + 1) + (line + n) % (n + 1) = line + n :=
      Nat.div_add_mod' (line + n) (n + 1)
    have hmod : (line + n) % (n + 1) < n + 1 := Nat.mod_lt _ n.succ_pos
    omega
  · rintro k ⟨hk, q, rfl⟩
    rw [mul_comm (n + 1) q]
    refine Nat.mul_le_mul_right _ (Nat.lt_succ_iff.1 ?_)
    have hq : (q + 1) * (n + 1) = (n + 1) * q + (n + 1) := by ring
    rw [Nat.div_lt_iff_lt_mul n.succ_pos, Nat.succ_eq_add_one, hq]
    omega

/-- A known end that lies ahead is the end of the span, and one that does not ends the span where
it begins. -/
lemma RangeEnd.ends_of_knownEnd {line last : ℕ} {met : Bool} (hmet : met = true ↔ E line)
    (hfits : stop.Fits line) (h : stop.knownEnd line met = some last) :
    stop.Ends E line (max line last) := by
  cases stop with
  | address a =>
      cases a with
      | line n =>
          cases h
          exact rfl
      | last =>
          cases met with
          | false => cases h
          | true =>
              cases h
              exact .inl ⟨hmet.1 rfl, max_self _⟩
      | pattern | step | zero => cases h
  | following n =>
      cases h
      rw [Nat.mod_eq_of_lt hfits]
      exact max_eq_right (Nat.le_add_right _ _)
  | multiple n =>
      cases n with
      | zero =>
          cases h
          exact max_self _
      | succ n =>
          cases h
          have hleast := isLeast_multiple line n
          rw [Nat.mod_eq_of_lt (hfits _ hleast), max_eq_right hleast.1.1]
          exact hleast

/-- An end that is not known is looked for in later records. -/
lemma RangeEnd.ends_iff_of_knownEnd {line : ℕ} {met : Bool} (hmet : met = true ↔ E line)
    (h : stop.knownEnd line met = none) :
    (∃ a, stop = .address a) ∧ ∀ m, stop.Ends E line m ↔ FirstAfter E line m := by
  cases stop with
  | address a =>
      refine ⟨⟨a, rfl⟩, fun m => ?_⟩
      cases a with
      | line n => cases h
      | last =>
          cases met with
          | true => cases h
          | false =>
              have hE : ¬E line := fun he => Bool.false_ne_true (hmet.2 he)
              exact ⟨fun hm => (hm.resolve_left fun hm => hE hm.1).2, fun hm => .inr ⟨hE, hm⟩⟩
      | pattern | step | zero => exact Iff.rfl
  | following n => cases h
  | multiple n => cases n <;> cases h

/-! ### Moving on -/

/-- Where a range stands after the record `i` agrees with the spans up to there: it is between
spans, or within one whose end is known, or within one whose end is still to be found. -/
inductive Tracks (S E : ℕ → Prop) (first : Address) (stop : RangeEnd) (i : ℕ) :
    RangeState → Prop where
  | between {st : RangeState} {r : ℕ} (hactive : st.active = false)
      (hr : Rests S E first stop r) (hri : r ≤ i) (hS : ∀ j, r < j → j ≤ i → ¬S j) :
      Tracks S E first stop i st
  | known {st : RangeState} {s last : ℕ} (hactive : st.active = true)
      (hlast : st.lastLine = some last) (hs : SpanBegins S E first stop s) (hsi : s ≤ i)
      (hi : i < last) (hend : stop.Ends E s last) : Tracks S E first stop i st
  | searching {st : RangeState} {s : ℕ} (hactive : st.active = true)
      (hlast : st.lastLine = none) (hs : SpanBegins S E first stop s) (hsi : s ≤ i)
      (haddress : ∃ a, stop = .address a)
      (hend : ∀ m, stop.Ends E s m ↔ FirstAfter E s m) (hE : ∀ j, s < j → j ≤ i → ¬E j) :
      Tracks S E first stop i st

/-- The range is between spans right after one ends. -/
lemma Tracks.ended {st : RangeState} {s i : ℕ} (hactive : st.active = false)
    (hs : SpanBegins S E first stop s) (hend : stop.Ends E s i) : Tracks S E first stop i st :=
  .between hactive (.after hs hend) le_rfl fun _ hlt hle => absurd hle (not_le.2 hlt)

/-- What a range remembers of its answers does not matter. -/
lemma Tracks.answered {st : RangeState} {i : ℕ} (h : Tracks S E first stop i st)
    (answered : Option (ℕ × Bool)) : Tracks S E first stop i { st with answered } := by
  cases h with
  | between hactive hr hri hS => exact .between hactive hr hri hS
  | known hactive hlast hs hsi hi hend => exact .known hactive hlast hs hsi hi hend
  | searching hactive hlast hs hsi ha hend hE => exact .searching hactive hlast hs hsi ha hend hE

/-- Before the first record. A range that starts before it is active, and only a pattern can end
it. -/
lemma Tracks.initial {active : Bool} (hzero : active = true ↔ first = .zero)
    (hpattern : first = .zero → ∃ regex, stop = .address (.pattern regex)) :
    Tracks S E first stop 0 (.initial active) := by
  cases active with
  | false =>
      have hfirst : first ≠ .zero := fun h => Bool.false_ne_true (hzero.2 h)
      refine .between rfl (.before hfirst) le_rfl fun j hj hj' => ?_
      omega
  | true =>
      have hfirst : first = .zero := hzero.1 rfl
      obtain ⟨regex, rfl⟩ := hpattern hfirst
      refine .searching rfl rfl (.zero hfirst) le_rfl ⟨_, rfl⟩ (fun _ => Iff.rfl) fun j hj hj' => ?_
      omega

/-- A range that begins at a record includes it. -/
lemma Tracks.begun {st : RangeState} {line : ℕ} {met : Bool} (hmet : met = true ↔ E line)
    (hs : SpanBegins S E first stop line) (hfits : stop.Fits line) :
    Tracks S E first stop line
      { st with
        lastLine := stop.knownEnd line met
        active := (stop.knownEnd line met).all (line < ·) } := by
  cases hlast : stop.knownEnd line met with
  | none =>
      obtain ⟨haddress, hend⟩ := RangeEnd.ends_iff_of_knownEnd hmet hlast
      refine .searching rfl rfl hs le_rfl haddress hend fun j hj hj' => ?_
      omega
  | some last =>
      have hend := RangeEnd.ends_of_knownEnd hmet hfits hlast
      by_cases hlt : line < last
      · rw [max_eq_right hlt.le] at hend
        exact .known (by simpa using hlt) rfl hs le_rfl hlt hend
      · rw [max_eq_left (not_lt.1 hlt)] at hend
        exact .ended (by simpa using hlt) hs hend

/-- Moved on to the next record, a range answers whether the record is selected, and then agrees
with the spans up to this record. -/
theorem Tracks.moved {st : RangeState} {i : ℕ} {starts ends : Bool}
    (h : Tracks S E first stop i st) (hfirst : first = .zero → starts = false)
    (hstarts : starts = true ↔ S (i + 1)) (hends : ends = true ↔ E (i + 1))
    (hfits : SpanBegins S E first stop (i + 1) → stop.Fits (i + 1)) :
    ((st.moved stop (i + 1) starts ends).1 = true ↔ Selected S E first stop (i + 1)) ∧
      Tracks S E first stop (i + 1) (st.moved stop (i + 1) starts ends).2 := by
  cases h with
  -- No span is open, so that the record begins one or lies in none.
  | @between r hactive hr hri hS =>
      rw [RangeState.moved_of_inactive hactive]
      cases starts with
      | false =>
          have hS' : ∀ j, r < j → j ≤ i + 1 → ¬S j := by
            intro j hj hji
            obtain hji | rfl := Nat.le_succ_iff.1 hji
            · exact hS j hj hji
            · exact fun hs => Bool.false_ne_true (hstarts.2 hs)
          refine ⟨?_, .between hactive hr (by omega) hS'⟩
          have hnot := hr.not_selected (Nat.lt_succ_of_le hri) hS'
          exact ⟨fun hb => absurd hb Bool.false_ne_true, fun hsel => absurd hsel hnot⟩
      | true =>
          have hne : first ≠ .zero := fun hz => Bool.false_ne_true (hfirst hz).symm
          have hafter : FirstAfter S r (i + 1) :=
            ⟨by omega, hstarts.1 rfl, fun j hj hji => hS j hj (by omega)⟩
          have hs : SpanBegins S E first stop (i + 1) := hr.begins hne hafter
          exact ⟨⟨fun _ => ⟨i + 1, hs, le_rfl, fun m hm => hm.le⟩, fun _ => rfl⟩,
            .begun hends hs (hfits hs)⟩
  -- The span goes on up to a line that is known.
  | @known s last hactive hlast hs hsi hi hend =>
      rw [RangeState.moved_of_known hactive hlast]
      have hsel : Selected S E first stop (i + 1) :=
        ⟨s, hs, by omega, fun m hm => hm.unique hend ▸ hi⟩
      refine ⟨⟨fun _ => hsel, fun _ => by simpa using hi⟩, ?_⟩
      obtain hlt | rfl := Nat.lt_or_eq_of_le (Nat.succ_le_of_lt hi)
      · exact .known (by simpa using hlt) hlast hs (by omega) hlt hend
      · exact .ended (by simp) hs hend
  -- The span goes on up to the first record that meets its end.
  | @searching s hactive hlast hs hsi haddress hend hE =>
      obtain ⟨a, rfl⟩ := haddress
      rw [RangeState.moved_of_searching hactive hlast]
      have hsel : Selected S E first (.address a) (i + 1) := by
        refine ⟨s, hs, by omega, fun m hm => ?_⟩
        have hm := (hend m).1 hm
        by_contra hlt
        exact hE m hm.lt (by omega) hm.holds
      refine ⟨⟨fun _ => hsel, fun _ => rfl⟩, ?_⟩
      cases ends with
      | true =>
          have hafter : FirstAfter E s (i + 1) :=
            ⟨by omega, hends.1 rfl, fun j hj hj' => hE j hj (by omega)⟩
          exact .ended rfl hs ((hend _).2 hafter)
      | false =>
          refine .searching rfl hlast hs (by omega) ⟨a, rfl⟩ hend fun j hj hj' => ?_
          obtain hj' | rfl := Nat.le_succ_iff.1 hj'
          · exact hE j hj hj'
          · exact fun he => Bool.false_ne_true (hends.2 he)

/-- A span that goes on after the record `i` does not end there, and neither does another one. -/
lemma SpanBegins.not_ends {s s' i : ℕ} (hs : SpanBegins S E first stop s) (hsi : s ≤ i)
    (hgoes : ∀ m, stop.Ends E s m → i < m) (hs' : SpanBegins S E first stop s') :
    ¬stop.Ends E s' i := by
  intro hend
  obtain hlt | rfl | hlt := lt_trichotomy s' s
  · obtain ⟨m, hm, hms⟩ := hs'.ends_before hs hlt
    have hmi : m = i := hm.unique hend
    omega
  · exact absurd (hgoes i hend) (lt_irrefl i)
  · obtain ⟨m, hm, hms⟩ := hs.ends_before hs' hlt
    have him := hgoes m hm
    have hle := hend.le
    omega

/-- A range that includes a record goes on after it, unless one of its spans ends there. -/
lemma Tracks.active_eq_false_iff {st : RangeState} {i : ℕ} (h : Tracks S E first stop i st)
    (hsel : Selected S E first stop i) :
    st.active = false ↔ ∃ s, SpanBegins S E first stop s ∧ stop.Ends E s i := by
  cases h with
  | @between r hactive hr hri hS =>
      refine iff_of_true hactive ?_
      obtain hlt | rfl := Nat.lt_or_eq_of_le hri
      · exact absurd hsel (hr.not_selected hlt hS)
      · cases hr with
        | before hfirst =>
            obtain ⟨s, hs, hle, -⟩ := hsel
            exact absurd (hs.pos hfirst) (not_lt.2 hle)
        | after hs hend => exact ⟨_, hs, hend⟩
  | known hactive hlast hs hsi hi hend =>
      refine iff_of_false (by simp [hactive]) ?_
      rintro ⟨s', hs', hend'⟩
      exact hs.not_ends hsi (fun m hm => hm.unique hend ▸ hi) hs' hend'
  | searching hactive hlast hs hsi haddress hend hE =>
      refine iff_of_false (by simp [hactive]) ?_
      rintro ⟨s', hs', hend'⟩
      refine hs.not_ends hsi (fun m hm => ?_) hs' hend'
      have hafter := (hend m).1 hm
      by_contra hle
      exact hE m hafter.lt (not_lt.1 hle) hafter.holds

end Machine

end StreamEditor
