import Mathlib.Tactic
import StreamEditor.Program

/-!
The spans of records that a range selects, said without a state.

* `FirstAfter`: the first number after another at which something holds.
* `RangeEnd.Ends`: where a span ends that begins at a record.
* `SpanBegins`: the records at which spans begin, each after the end of the one before.
* `Selected`: the records that lie in a span.
* `SpanBegins.ends_before`: a span ends before the next begins, so that the spans have an order.
-/

namespace StreamEditor

/-- The number `m` is the first after `i` at which `E` holds. -/
structure FirstAfter (E : ℕ → Prop) (i m : ℕ) : Prop where
  lt : i < m
  holds : E m
  first : ∀ j, i < j → j < m → ¬E j

lemma FirstAfter.unique {E : ℕ → Prop} {i m n : ℕ} (hm : FirstAfter E i m)
    (hn : FirstAfter E i n) : m = n := by
  refine le_antisymm ?_ ?_
  · exact not_lt.1 fun h => hm.first n hn.lt h hn.holds
  · exact not_lt.1 fun h => hn.first m hm.lt h hm.holds

/-- A span that begins at the record `i` ends at the record `m`, if `E` says which records meet
the end of the range. -/
def RangeEnd.Ends (E : ℕ → Prop) (i m : ℕ) : RangeEnd → Prop
  | .address (.line n) => m = max i n
  | .address .last => E i ∧ m = i ∨ ¬E i ∧ FirstAfter E i m
  | .address _ => FirstAfter E i m
  | .following n => m = i + n
  | .multiple 0 => m = i
  | .multiple n => IsLeast {k | i ≤ k ∧ n ∣ k} m

/-- A span of the range from `first` to `stop` begins at a record, if `S` and `E` say which
records meet its start and its end. Only a range that starts before the first record has a span
that begins there, and it has no other. -/
inductive SpanBegins (S E : ℕ → Prop) (first : Address) (stop : RangeEnd) : ℕ → Prop where
  | zero (h : first = .zero) : SpanBegins S E first stop 0
  | first {i : ℕ} (h : first ≠ .zero) (hi : FirstAfter S 0 i) : SpanBegins S E first stop i
  | next {i m j : ℕ} (h : first ≠ .zero) (hi : SpanBegins S E first stop i)
      (hm : stop.Ends E i m) (hj : FirstAfter S m j) : SpanBegins S E first stop j

/-- The record `j` lies in a span, which may have no end. -/
def Selected (S E : ℕ → Prop) (first : Address) (stop : RangeEnd) (j : ℕ) : Prop :=
  ∃ i, SpanBegins S E first stop i ∧ i ≤ j ∧ ∀ m, stop.Ends E i m → j ≤ m

section Spans

variable {S E : ℕ → Prop} {first : Address} {stop : RangeEnd} {i j m n r s : ℕ}

/-- No span ends before it begins. -/
lemma RangeEnd.Ends.le (h : stop.Ends E i m) : i ≤ m := by
  unfold RangeEnd.Ends at h
  split at h
  · exact h ▸ le_max_left _ _
  · obtain ⟨-, rfl⟩ | ⟨-, h⟩ := h
    · exact le_rfl
    · exact h.lt.le
  · exact h.lt.le
  · exact h ▸ Nat.le_add_right _ _
  · exact h.ge
  · exact h.1.1

/-- A span has one end at most. -/
lemma RangeEnd.Ends.unique (hm : stop.Ends E i m) (hn : stop.Ends E i n) : m = n := by
  cases stop with
  | address a =>
      cases a with
      | line k => exact hm.trans hn.symm
      | last =>
          obtain ⟨he, rfl⟩ | ⟨he, hm⟩ := hm <;> obtain ⟨he', rfl⟩ | ⟨he', hn⟩ := hn
          · rfl
          · exact absurd he he'
          · exact absurd he' he
          · exact hm.unique hn
      | pattern | step | zero => exact FirstAfter.unique hm hn
  | following k => exact hm.trans hn.symm
  | multiple k =>
      cases k with
      | zero => exact hm.trans hn.symm
      | succ k => exact IsLeast.unique hm hn

/-- All spans but one that begins before the first record begin where the start is met. -/
lemma SpanBegins.meets (h : SpanBegins S E first stop s) (hs : 0 < s) : S s := by
  cases h with
  | zero => exact absurd hs (lt_irrefl 0)
  | first _ hi => exact hi.holds
  | next _ _ _ hj => exact hj.holds

lemma SpanBegins.pos (h : SpanBegins S E first stop s) (hfirst : first ≠ .zero) : 0 < s := by
  cases h with
  | zero h => exact absurd h hfirst
  | first _ hi => exact hi.lt
  | next _ _ _ hj => exact Nat.zero_lt_of_lt hj.lt

/-- A span ends before a later one begins. -/
lemma SpanBegins.ends_before (hi : SpanBegins S E first stop i) (hj : SpanBegins S E first stop j)
    (hij : i < j) : ∃ m, stop.Ends E i m ∧ m < j := by
  induction j using Nat.strong_induction_on generalizing i with
  | _ j ih =>
    cases hj with
    | zero => exact absurd hij (Nat.not_lt_zero i)
    | first h hj => exact absurd (hi.meets (hi.pos h)) (hj.first i (hi.pos h) hij)
    | @next k m _ h hk hm hj =>
      obtain hik | rfl | hki := lt_trichotomy i k
      · -- The span before the later one is later than `i` too.
        have hkj : k < j := lt_of_le_of_lt hm.le hj.lt
        obtain ⟨n, hn, hnk⟩ := ih k hkj hi hk hik
        exact ⟨n, hn, hnk.trans hkj⟩
      · exact ⟨m, hm, hj.lt⟩
      · -- Between the end of a span and the next beginning the start is not met.
        obtain ⟨n, hn, hni⟩ := ih i hij hk hi hki
        have hmi : m < i := hm.unique hn ▸ hni
        exact absurd (hi.meets (Nat.zero_lt_of_lt hmi)) (hj.first i hmi hij)

/-- No span goes on after the record `r`: none has begun, or the one that began last ended
there. -/
inductive Rests (S E : ℕ → Prop) (first : Address) (stop : RangeEnd) : ℕ → Prop where
  | before (h : first ≠ .zero) : Rests S E first stop 0
  | after {s r : ℕ} (hs : SpanBegins S E first stop s) (hr : stop.Ends E s r) :
      Rests S E first stop r

/-- The next span begins where the start is met next. -/
lemma Rests.begins (h : Rests S E first stop r) (hfirst : first ≠ .zero)
    (hj : FirstAfter S r j) : SpanBegins S E first stop j := by
  cases h with
  | before _ => exact .first hfirst hj
  | after hs hr => exact .next hfirst hs hr hj

/-- A record is not selected if no span goes on after an earlier one and the start was not met
since. -/
lemma Rests.not_selected (h : Rests S E first stop r) (hrj : r < j)
    (hS : ∀ k, r < k → k ≤ j → ¬S k) : ¬Selected S E first stop j := by
  rintro ⟨i, hi, hij, hend⟩
  cases h with
  | before hfirst => exact hS i (hi.pos hfirst) hij (hi.meets (hi.pos hfirst))
  | @after s _ hs hr =>
    obtain his | rfl | hsi := lt_trichotomy i s
    · obtain ⟨m, hm, hms⟩ := hi.ends_before hs his
      have hjm := hend m hm
      have hsr := hr.le
      omega
    · exact absurd (hend r hr) (not_le.2 hrj)
    · obtain ⟨m, hm, hmi⟩ := hs.ends_before hi hsi
      have hri : r < i := hm.unique hr ▸ hmi
      exact hS i hri hij (hi.meets (Nat.zero_lt_of_lt hri))

end Spans

end StreamEditor
