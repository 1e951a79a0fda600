import StreamEditor.Proofs.Editor.Cycles
import StreamEditor.Proofs.Editor.Requests
import StreamEditor.Proofs.Range.Asked

/-!
The records of a single stream that meet the start and the end of a range.

* `Address.Meets`, `RangeEnd.Meets`: which records do, said of the records alone.
* `Editor.OnRecord`: the current record is one of the stream. `Editor.meets_iff`: looked at there,
  it meets an address just if it is said to.
* `Editor.Recalls`: what the expression used last can be between two cycles, if nothing but a range
  uses expressions.
* `Editor.Spanned`: where the range stands between two cycles. `Editor.Spanned.inRange`: asked about
  the next record the range answers whether this lies in a span, and then stands where it should.
-/

namespace StreamEditor

/-- The record number `i` meets an address; `last` is the expression used last. -/
def Address.Meets (records : List Record) (last : Option Regex) (i : ℕ) : Address → Prop
  | .line number => i = number
  | .last => i = records.length
  | .pattern regex => ∃ j r re, i = j + 1 ∧ records[j]? = some r ∧ regex.or last = some re ∧
      re.isMatch r.content = .ok true
  | .step first 0 => i = first
  | .step first every => first ≤ i ∧ (i - first) % every = 0
  | .zero => False

/-- The record number `i` meets the end of a range; a number of records is met by none. -/
def RangeEnd.Meets (records : List Record) (last : Option Regex) (i : ℕ) : RangeEnd → Prop
  | .address a => a.Meets records last i
  | .following _ | .multiple _ => False

/-- The record number `i` meets the start of a range. An empty start has nothing to search for. -/
def RangeStarts (records : List Record) (first : Address) (i : ℕ) : Prop :=
  first.Meets records none i

/-- The record number `i` meets the end of a range. An empty end searches for what the start
does. -/
def RangeEnds (records : List Record) (first : Address) (stop : RangeEnd) (i : ℕ) : Prop :=
  stop.Meets records first.request?.join i

/-- Of what the record meets, only that matters which a range looks for where it stands. -/
lemma RangeState.moved_congr {st : RangeState} {stop : RangeEnd} {starts starts' ends ends' : Bool}
    (hstarts : st.active = false → starts = starts')
    (hends : st.active = true → st.lastLine = none → (∃ a, stop = .address a) → ends = ends')
    (hlast : st.active = false → stop = .address .last → ends = ends') (line : ℕ) :
    st.moved stop line starts ends = st.moved stop line starts' ends' := by
  cases hactive : st.active with
  | true =>
      cases hknown : st.lastLine with
      | some last => rw [moved_of_known hactive hknown, moved_of_known hactive hknown]
      | none =>
          cases stop with
          | address a => rw [hends hactive hknown ⟨a, rfl⟩]; simp [moved, hactive, hknown]
          | following | multiple => simp [moved, hactive, hknown]
  | false =>
      have hknown : stop.knownEnd line ends = stop.knownEnd line ends' := by
        rcases stop with a | n | n
        · cases a with
          | last => rw [hlast hactive rfl]
          | _ => rfl
        · rfl
        · cases n <;> rfl
      rw [moved_of_inactive hactive, moved_of_inactive hactive, hstarts hactive, hknown]

namespace Editor

/-! ### The current record -/

/-- The current record is the one after the first `n` records of a single stream. -/
structure OnRecord (all : List Delivery) (n : ℕ) (e : Editor) : Prop where
  stands : e.input.Stands all (n + 1) e.environment
  single : e.input.separate = false
  lineNumber : e.lineNumber = n + 1
  pattern : ∃ d, all[n]? = some d ∧ e.pattern = d.record.content

section OnRecord

variable {c : Command} {a first : Address} {stop : RangeEnd} {all : List Delivery} {n : ℕ}
  {e e' : Editor} {b : Bool} {last : Option Regex}

lemma OnRecord.lt (h : OnRecord all n e) : n < all.length := by
  obtain ⟨d, hd, -⟩ := h.pattern
  exact (List.getElem?_eq_some_iff.1 hd).1

/-- The pattern space is searched for the expression of an address, or else the one used last. -/
lemma exists_match_of_meets {regex : Option Regex}
    (hrun : (meets c (.pattern regex)).run e = (.ok b, e')) :
    ∃ re, regex.or e.lastRegex = some re ∧ re.isMatch e.pattern = .ok b := by
  rw [meets, run_get_bind] at hrun
  obtain ⟨re, e₁, hresolve, hsearch⟩ := run_bind_eq_ok hrun
  rw [resolve, run_get_bind] at hresolve
  cases hre : regex.or e.lastRegex with
  | none =>
      rw [hre] at hresolve
      cases hresolve
  | some re' =>
      rw [hre] at hresolve
      cases hresolve
      rw [run_get_bind] at hsearch
      dsimp only at hsearch
      cases hmatch : re.isMatch e.pattern with
      | error _ =>
          rw [hmatch] at hsearch
          cases hsearch
      | ok found =>
          rw [hmatch] at hsearch
          cases hsearch
          exact ⟨re, rfl, hmatch⟩

/-- Looked at, the current record meets an address if it is said to meet it. -/
lemma meets_iff (h : OnRecord all n e) (hlast : a.request? = some none → e.lastRegex = last)
    (hrun : (meets c a).run e = (.ok b, e')) :
    b = true ↔ a.Meets (all.map (·.record)) last (n + 1) := by
  have hline := h.lineNumber
  cases a with
  | line number =>
      cases hrun
      rw [decide_eq_true_iff, hline]
      exact Iff.rfl
  | last =>
      obtain ⟨e₁, hat, -⟩ := run_atLast_of_joined h.stands h.single
      change atLast.run e = (.ok b, e') at hrun
      rw [hat] at hrun
      cases hrun
      have hlt := h.lt
      rw [decide_eq_true_iff, Address.Meets, List.length_map]
      omega
  | pattern regex =>
      obtain ⟨d, hd, hpattern⟩ := h.pattern
      have hsame : regex.or e.lastRegex = regex.or last := by
        cases regex with
        | none => rw [hlast rfl]
        | some re => rfl
      obtain ⟨re, hre, hmatch⟩ := exists_match_of_meets hrun
      rw [hsame] at hre
      rw [hpattern] at hmatch
      have hrecord : (all.map (·.record))[n]? = some d.record := by
        rw [List.getElem?_map, hd]
        rfl
      constructor
      · rintro rfl
        exact ⟨n, d.record, re, rfl, hrecord, hre, hmatch⟩
      · rintro ⟨j, r, re', hj, hr, hre', hmatch'⟩
        obtain rfl : n = j := Nat.succ.inj hj
        obtain rfl := Option.some.inj (hrecord.symm.trans hr)
        obtain rfl := Option.some.inj (hre'.symm.trans hre)
        rw [hmatch] at hmatch'
        exact Except.ok.inj hmatch'
  | step first step =>
      cases step with
      | zero =>
          cases hrun
          rw [decide_eq_true_iff, hline]
          exact Iff.rfl
      | succ step =>
          cases hrun
          rw [Bool.and_eq_true, decide_eq_true_iff, decide_eq_true_iff, hline]
          exact Iff.rfl
  | zero =>
      cases hrun
      exact iff_of_false Bool.false_ne_true id

end OnRecord

/-! ### The expression used last -/

/-- What is used last between two cycles, if a range is all that uses expressions. An empty start
has found nothing to search for, and an empty end searches for what the start does. -/
structure Recalls (first : Address) (stop : RangeEnd) (active : Bool) (last : Option Regex) :
    Prop where
  start : first.request? = some none → last = none ∧ active = false
  stop : ∀ a, stop = .address a → a.request? = some none → last = none ∨ last = first.request?.join

section Recalls

variable {c : Command} {first : Address} {stop : RangeEnd} {slot : ℕ} {st st' : RangeState}
  {last : Option Regex} {e e' : Editor} {b : Bool} {all : List Delivery} {n : ℕ}

lemma rangeRequest?_of_inactive (h : st.active = false) :
    rangeRequest? first stop st = first.request? := by
  unfold rangeRequest?
  rw [if_neg (by simp [h])]

lemma rangeRequest?_of_known {line : ℕ} (h : st.active = true) (hknown : st.lastLine = some line) :
    rangeRequest? first stop st = none := by
  unfold rangeRequest?
  rw [if_pos h, hknown]

lemma rangeRequest?_of_searching {a : Address} (h : st.active = true) (hnone : st.lastLine = none) :
    rangeRequest? first (.address a) st = a.request? := by
  unfold rangeRequest?
  rw [if_pos h, hnone]

/-- What the range asks for is found, so it is remembered in its turn. -/
lemma Recalls.remembered (h : Recalls first stop st.active last)
    (hfound : ¬(last = none ∧ rangeRequest? first stop st = some none)) (active : Bool) :
    Recalls first stop active (remembered last (rangeRequest? first stop st).toList) := by
  have hstart : first.request? ≠ some none := fun hnone => by
    obtain ⟨hlast, hactive⟩ := h.start hnone
    exact hfound ⟨hlast, by rw [rangeRequest?_of_inactive hactive, hnone]⟩
  refine ⟨fun hnone => absurd hnone hstart, fun a ha hnone => ?_⟩
  have hkept := h.stop a ha hnone
  cases hactive : st.active with
  | true =>
      -- Only the empty end can be asked for, which leaves what is remembered as it is.
      cases hknown : st.lastLine with
      | some _ =>
          rw [rangeRequest?_of_known hactive hknown]
          exact hkept
      | none =>
          rw [ha, rangeRequest?_of_searching hactive hknown, hnone]
          exact hkept
  | false =>
      rw [rangeRequest?_of_inactive hactive]
      cases hrequest : first.request? with
      | none =>
          rw [hrequest] at hkept
          exact hkept
      | some regex =>
          cases regex with
          | none => exact absurd hrequest hstart
          | some re => exact .inr rfl

/-- A range that has been asked has looked at the record for what it needed. -/
lemma ok_of_advanceRange {r : Bool × RangeState}
    (hrun : (advanceRange c first stop st).run e = (.ok r, e')) :
    (st.active = false → ∃ met e₁, (meets c first).run e = (.ok met, e₁)) ∧
      (st.active = true → st.lastLine = none → ∀ a, stop = .address a →
        ∃ met e₁, (meets c a).run e = (.ok met, e₁)) := by
  rw [advanceRange, run_get_bind] at hrun
  dsimp only at hrun
  refine ⟨fun hactive => ?_, fun hactive hnone a ha => ?_⟩
  · rw [hactive, if_neg Bool.false_ne_true] at hrun
    obtain ⟨met, e₁, hmeets, -⟩ := run_bind_eq_ok hrun
    exact ⟨met, e₁, hmeets⟩
  · subst ha
    rw [hactive, if_pos rfl, hnone] at hrun
    obtain ⟨met, e₁, hmeets, -⟩ := run_bind_eq_ok hrun
    exact ⟨met, e₁, hmeets⟩

open Classical in
/-- A range moves on by which records are said to meet its start and its end. -/
lemma advanceRange_eq_of_onRecord (hon : OnRecord all n e)
    (hrecalls : Recalls first stop st.active e.lastRegex)
    (hfound : ¬(e.lastRegex = none ∧ rangeRequest? first stop st = some none))
    (hrun : (advanceRange c first stop st).run e = (.ok (b, st'), e')) :
    (b, st') = st.moved stop (n + 1)
      (decide (RangeStarts (all.map (·.record)) first (n + 1)))
      (decide (RangeEnds (all.map (·.record)) first stop (n + 1))) := by
  obtain ⟨hstart, hstop⟩ := ok_of_advanceRange hrun
  have hmet {a : Address} {last : Option Regex} {met : Bool} {e₁ : Editor}
      (hlast : a.request? = some none → e.lastRegex = last)
      (hmeets : (meets c a).run e = (.ok met, e₁)) :
      isMet c a e = decide (a.Meets (all.map (·.record)) last (n + 1)) := by
    rw [isMet_of_run hmeets, Bool.eq_iff_iff, decide_eq_true_iff]
    exact meets_iff hon hlast hmeets
  rw [advanceRange_eq hrun, hon.lineNumber]
  refine RangeState.moved_congr (fun hactive => ?_) (fun hactive hnone haddress => ?_)
    (fun hactive hlast => ?_) _
  · obtain ⟨met, e₁, hmeets⟩ := hstart hactive
    exact hmet (fun hnone => (hrecalls.start hnone).1) hmeets
  · obtain ⟨a, rfl⟩ := haddress
    obtain ⟨met, e₁, hmeets⟩ := hstop hactive hnone a rfl
    refine hmet (fun hempty => ?_) hmeets
    refine (hrecalls.stop a rfl hempty).resolve_left fun hlast => hfound ⟨hlast, ?_⟩
    rw [rangeRequest?_of_searching hactive hnone, hempty]
  · subst hlast
    obtain ⟨e₁, hat, -⟩ := run_atLast_of_joined hon.stands hon.single
    exact @hmet .last first.request?.join _ _ (fun hempty => nomatch hempty) hat

end Recalls

/-! ### Spans -/

/-- After the first `n` records the range stands where its spans say, and it can only have asked for
its own expressions. -/
def Spanned (S E : ℕ → Prop) (first : Address) (stop : RangeEnd) (slot n : ℕ) (e : Editor) : Prop :=
  ∃ st, e.ranges[slot]? = some st ∧ st.record ≤ n ∧ Tracks S E first stop n st ∧
    Recalls first stop st.active e.lastRegex

section Spanned

variable {c : Command} {first : Address} {stop : RangeEnd} {slot : ℕ} {e e' : Editor} {b : Bool}
  {all : List Delivery} {n : ℕ}

/-- Asked about the next record, the range answers whether it lies in a span. -/
lemma Spanned.inRange
    (h : Spanned (RangeStarts (all.map (·.record)) first)
      (RangeEnds (all.map (·.record)) first stop) first stop slot n e)
    (hon : OnRecord all n e) (hcount : e.recordsRead = n + 1)
    (hfits : SpanBegins (RangeStarts (all.map (·.record)) first)
      (RangeEnds (all.map (·.record)) first stop) first stop (n + 1) → stop.Fits (n + 1))
    (hrun : (inRange c first stop slot).run e = (.ok b, e')) :
    (b = true ↔ Selected (RangeStarts (all.map (·.record)) first)
        (RangeEnds (all.map (·.record)) first stop) first stop (n + 1)) ∧
      Spanned (RangeStarts (all.map (·.record)) first) (RangeEnds (all.map (·.record)) first stop)
        first stop slot (n + 1) e' := by
  classical
  obtain ⟨st, hst, hrecord, htracks, hrecalls⟩ := h
  have hnew : ∀ answer, st.answered ≠ some (e.recordsRead, answer) := fun answer hanswered => by
    have hle : e.recordsRead ≤ n := RangeState.record_of_answered hanswered ▸ hrecord
    omega
  rw [inRange_of_new hst hnew] at hrun
  obtain ⟨-, hrange⟩ := moved_spec hst hrun
  rw [inRange.moved] at hrun
  obtain ⟨⟨answer, st'⟩, e₁, hadvance, hrest⟩ := run_bind_eq_ok hrun
  obtain ⟨hremembers, hlacks⟩ := asks_advanceRange c first stop st e
  rw [hadvance] at hremembers hlacks
  have hfound : ¬(e.lastRegex = none ∧ rangeRequest? first stop st = some none) := by
    rintro ⟨hlast, hasked⟩
    obtain ⟨failure, hfailed, -⟩ := hlacks.2 ⟨hlast, by rw [hasked]; rfl⟩
    cases hfailed
  have hmoved := @Tracks.moved _ _ _ _ _ _
    (decide (RangeStarts (all.map (·.record)) first (n + 1)))
    (decide (RangeEnds (all.map (·.record)) first stop (n + 1))) htracks
    (fun hzero => by subst hzero; exact decide_eq_false id) decide_eq_true_iff decide_eq_true_iff
    hfits
  rw [← advanceRange_eq_of_onRecord hon hrecalls hfound hadvance] at hmoved
  rw [← advanceRange_eq hadvance] at hrange
  cases hrest
  refine ⟨hmoved.1, _, hrange, ?_, hmoved.2.answered _, ?_⟩
  · rw [RangeState.record_of_answered rfl, hcount]
  · have hlast := hrecalls.remembered hfound st'.active
    rw [← hremembers] at hlast
    exact hlast

end Spanned

end Editor

end StreamEditor
