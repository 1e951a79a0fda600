import StreamEditor.Proofs.Editor.Bounds
import StreamEditor.Proofs.Range.Asked
import StreamEditor.Regex.Builtin

/-!
What a range selects in a whole run.

* `Editor.Comes`: the points of a run at which the command with a range is reached; there the
  range is asked, once or more often for every record.
* `Editor.MetAtFirst`: the records that meet an address where the range is first asked about them.
* `Editor.Followed`: where the range stands at a point of the run, and what it has answered.
* `Editor.inRange_iff_selected`: the range includes the records that lie in its spans, and gives
  the same answer whenever it is asked about the same record.
-/

namespace StreamEditor.Editor

/-- After `k` steps the run comes to the command number `index`, and the current record is the
record number `i`. -/
structure Comes (p : Program) (e₀ : Editor) (index k i : ℕ) : Prop where
  stage : (advance p k .reading e₀).1 = .running index
  record : (advance p k .reading e₀).2.recordsRead = i

/-- Where the run first comes to the command on the record number `i`, the record is met. -/
def MetAtFirst (p : Program) (e₀ : Editor) (index : ℕ) (met : Editor → Bool) (i : ℕ) : Prop :=
  ∃ k, Comes p e₀ index k i ∧ (∀ k' < k, ¬Comes p e₀ index k' i) ∧
    met (advance p k .reading e₀).2 = true

/-! ### Records -/

section Records

variable {p : Program} {e₀ : Editor}

lemma recordsRead_mono {k k' : ℕ} (h : k ≤ k') :
    (advance p k .reading e₀).2.recordsRead ≤ (advance p k' .reading e₀).2.recordsRead := by
  obtain ⟨d, rfl⟩ := Nat.exists_eq_add_of_le h
  rw [advance_add]
  exact (moves_advance p d _ _).recordsRead

/-- A cycle begins with one more record, or the run ends. -/
lemma recordsRead_lt_of_reading {e e' : Editor} {index : ℕ}
    (h : (step p .reading).run e = (.ok (.running index), e')) :
    e.recordsRead < e'.recordsRead := by
  rw [step] at h
  have hread := moves_readRecord e
  rcases hrun : readRecord.run e with ⟨failure | record, e₁⟩ <;> rw [hrun] at hread
  · rw [run_bind_of_error hrun] at h
    cases h
  · rw [run_bind_of_ok hrun] at h
    cases record with
    | none => cases h
    | some record =>
        have hbegin := moves_beginCycle ((load record record.content).run e₁).2
        have hrest : beginCycle.run ((load record record.content).run e₁).2
            = (.ok (.running index), e') := h
        rw [hrest] at hbegin
        rw [hbegin.recordsRead, ← hread.recordsRead]
        exact Nat.lt_succ_self _

/-- A command runs on a record that was read. -/
lemma recordsRead_pos {k index : ℕ} (h : (advance p k .reading e₀).1 = .running index) :
    0 < (advance p k .reading e₀).2.recordsRead := by
  induction k generalizing index with
  | zero => cases h
  | succ k ih =>
    rw [advance_succ_last] at h ⊢
    have hmono := (moves_step p (advance p k .reading e₀).1 (advance p k .reading e₀).2).recordsRead
    generalize (advance p k .reading e₀).2 = e at ih hmono h ⊢
    cases hstage : (advance p k .reading e₀).1 with
    | finished result =>
        rw [hstage] at h
        cases h
    | running index' =>
        rw [hstage] at h hmono
        rcases hstep : (step p (.running index')).run e with ⟨failure | stage, e'⟩ <;>
          rw [hstep] at h hmono
        · cases h
        · exact (ih hstage).trans_le hmono
    | reading =>
        rw [hstage] at h hmono
        rcases hstep : (step p .reading).run e with ⟨failure | stage, e'⟩ <;> rw [hstep] at h hmono
        · cases h
        · cases h
          exact Nat.zero_lt_of_lt (recordsRead_lt_of_reading hstep)

end Records

/-! ### Ranges of a program -/

section Slots

variable {p : Program} {index : ℕ} {c : Command} {first : Address} {stop : RangeEnd} {slot : ℕ}

/-- Every range belongs to one command. -/
lemma slot_unique (hp : p.WellFormed) {i j : ℕ} {a b : Command} (ha : p.commands[i]? = some a)
    (hb : p.commands[j]? = some b) (has : a.selection.slot? = some slot)
    (hbs : b.selection.slot? = some slot) : i = j := by
  have hnodup : (p.commands.filterMap (·.selection.slot?)).Nodup := by
    rw [hp.slots]
    exact List.nodup_range
  have hpair := List.pairwise_iff_getElem.1 (List.pairwise_filterMap.1 hnodup)
  obtain ⟨hi, rfl⟩ := List.getElem?_eq_some_iff.1 ha
  obtain ⟨hj, rfl⟩ := List.getElem?_eq_some_iff.1 hb
  obtain hij | hij | hij := lt_trichotomy i j
  · exact absurd rfl (hpair i j hi hj hij slot has slot hbs)
  · exact hij
  · exact absurd rfl (hpair j i hj hi hij slot hbs slot has)

lemma asks_iff (hp : p.WellFormed) (hc : p.commands[index]? = some c)
    (hs : c.selection = .range first stop slot) {stage : Stage} :
    Asks p slot stage ↔ stage = .running index := by
  constructor
  · rintro ⟨i, a, rfl, ha, has⟩
    rw [slot_unique hp ha hc has (by rw [hs]; rfl)]
  · rintro rfl
    exact ⟨index, c, rfl, hc, by rw [hs]; rfl⟩

/-- A range is open at the beginning if it starts before the first record. -/
lemma contains_openSlots (hp : p.WellFormed) (hc : p.commands[index]? = some c)
    (hs : c.selection = .range first stop slot) :
    (openSlots p).contains slot = true ↔ first = .zero := by
  rw [List.contains_iff_mem, openSlots, List.mem_filterMap]
  constructor
  · rintro ⟨a, ha, hslot⟩
    obtain ⟨i, ha⟩ := List.mem_iff_getElem?.1 ha
    split at hslot
    · rename_i stop' slot' hsel
      cases hslot
      have hi : i = index := slot_unique hp ha hc (by rw [hsel]; rfl) (by rw [hs]; rfl)
      rw [hi, hc] at ha
      cases ha
      rw [hsel] at hs
      cases hs
      rfl
    · cases hslot
  · rintro rfl
    exact ⟨c, List.mem_of_getElem? hc, by rw [hs]⟩

end Slots

/-! ### The answers of a run -/

/-- A run over a single stream, and a command of its program that applies to a range. -/
structure RangeRun (p : Program) (e₀ : Editor) (index : ℕ) (c : Command) (first : Address)
    (stop : RangeEnd) (slot : ℕ) : Prop where
  wellFormed : p.WellFormed
  command : p.commands[index]? = some c
  selection : c.selection = .range first stop slot
  single : e₀.options.separate = false
  lineNumber : e₀.lineNumber = e₀.recordsRead
  initial : ∃ active, (active = true ↔ first = .zero) ∧ e₀.ranges[slot]? = some (.initial active)

/-- Where a range stands after `k` steps, and what it has answered. -/
structure Followed (p : Program) (e₀ : Editor) (index : ℕ) (c : Command) (first : Address)
    (stop : RangeEnd) (slot k : ℕ) (st : RangeState) : Prop where
  range : (advance p k .reading e₀).2.ranges[slot]? = some st
  record_le : st.record ≤ (advance p k .reading e₀).2.recordsRead
  /-- The range was not asked about later records. -/
  asked : ∀ k' < k, ∀ i, Comes p e₀ index k' i → i ≤ st.record
  /-- The answer that is remembered was given whenever the range was asked about its record. -/
  answers : ∀ k' < k, ∀ i b, Comes p e₀ index k' i → st.answered = some (i, b) →
    ((inRange c first stop slot).run (advance p k' .reading e₀).2).1 = .ok b
  /-- If the range was asked about every record, and no span ends too late for a line number, its
  answers are right so far. -/
  tracks : (∀ j, 0 < j → j ≤ st.record → ∃ k', Comes p e₀ index k' j) →
    (∀ j ≤ st.record, SpanBegins (MetAtFirst p e₀ index (isMet c first))
      (MetAtFirst p e₀ index (isEndMet c stop)) first stop j → stop.Fits j) →
    Tracks (MetAtFirst p e₀ index (isMet c first)) (MetAtFirst p e₀ index (isEndMet c stop))
        first stop st.record st ∧
      ∀ i b, st.answered = some (i, b) →
        (b = true ↔ Selected (MetAtFirst p e₀ index (isMet c first))
          (MetAtFirst p e₀ index (isEndMet c stop)) first stop i)

section Run

variable {p : Program} {e₀ : Editor} {index : ℕ} {c : Command} {first : Address}
  {stop : RangeEnd} {slot : ℕ} {k i : ℕ} {st : RangeState}

/-- In a single stream the records are numbered as they are read. -/
lemma RangeRun.lineNumber_eq (r : RangeRun p e₀ index c first stop slot) (k : ℕ) :
    (advance p k .reading e₀).2.lineNumber = (advance p k .reading e₀).2.recordsRead := by
  have hsame := (moves_advance p k .reading e₀).lineNumber r.single
  have hbegin := r.lineNumber
  omega

/-- The record meets an address at first if it does where the run first comes to the command. -/
lemma metAtFirst_iff (met : Editor → Bool) (hk : Comes p e₀ index k i)
    (hfirst : ∀ k' < k, ¬Comes p e₀ index k' i) :
    MetAtFirst p e₀ index met i ↔ met (advance p k .reading e₀).2 = true := by
  constructor
  · rintro ⟨k', hk', hfirst', hmet⟩
    obtain hlt | rfl | hlt := lt_trichotomy k k'
    · exact absurd hk (hfirst' k hlt)
    · exact hmet
    · exact absurd hk' (hfirst k' hlt)
  · exact fun hmet => ⟨k, hk, hfirst, hmet⟩

/-- Asked about a record for the first time or again, the range answers whether the record lies in
a span, if it was asked about all records before. -/
lemma Followed.answer (r : RangeRun p e₀ index c first stop slot)
    (h : Followed p e₀ index c first stop slot k st) (hk : Comes p e₀ index k i)
    (hbefore : ∀ j, 0 < j → j < i → ∃ k', Comes p e₀ index k' j)
    (hfits : ∀ j ≤ i, SpanBegins (MetAtFirst p e₀ index (isMet c first))
      (MetAtFirst p e₀ index (isEndMet c stop)) first stop j → stop.Fits j)
    {b : Bool} {e' : Editor}
    (hrun : (inRange c first stop slot).run (advance p k .reading e₀).2 = (.ok b, e')) :
    ∃ st', e'.ranges[slot]? = some st' ∧ st'.answered = some (i, b) ∧
      Tracks (MetAtFirst p e₀ index (isMet c first)) (MetAtFirst p e₀ index (isEndMet c stop))
        first stop i st' ∧
      (b = true ↔ Selected (MetAtFirst p e₀ index (isMet c first))
        (MetAtFirst p e₀ index (isEndMet c stop)) first stop i) := by
  have hpos : 0 < i := hk.record ▸ recordsRead_pos hk.stage
  obtain ⟨hanswered, hrange⟩ | ⟨hnew, hb, hrange⟩ := inRange_spec h.range hrun
  · rw [hk.record] at hanswered
    have hrecord : st.record = i := RangeState.record_of_answered hanswered
    obtain ⟨htracks, hright⟩ := h.tracks (fun j hj hji => by
      obtain hlt | rfl := Nat.lt_or_eq_of_le (hrecord ▸ hji)
      · exact hbefore j hj hlt
      · exact ⟨k, hk⟩) fun j hj => hfits j (hrecord ▸ hj)
    rw [hrecord] at htracks
    exact ⟨st, hrange, hanswered, htracks, hright i b hanswered⟩
  · rw [hk.record] at hnew
    -- The run comes to the command on this record for the first time.
    have hlt : st.record < i := by
      refine lt_of_le_of_ne (hk.record ▸ h.record_le) fun he => ?_
      obtain ⟨answer, hanswer⟩ := st.answered_of_record (he ▸ hpos)
      exact hnew answer (he ▸ hanswer)
    have hfirst : ∀ k' < k, ¬Comes p e₀ index k' i := fun k' hk' hc =>
      absurd (h.asked k' hk' i hc) (not_le.2 hlt)
    -- The range was asked about the record before.
    have hrecord : st.record + 1 = i := by
      obtain rfl | hprev := Nat.eq_or_lt_of_le (Nat.succ_le_of_lt hpos)
      · omega
      · obtain ⟨k', hk'⟩ := hbefore (i - 1) (by omega) (by omega)
        have hk'k : k' < k := by
          by_contra hle
          have hmono : (advance p k .reading e₀).2.recordsRead
              ≤ (advance p k' .reading e₀).2.recordsRead := recordsRead_mono (not_lt.1 hle)
          rw [hk.record, hk'.record] at hmono
          omega
        have := h.asked k' hk'k _ hk'
        omega
    obtain ⟨htracks, -⟩ := h.tracks (fun j hj hji => hbefore j hj (by omega)) fun j hj =>
      hfits j (by omega)
    have hline : (advance p k .reading e₀).2.lineNumber = st.record + 1 := by
      rw [r.lineNumber_eq, hk.record, hrecord]
    have hstarts := (metAtFirst_iff (isMet c first) hk hfirst).symm
    have hends := (metAtFirst_iff (isEndMet c stop) hk hfirst).symm
    rw [← hrecord] at hstarts hends
    have hmoved := htracks.moved (fun hzero => by rw [hzero, isMet_zero]) hstarts hends
      (hfits _ hrecord.le)
    rw [hline] at hb hrange
    rw [hrecord] at hmoved hb hrange
    rw [hk.record] at hrange
    exact ⟨_, hrange, rfl, hmoved.2.answered _, hb ▸ hmoved.1⟩

/-- A step that comes to the command asks its range, and then leaves it alone. -/
lemma inRange_of_step (hc : p.commands[index]? = some c) (hs : c.selection = .range first stop slot)
    {stage : Stage} {e e' : Editor} (h : (step p (.running index)).run e = (.ok stage, e')) :
    ∃ b e₁, (inRange c first stop slot).run e = (.ok b, e₁) ∧
      e'.ranges[slot]? = e₁.ranges[slot]? := by
  have happlies : applies c =
      inRange c first stop slot >>= fun selected => pure (decide (selected ≠ c.negated)) := by
    rw [applies, hs]
  rw [step_of_some hc, happlies, bind_assoc] at h
  rcases hrun : (inRange c first stop slot).run e with ⟨failure | b, e₁⟩
  · rw [run_bind_of_error hrun] at h
    cases h
  · rw [run_bind_of_ok hrun, pure_bind] at h
    have hrest : Moves (Goes fun _ => True)
        (if decide (b ≠ c.negated) then perform c (index + 1) >>= follow
        else pure (.running (skip c (index + 1)))) :=
      Moves.ite ((moves_perform c _).bind fun _ => (moves_follow _).goes) (Moves.pure _)
    have hgoes := hrest e₁
    rw [h] at hgoes
    exact ⟨b, e₁, rfl, hgoes.ranges slot trivial⟩

/-- The range is followed through a step that asks it. -/
lemma Followed.ask (r : RangeRun p e₀ index c first stop slot)
    (h : Followed p e₀ index c first stop slot k st)
    (hasks : (advance p k .reading e₀).1 = .running index) {stage : Stage} {e' : Editor}
    (hstep : (step p (.running index)).run (advance p k .reading e₀).2 = (.ok stage, e'))
    (he' : (advance p (k + 1) .reading e₀).2 = e') :
    ∃ st', Followed p e₀ index c first stop slot (k + 1) st' := by
  have hk : Comes p e₀ index k (advance p k .reading e₀).2.recordsRead := ⟨hasks, rfl⟩
  obtain ⟨b, e₁, hrun, hrange⟩ := inRange_of_step r.command r.selection hstep
  obtain ⟨st', hst', hanswered, hsame⟩ := answered_of_inRange h.range hrun
  have hrecord : st'.record = (advance p k .reading e₀).2.recordsRead :=
    RangeState.record_of_answered hanswered
  exact ⟨st',
    { range := by rw [he', hrange, hst']
      record_le := hrecord ▸ recordsRead_mono k.le_succ
      asked := fun k' hk' i hi => by
        rw [hrecord, ← hi.record]
        exact recordsRead_mono (Nat.lt_succ_iff.1 hk')
      answers := fun k' hk' i answer hi hanswer => by
        rw [hanswered] at hanswer
        cases hanswer
        obtain hlt | rfl := Nat.lt_succ_iff_lt_or_eq.1 hk'
        · -- The range was asked about this record before.
          have hle := h.asked k' hlt _ hi
          have heq : st.record = (advance p k .reading e₀).2.recordsRead :=
            le_antisymm h.record_le hle
          obtain ⟨known, hknown⟩ :=
            st.answered_of_record (heq ▸ recordsRead_pos hasks)
          rw [heq] at hknown
          rw [← hsame known hknown]
          exact h.answers k' hlt _ known hi hknown
        · rw [hrun]
      tracks := fun hall hfits => by
        obtain ⟨st'', hst'', -, htracks, hright⟩ :=
          h.answer r hk (fun j hj hji => hall j hj (by omega)) (fun j hj => hfits j (by omega)) hrun
        rw [hst'] at hst''
        cases hst''
        refine ⟨hrecord ▸ htracks, fun i answer hanswer => ?_⟩
        rw [hanswered] at hanswer
        cases hanswer
        exact hright }⟩

/-- A step that does not ask the range leaves it where it stands. -/
lemma Followed.leave (h : Followed p e₀ index c first stop slot k st)
    (hasks : (advance p k .reading e₀).1 ≠ .running index)
    (hrange : (advance p (k + 1) .reading e₀).2.ranges[slot]? =
      (advance p k .reading e₀).2.ranges[slot]?) :
    Followed p e₀ index c first stop slot (k + 1) st where
  range := hrange.trans h.range
  record_le := h.record_le.trans (recordsRead_mono k.le_succ)
  asked k' hk' i hi := by
    obtain hlt | rfl := Nat.lt_succ_iff_lt_or_eq.1 hk'
    · exact h.asked k' hlt i hi
    · exact absurd hi.stage hasks
  answers k' hk' i b hi := by
    obtain hlt | rfl := Nat.lt_succ_iff_lt_or_eq.1 hk'
    · exact h.answers k' hlt i b hi
    · exact absurd hi.stage hasks
  tracks := h.tracks

/-- The range is followed through one more step, unless that ends the run. -/
lemma Followed.succ (r : RangeRun p e₀ index c first stop slot)
    (h : Followed p e₀ index c first stop slot k st)
    (hgo : ∀ result, (advance p (k + 1) .reading e₀).1 ≠ .finished result) :
    ∃ st', Followed p e₀ index c first stop slot (k + 1) st' := by
  have hlast := advance_succ_last p k .reading e₀
  have hmoves := moves_step p (advance p k .reading e₀).1 (advance p k .reading e₀).2
  rcases hstep : (step p (advance p k .reading e₀).1).run (advance p k .reading e₀).2 with
    ⟨failure | stage, e'⟩ <;> rw [hstep] at hlast hmoves
  · exact absurd (congrArg Prod.fst hlast) (hgo _)
  have he' : (advance p (k + 1) .reading e₀).2 = e' := congrArg Prod.snd hlast
  by_cases hasks : (advance p k .reading e₀).1 = .running index
  · rw [hasks] at hstep
    exact h.ask r hasks hstep he'
  · have hno : ¬Asks p slot (advance p k .reading e₀).1 :=
      fun ha => hasks ((asks_iff r.wellFormed r.command r.selection).1 ha)
    exact ⟨st, h.leave hasks (by rw [he', hmoves.ranges slot hno])⟩

lemma Followed.zero (r : RangeRun p e₀ index c first stop slot) :
    ∃ st, Followed p e₀ index c first stop slot 0 st := by
  obtain ⟨active, hactive, hinitial⟩ := r.initial
  have hzero : first = .zero → ∃ regex, stop = .address (.pattern regex) := by
    have hplaced := r.wellFormed.zero_placed c (List.mem_of_getElem? r.command)
    rw [r.selection] at hplaced
    exact hplaced.2
  exact ⟨.initial active,
    { range := hinitial
      record_le := Nat.zero_le _
      asked := fun k' hk' => absurd hk' (Nat.not_lt_zero k')
      answers := fun k' hk' => absurd hk' (Nat.not_lt_zero k')
      tracks := fun _ _ => ⟨Tracks.initial hactive hzero, fun _ _ h => nomatch h⟩ }⟩

/-- The range is followed as long as the run goes on. -/
lemma followed (r : RangeRun p e₀ index c first stop slot)
    (hgo : ∀ result, (advance p k .reading e₀).1 ≠ .finished result) :
    ∃ st, Followed p e₀ index c first stop slot k st := by
  induction k with
  | zero => exact Followed.zero r
  | succ k ih =>
    have hgo' : ∀ result, (advance p k .reading e₀).1 ≠ .finished result := by
      intro result hfinished
      refine hgo result ?_
      rw [advance_succ_last, hfinished]
      rfl
    obtain ⟨st, h⟩ := ih hgo'
    exact h.succ r hgo

lemma Comes.goes_on (hk : Comes p e₀ index k i) (result : Except Failure ℕ) :
    (advance p k .reading e₀).1 ≠ .finished result := by
  rw [hk.stage]
  exact fun h => nomatch h

/-- What a run begins with is in order. -/
lemma rangeRun_of_start (hp : p.WellFormed) (hc : p.commands[index]? = some c)
    (hs : c.selection = .range first stop slot) {o : Options} {input : Input} {sink : Sink}
    {env : Environment} (hsingle : o.separate = false)
    (he : (start? p o input sink env).1 = .ok e₀) : RangeRun p e₀ index c first stop slot := by
  obtain ⟨writers, storage, -, rfl⟩ := start?_eq_ok he
  refine ⟨hp, hc, hs, hsingle, rfl, (openSlots p).contains slot, contains_openSlots hp hc hs, ?_⟩
  have hslot : slot < p.rangeCount := by
    have hmem : slot ∈ p.commands.filterMap (·.selection.slot?) :=
      List.mem_filterMap.2 ⟨c, List.mem_of_getElem? hc, by rw [hs]; rfl⟩
    rwa [hp.slots, List.mem_range] at hmem
  simp [hslot]

end Run

/-- A range selects exactly its spans. Whenever a run over a single stream comes to the command of
the range on the same record, the range gives the same answer. If the run has come to the command
on every record before, and no line number overflows, the range includes a record if and only if
the record lies in a span. -/
theorem inRange_iff_selected [Regex.Library] (script : Script) (options : Options) (p : Program)
    (hp : Program.parse script options = .ok p) (index : ℕ) (c : Command) (first : Address)
    (stop : RangeEnd) (slot : ℕ) (hc : p.commands[index]? = some c)
    (hs : c.selection = .range first stop slot) (o : Options) (hsingle : o.separate = false)
    (input : Input) (sink : Sink) (env : Environment) (e₀ : Editor)
    (he : (start? p o input sink env).1 = .ok e₀) :
    (∀ k k' i, k < k' → Comes p e₀ index k i → Comes p e₀ index k' i →
      ∃ b, ((inRange c first stop slot).run (advance p k .reading e₀).2).1 = .ok b ∧
        ((inRange c first stop slot).run (advance p k' .reading e₀).2).1 = .ok b) ∧
    ∀ k i b, Comes p e₀ index k i → (∀ j, 0 < j → j < i → ∃ k', Comes p e₀ index k' j) →
      (∀ j ≤ i, SpanBegins (MetAtFirst p e₀ index (isMet c first))
        (MetAtFirst p e₀ index (isEndMet c stop)) first stop j → stop.Fits j) →
      ((inRange c first stop slot).run (advance p k .reading e₀).2).1 = .ok b →
      (b = true ↔ Selected (MetAtFirst p e₀ index (isMet c first))
        (MetAtFirst p e₀ index (isEndMet c stop)) first stop i) := by
  have r := rangeRun_of_start (Program.wellFormed_of_parse hp) hc hs hsingle he
  refine ⟨fun k k' i hlt hk hk' => ?_, fun k i b hk hbefore hfits hanswer => ?_⟩
  · obtain ⟨st, h⟩ := followed r hk'.goes_on
    have hi : st.record = i := le_antisymm (hk'.record ▸ h.record_le) (h.asked k hlt i hk)
    have hpos : 0 < i := hk.record ▸ recordsRead_pos hk.stage
    obtain ⟨b, hb⟩ := st.answered_of_record (hi ▸ hpos)
    rw [hi] at hb
    refine ⟨b, h.answers k hlt i b hk hb, ?_⟩
    rw [inRange_of_answered h.range (by rw [hk'.record, hb])]
  · obtain ⟨st, h⟩ := followed r hk.goes_on
    obtain ⟨_, -, -, -, hright⟩ := h.answer r hk hbefore hfits (Prod.ext hanswer rfl)
    exact hright

/-- The second of three records lies in the span from the second to the third. -/
theorem inRange_iff_selected_lines :
    ∃ p c e₀,
      Program.parse (.ofText (Text.ofString "2,3p")) .standard = .ok p ∧
      p.commands[0]? = some c ∧ c.selection = .range (.line 2) (.address (.line 3)) 0 ∧
      (start? p .standard (.ofFiles [['f']] 10 false) .unlimited
        (.start ⟨[([['f']], [97, 10, 98, 10, 99, 10])], [], []⟩)).1 = .ok e₀ ∧
      Comes p e₀ 0 4 2 ∧
      Selected (MetAtFirst p e₀ 0 (isMet c (.line 2)))
        (MetAtFirst p e₀ 0 (isEndMet c (.address (.line 3)))) (.line 2) (.address (.line 3)) 2 := by
  obtain ⟨p, c, e₀, hp, hc, hs, he, hfirst, hsecond, hanswer⟩ : ∃ p c e₀,
      Program.parse (.ofText (Text.ofString "2,3p")) .standard = .ok p ∧
      p.commands[0]? = some c ∧ c.selection = .range (.line 2) (.address (.line 3)) 0 ∧
      (start? p .standard (.ofFiles [['f']] 10 false) .unlimited
        (.start ⟨[([['f']], [97, 10, 98, 10, 99, 10])], [], []⟩)).1 = .ok e₀ ∧
      Comes p e₀ 0 1 1 ∧ Comes p e₀ 0 4 2 ∧
      ((inRange c (.line 2) (.address (.line 3)) 0).run (advance p 4 .reading e₀).2).1
        = .ok true :=
    ⟨⟨[⟨'p', .range (.line 2) (.address (.line 3)) 0, false, .print,
        ⟨Text.ofString "2,3p", 1, 4⟩⟩], [], [], 1, false⟩, _,
      { options := .standard
        environment := .start ⟨[([['f']], [97, 10, 98, 10, 99, 10])], [], []⟩
        input := .ofFiles [['f']] 10 false
        output := .toSink .unlimited 10 false
        writers := []
        lineReaders := []
        lineNumber := 0
        recordsRead := 0
        fileIndex := 0
        pattern := []
        terminated := true
        hold := []
        ranges := [.initial false]
        substituted := false
        queue := []
        lastRegex := none },
      rfl, rfl, rfl, rfl, ⟨rfl, rfl⟩, ⟨rfl, rfl⟩, rfl⟩
  have hbefore : ∀ j, 0 < j → j < 2 → ∃ k', Comes p e₀ 0 k' j := by
    intro j hj hj2
    obtain rfl : j = 1 := by omega
    exact ⟨1, hfirst⟩
  have hspans := inRange_iff_selected _ _ p hp 0 c _ _ _ hc hs .standard rfl _ _ _ e₀ he
  have hends := hspans.2 4 2 true hsecond hbefore (fun _ _ _ => trivial) hanswer
  exact ⟨p, c, e₀, hp, hc, hs, he, hsecond, hends.1 rfl⟩

end StreamEditor.Editor
