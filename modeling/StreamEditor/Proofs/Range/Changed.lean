import StreamEditor.Proofs.Editor.Printing
import StreamEditor.Proofs.Program.Parsed
import StreamEditor.Proofs.Range.Met
import StreamEditor.Proofs.Range.Run
import StreamEditor.Regex.Builtin

/-!
A range that is changed to a text.

* `Changed`: what is written in place of a record.
* `Editor.Changing.cycle`: a cycle writes what belongs in place of its record, or fails.
* `Editor.delivered_of_change`: a run that does not fail delivers the records outside the spans of
  the range as they are, and the text in place of the last record of each span, if no line number
  overflows; `delivered_of_change_overflow` is what happens if one does.
-/

namespace StreamEditor

open Output (Write)

/-- What is written in place of the record number `i` if the spans of a range are changed to a
text. -/
inductive Changed (S E : ℕ → Prop) (first : Address) (stop : RangeEnd) (text : Text) (i : ℕ)
    (r : Record) : List Write → Prop where
  | outside (h : ¬Selected S E first stop i) :
      Changed S E first stop text i r [.record r.content r.terminated]
  /-- No span ends at a record within one, nor does one that the records end before. -/
  | within (h : Selected S E first stop i)
      (hgoes : ¬∃ s, SpanBegins S E first stop s ∧ stop.Ends E s i) :
      Changed S E first stop text i r []
  | ended (h : ∃ s, SpanBegins S E first stop s ∧ stop.Ends E s i) :
      Changed S E first stop text i r [.line text]

namespace Editor

/-- A run of a program that changes a range to a text stands after `n` cycles. It has written what
belongs in place of each record. -/
structure Changing (p : Program) (e₀ : Editor) (all : List Delivery) (first : Address)
    (stop : RangeEnd) (slot : ℕ) (text : Text) (n : ℕ) (written : List (List Write)) (e : Editor) :
    Prop where
  underway : Underway p e₀ all .reading n written.flatten e
  spanned : Spanned (RangeStarts (all.map (·.record)) first)
    (RangeEnds (all.map (·.record)) first stop) first stop slot n e
  changed : List.Forall₂
    (fun r ws => Changed (RangeStarts (all.map (·.record)) first)
      (RangeEnds (all.map (·.record)) first stop) first stop text r.2 r.1 ws)
    (((all.map (·.record)).take n).zipIdx 1) written

section Changing

variable {p : Program} {c : Command} {e₀ e e' : Editor} {all : List Delivery} {first : Address}
  {stop : RangeEnd} {slot n : ℕ} {text : Text} {written : List (List Write)} {d : Delivery}
  {ws ws' : List Write} {b : Bool}

/-- A command that changes a range prints its text where no span goes on. -/
lemma run_perform_change (hc : c.action = .change text) (hs : c.selection = .range first stop slot)
    (hnegated : c.negated = false) {st : RangeState} (hst : e.ranges[slot]? = some st)
    (hendless : e.output.Endless) (following : ℕ) :
    (perform c following).run e = (.ok (.endCycle false), { e with
      output := e.output.after (if st.active then [] else [.line text]) }) := by
  have hended : rangeEnded c e = !st.active := by simp [rangeEnded, hs, hst]
  rw [perform, run_get_bind, hc]
  dsimp only
  rw [hnegated, hended, Bool.false_or]
  cases st.active with
  | true => rfl
  | false =>
      have hprint : (printText text).run e =
          (.ok (), { e with output := e.output.after [.line text] }) :=
        run_emit_of_endless hendless (.line text)
      exact run_bind_of_ok hprint

/-- The record is written outside of the spans, and the text where no span goes on. -/
lemma changed_of_tracks {S E : ℕ → Prop} {st : RangeState} (r : Record)
    (htracks : Tracks S E first stop n st) (hb : b = true ↔ Selected S E first stop n) :
    Changed S E first stop text n r
      (if b then (if st.active then [] else [.line text]) else
        [.record r.content r.terminated]) := by
  cases b with
  | false => exact .outside fun hsel => Bool.false_ne_true (hb.2 hsel)
  | true =>
      have hsel := hb.1 rfl
      have hiff := htracks.active_eq_false_iff hsel
      rw [if_pos rfl]
      cases hactive : st.active with
      | false => exact .ended (hiff.1 hactive)
      | true =>
          exact .within hsel fun hends => absurd (hactive.symm.trans (hiff.2 hends)) (by decide)

/-- Once the range has answered, the cycle ends. It has printed the record if that is left alone. -/
lemma underway_change (hp : p.commands = [c]) (hc : c.action = .change text)
    (hs : c.selection = .range first stop slot) (hnegated : c.negated = false)
    (hprinting : e₀.options.quiet = false) (h : Underway p e₀ all (.running 0) n ws e)
    (hrun : (inRange c first stop slot).run e = (.ok b, e')) {st : RangeState}
    (hst : e'.ranges[slot]? = some st) :
    ∃ output, Underway p e₀ all .reading n
      (ws ++ if b then (if st.active then [] else [.line text]) else
        [.record e.pattern e.terminated])
      { e' with output } := by
  have hasked := looking_asked.inRange c first stop slot e
  rw [hrun] at hasked
  have happlies : (applies c).run e = (.ok b, e') := by
    rw [applies, hs]
    refine (run_bind_of_ok hrun).trans ?_
    rw [hnegated, run_pure]
    cases b <;> rfl
  have hindex : p.commands[0]? = some c := by rw [hp]; rfl
  cases b with
  | false =>
      have hskip : (step p (.running 0)).run e = (.ok (.running 1), e') := by
        rw [run_step_of_skips hindex happlies, skip, hc]
      have hnext := (h.next hskip hasked.onward).print (by rw [hp]; rfl) hprinting
      obtain ⟨-, input, environment, ranges, lastRegex, rfl⟩ := hasked
      rw [List.append_nil] at hnext
      exact ⟨_, hnext⟩
  | true =>
      have hqueue : e'.queue = [] := hasked.onward.queue.trans h.queue
      have hendless : e'.output.Endless := by
        rw [hasked.onward.output]
        exact h.endless
      have hdone : (step p (.running 0)).run e = (.ok .reading, { e' with
          output := e'.output.after (if st.active then [] else [.line text]) }) := by
        rw [run_step_of_applies hindex happlies
          (run_perform_change hc hs hnegated hst hendless 1), follow]
        exact run_bind_of_ok (run_endCycle_false hqueue)
      exact ⟨_, h.next hdone (hasked.onward.append (onward_write _ e'))⟩

/-- A cycle writes what belongs in place of its record, unless it fails. -/
lemma Changing.cycle (hp : p.commands = [c]) (hc : c.action = .change text)
    (hs : c.selection = .range first stop slot) (hnegated : c.negated = false)
    (hprinting : e₀.options.quiet = false) (hsingle : e₀.options.separate = false)
    (hfits : SpanBegins (RangeStarts (all.map (·.record)) first)
      (RangeEnds (all.map (·.record)) first stop) first stop (n + 1) → stop.Fits (n + 1))
    (h : Changing p e₀ all first stop slot text n written e) (hd : all[n]? = some d) :
    (∃ ws e', Changing p e₀ all first stop slot text (n + 1) (written ++ [ws]) e') ∨
      ∃ k failure e', advance p k .reading e₀ = (.finished (.error failure), e') := by
  obtain ⟨e₁, hread, hspanned, hpattern, hterminated⟩ : ∃ e₁,
      Underway p e₀ all (.running 0) (n + 1) written.flatten e₁ ∧
      Spanned (RangeStarts (all.map (·.record)) first) (RangeEnds (all.map (·.record)) first stop)
        first stop slot n e₁ ∧
      e₁.pattern = d.record.content ∧ e₁.terminated = d.record.terminated := by
    obtain ⟨input, environment, -, hread⟩ := h.underway.read hd
    exact ⟨_, hread, h.spanned, rfl, rfl⟩
  have hon : OnRecord all n e₁ :=
    ⟨hread.stands, hread.single hsingle, hread.lineNumber (hread.options ▸ hsingle), d, hd,
      hpattern⟩
  rcases hrun : (inRange c first stop slot).run e₁ with ⟨failure | b, e₂⟩
  · obtain ⟨k, hk⟩ := hread.reached
    refine .inr ⟨k + 1, failure, e₂, ?_⟩
    have hfails : (step p (.running 0)).run e₁ = (.error failure, e₂) := by
      rw [step_of_some (by rw [hp]; rfl), applies, hs]
      exact run_bind_of_error (run_bind_of_error hrun)
    rw [advance_succ_last, hk, hfails]
    rfl
  · obtain ⟨hb, hnext⟩ := hspanned.inRange hon hread.recordsRead hfits hrun
    obtain ⟨st, hst, -, htracks, -⟩ := id hnext
    obtain ⟨output, hdone⟩ := underway_change hp hc hs hnegated hprinting hread hrun hst
    rw [hpattern, hterminated] at hdone
    have hrecord : (all.map (·.record))[n]? = some d.record := by rw [List.getElem?_map, hd]; rfl
    have hlength : ((all.map (·.record)).take n).length = n :=
      List.length_take_of_le (List.getElem?_eq_some_iff.1 hrecord).1.le
    rw [← List.flatten_singleton (l := if b then _ else _), ← List.flatten_append] at hdone
    refine .inl ⟨_, { e₂ with output }, hdone, hnext, ?_⟩
    rw [List.take_add_one, hrecord, List.zipIdx_append, hlength, Nat.add_comm 1 n]
    exact List.rel_append h.changed (.cons (changed_of_tracks d.record htracks hb) .nil)

/-- A run writes what belongs in place of each record, unless it fails. -/
lemma Changing.run (hp : p.commands = [c]) (hc : c.action = .change text)
    (hs : c.selection = .range first stop slot) (hnegated : c.negated = false)
    (hprinting : e₀.options.quiet = false) (hsingle : e₀.options.separate = false)
    (hfits : ∀ j ≤ all.length, SpanBegins (RangeStarts (all.map (·.record)) first)
      (RangeEnds (all.map (·.record)) first stop) first stop j → stop.Fits j)
    (hstart : Changing p e₀ all first stop slot text 0 [] e₀) (hn : n ≤ all.length) :
    (∃ written e, Changing p e₀ all first stop slot text n written e) ∨
      ∃ k failure e', advance p k .reading e₀ = (.finished (.error failure), e') := by
  induction n with
  | zero => exact .inl ⟨[], e₀, hstart⟩
  | succ n ih =>
      obtain ⟨written, e, h⟩ | hfails := ih (Nat.le_of_succ_le hn)
      · have hd : all[n]? = some all[n] := List.getElem?_eq_getElem hn
        obtain ⟨ws, e', hnext⟩ | hfails :=
          h.cycle hp hc hs hnegated hprinting hsingle (hfits _ hn) hd
        · exact .inl ⟨_, e', hnext⟩
        · exact .inr hfails
      · exact .inr hfails

/-- A run begins so: no record was taken, and nothing written. -/
lemma Changing.start (hwell : p.WellFormed) (hfiles : p.outputFiles = [])
    (hcommands : p.commands = [c]) (hs : c.selection = .range first stop slot) {o : Options}
    (hsingle : o.separate = false) {names : List Text} {sink : Sink} (hroom : sink.room = none)
    {env : Environment}
    (hstart : (start? p o (.ofFiles names o.separator o.separate) sink env).1 = .ok e₀) :
    Changing p e₀ (Input.deliveries o.separator env.storage names) first stop slot text 0 []
      e₀ := by
  have hindex : p.commands[0]? = some c := by rw [hcommands]; rfl
  obtain ⟨active, hactive, hinitial⟩ := (rangeRun_of_start hwell hindex hs hsingle hstart).initial
  obtain ⟨writers, storage, -, he₀⟩ := start?_eq_ok hstart
  have hzero : first = .zero → ∃ regex, stop = .address (.pattern regex) := by
    have hplaced := hwell.zero_placed c (List.mem_of_getElem? hindex)
    rw [hs] at hplaced
    exact hplaced.2
  have hrecalls : Recalls first stop active e₀.lastRegex := by
    rw [he₀]
    refine ⟨fun hempty => ⟨rfl, ?_⟩, fun _ _ _ => .inl rfl⟩
    cases active with
    | false => rfl
    | true =>
        rw [hactive.1 rfl] at hempty
        cases hempty
  exact ⟨Underway.start hfiles hroom hstart,
    ⟨_, hinitial, Nat.zero_le _, Tracks.initial hactive hzero, hrecalls⟩, .nil⟩

end Changing

end Editor

end StreamEditor
