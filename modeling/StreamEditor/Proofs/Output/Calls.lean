import StreamEditor.Proofs.Output.Replayed
import StreamEditor.Proofs.Output.Resumed

/-!
Outputs that are written to and flushed in any order.

* `Output.Write.joined`: what writes come to, one after the other. A separator stands between a
  record that lacks it and whatever is written next.
* `Output.perform`: writes and flushes, one after the other, up to the first that fails.
* `Output.perform_of_takes`: none fails as long as the sink has room for what the writes come to,
  and that is what is written.
* `Output.delivered_closed`: so it is what has been delivered in the end, whether the output is
  buffered or not and wherever it was flushed.
* `Output.waiting_unbuffered`: what an output still holds that should hold nothing.
-/

namespace StreamEditor

namespace Sink

/-- The sink has room for `n` more bytes. -/
def Takes (s : Sink) (n : ℕ) : Prop := ∀ m, s.room = some m → n ≤ m

end Sink

namespace Output

/-! ### Writes -/

namespace Write

/-- The bytes of a write by itself. -/
def bytes (separator : UInt8) : Write → Bytes
  | record text terminated => Text.utf8 text ++ if terminated then [separator] else []
  | line text => Text.utf8 text ++ [10]
  | raw data => data

/-- True for a record without its separator. -/
def lacksSeparator : Write → Bool
  | record _ terminated => !terminated
  | line _ | raw _ => false

/-- True for bytes that are written as they are. -/
def isRaw : Write → Bool
  | raw _ => true
  | record _ _ | line _ => false

/-- The bytes of writes one after the other, the first of them after `before`, if there is one. The
separator that a record lacks is written before the next write, and only then. -/
def joined (separator : UInt8) : Option Write → List Write → Bytes
  | _, [] => []
  | before, w :: rest =>
      (if before.any lacksSeparator then [separator] else []) ++ w.bytes separator ++
        joined separator (some w) rest

/-- The last write, after a first one. -/
lemma getLast?_cons_or (w : Write) (ws : List Write) (before : Option Write) :
    (w :: ws).getLast?.or before = ws.getLast?.or (some w) := by
  rw [List.getLast?_cons]
  cases ws.getLast? <;> rfl

lemma joined_append (separator : UInt8) (before : Option Write) (ws ws' : List Write) :
    joined separator before (ws ++ ws') =
      joined separator before ws ++ joined separator (ws.getLast?.or before) ws' := by
  induction ws generalizing before with
  | nil => rfl
  | cons w ws ih =>
      rw [List.cons_append, joined, ih, getLast?_cons_or, joined]
      simp only [List.append_assoc]

/-- One after the other, writes come to no less than their bytes. -/
lemma length_flatten_le_joined (separator : UInt8) (before : Option Write) (ws : List Write) :
    (ws.map (·.bytes separator)).flatten.length ≤ (joined separator before ws).length := by
  induction ws generalizing before with
  | nil => exact le_rfl
  | cons w ws ih =>
      have hrest := ih (some w)
      rw [List.map_cons, List.flatten_cons, joined]
      simp only [List.length_append]
      omega

/-- They come to nothing but their bytes just if no record lacks its separator but the last one. -/
lemma joined_eq_flatten_iff (separator : UInt8) (before : Option Write) (ws : List Write) :
    joined separator before ws = (ws.map (·.bytes separator)).flatten ↔
      ∀ w ∈ (before.toList ++ ws).dropLast, w.lacksSeparator = false := by
  induction ws generalizing before with
  | nil => cases before <;> simp [joined]
  | cons w ws ih =>
      have hrest := ih (some w)
      have hfront : (before.toList ++ w :: ws).dropLast = before.toList ++ (w :: ws).dropLast :=
        List.dropLast_append_of_ne_nil (List.cons_ne_nil _ _)
      rw [hfront, List.forall_mem_append, joined, List.map_cons, List.flatten_cons]
      by_cases hlacks : before.any lacksSeparator = true
      · refine iff_of_false (fun heq => ?_) (fun hall => ?_)
        · have hlength := congrArg List.length heq
          have hle := length_flatten_le_joined separator (some w) ws
          rw [if_pos hlacks] at hlength
          simp only [List.length_append, List.length_singleton] at hlength
          omega
        · cases before with
          | none => cases hlacks
          | some v =>
              exact absurd hlacks (Bool.eq_false_iff.1 (hall.1 v (List.mem_singleton.2 rfl)))
      · rw [if_neg hlacks, List.nil_append, List.append_cancel_left_eq, hrest]
        refine (and_iff_right fun v hv => ?_).symm
        obtain rfl := Option.mem_toList.1 hv
        exact Bool.eq_false_iff.2 hlacks

/-- A write comes past the separator that the record before lacks. -/
lemma attempt_of_room {o : Output} (h : o.sink.room = none) (w : Write) :
    ∃ sink waiting, w.attempt o =
        ({ o with sink, waiting, unterminated := w.lacksSeparator }, none) ∧
      sink.room = none ∧ sink.delivered ++ waiting = o.resumed ++ w.bytes o.separator := by
  cases w with
  | record text terminated => exact writeRecord_of_room h text terminated
  | line text => exact writeText_of_room h text
  | raw data => exact writeRaw_of_room h data

end Write

/-! ### Calls -/

/-- What is done with an output. -/
inductive Call where
  | write (w : Write)
  | flush
  deriving DecidableEq, Repr

namespace Call

/-- Does one thing with an output. -/
def attempt : Call → Output → Attempt
  | write w, o => w.attempt o
  | flush, o => o.flush

/-- The write that a call is, if it is one. -/
def write? : Call → Option Write
  | write w => some w
  | flush => none

lemma steady_attempt (n : ℕ) (fault : Fault) (c : Call) : Steady n fault c.attempt := by
  cases c with
  | write w => exact w.steady_attempt n fault
  | flush => exact steady_flush

end Call

/-- The writes among calls. -/
def writes (calls : List Call) : List Write := calls.filterMap Call.write?

@[simp] lemma writes_map (ws : List Write) : writes (ws.map .write) = ws := by
  rw [writes, List.filterMap_map]
  exact List.filterMap_some

/-- Does one thing after the other, up to the first that fails. -/
def perform (o : Output) (calls : List Call) : Attempt :=
  calls.foldl (fun a c => a.andThen c.attempt) (o, none)

lemma perform_concat (o : Output) (calls : List Call) (c : Call) :
    o.perform (calls ++ [c]) = (o.perform calls).andThen c.attempt := by
  rw [perform, List.foldl_append]
  rfl

lemma perform_cons {o o' : Output} {c : Call} (h : c.attempt o = (o', none)) (calls : List Call) :
    o.perform (c :: calls) = o'.perform calls := by
  have hfirst : Attempt.andThen (o, none) c.attempt = (o', none) := h
  rw [perform, List.foldl_cons, hfirst]
  rfl

lemma perform_append {o o' : Output} {calls : List Call} (h : o.perform calls = (o', none))
    (calls' : List Call) : o.perform (calls ++ calls') = o'.perform calls' := by
  rw [perform] at h
  rw [perform, List.foldl_append, h]
  rfl

lemma steady_perform (n : ℕ) (fault : Fault) (calls : List Call) :
    Steady n fault (·.perform calls) := by
  induction calls using List.reverseRecOn with
  | nil => exact steady_nothing
  | append_singleton calls c ih =>
      have hboth := ih.andThen (c.steady_attempt n fault)
      simpa only [perform_concat] using hboth

/-- What is done with an output that takes any number of bytes: nothing fails, and the writes are
written one after the other. -/
lemma perform_of_room {o : Output} (h : o.sink.room = none) {before : Option Write}
    (hbefore : o.unterminated = before.any Write.lacksSeparator) (calls : List Call) :
    ∃ sink waiting, o.perform calls = ({ o with
        sink, waiting
        unterminated := ((writes calls).getLast?.or before).any Write.lacksSeparator }, none) ∧
      sink.room = none ∧
      sink.delivered ++ waiting = o.written ++ Write.joined o.separator before (writes calls) := by
  -- The write before decides whether a separator is still owed to the next one.
  induction calls generalizing o before with
  | nil =>
      refine ⟨o.sink, o.waiting, ?_, h, (List.append_nil _).symm⟩
      show (o, none) = _
      simp [writes, ← hbefore]
  | cons c calls ih =>
      cases c with
      | flush =>
          obtain ⟨sink, hflush, hroom, hwritten⟩ := flush_of_room h
          obtain ⟨sink', waiting', hrest, hroom', hwritten'⟩ :=
            @ih { o with sink, waiting := [] } hroom before hbefore
          refine ⟨sink', waiting', ?_, hroom', ?_⟩
          · rw [perform_cons (c := .flush) hflush, hrest]
            rfl
          · rw [hwritten', written, hwritten, List.append_nil]
            rfl
      | write w =>
          obtain ⟨sink, waiting, hfirst, hroom, hwritten⟩ := w.attempt_of_room h
          obtain ⟨sink', waiting', hrest, hroom', hwritten'⟩ :=
            @ih { o with sink, waiting, unterminated := w.lacksSeparator } hroom (some w) rfl
          have hwrites : writes (.write w :: calls) = w :: writes calls := rfl
          refine ⟨sink', waiting', ?_, hroom', ?_⟩
          · rw [perform_cons (c := .write w) hfirst, hrest, hwrites, Write.getLast?_cons_or]
          · rw [hwritten', written, hwritten, resumed, hbefore, hwrites, Write.joined]
            simp only [List.append_assoc]

/-- What writes come to is written, one after the other. -/
lemma written_after {o : Output} (h : o.sink.room = none) {before : Option Write}
    (hbefore : o.unterminated = before.any Write.lacksSeparator) (ws : List Write) :
    (o.after ws).written = o.written ++ Write.joined o.separator before ws := by
  induction ws generalizing o before with
  | nil => exact (List.append_nil _).symm
  | cons w ws ih =>
      obtain ⟨sink, waiting, hfirst, hroom, hwritten⟩ := w.attempt_of_room h
      have hrest := @ih { o with sink, waiting, unterminated := w.lacksSeparator } hroom
          (some w) rfl
      have hafter : o.after (w :: ws) =
          { o with sink, waiting, unterminated := w.lacksSeparator }.after ws := by
        rw [after, List.foldl_cons, hfirst]
        rfl
      rw [hafter, hrest, written, hwritten, resumed, hbefore, Write.joined]
      simp only [List.append_assoc]

/-- As long as the sink has room for what waits and what is written, it makes no difference that it
takes only so many bytes. -/
lemma perform_of_takes {o : Output} {before : Option Write}
    (hbefore : o.unterminated = before.any Write.lacksSeparator) (calls : List Call)
    (htakes : o.sink.Takes
      (o.waiting.length + (Write.joined o.separator before (writes calls)).length)) :
    ∃ o₁ sink, { o with sink := { o.sink with room := none } }.perform calls = (o₁, none) ∧
      o.perform calls = ({ o₁ with sink }, none) ∧ sink.delivered = o₁.sink.delivered := by
  obtain ⟨sink₁, waiting₁, hrun, -, hwritten⟩ :=
    @perform_of_room { o with sink := { o.sink with room := none } } rfl before hbefore calls
  cases hr : o.sink.room with
  | none =>
      have hself : { o with sink := { o.sink with room := none } } = o := by rw [← hr]
      exact ⟨_, sink₁, hrun, by rw [← hrun, hself], rfl⟩
  | some m =>
      -- The sink is one that takes any number of bytes, cut off where its room ends.
      have hcapped : { o with sink := { o.sink with room := none } }.capped
          (m + o.sink.delivered.length) o.sink.fault = o := by
        rw [capped, Sink.capped]
        dsimp only
        rw [Nat.add_sub_cancel, ← hr]
      have hfits : Fits (m + o.sink.delivered.length)
          { o with sink := { o.sink with room := none } } := ⟨rfl, Nat.le_add_left _ _⟩
      obtain ⟨-, heq⟩ | ⟨hcut, -⟩ := (steady_perform _ o.sink.fault calls).follows _ hfits
      · rw [hcapped, hrun] at heq
        exact ⟨_, _, hrun, heq, rfl⟩
      · have hmore := hcut.length
        rw [hrun] at hmore
        dsimp only at hmore
        have hall := congrArg List.length hwritten
        simp only [written, List.length_append] at hall
        have hroom := htakes m hr
        omega

/-- What has been written is what the writes come to. -/
lemma written_perform {o : Output} {before : Option Write}
    (hbefore : o.unterminated = before.any Write.lacksSeparator) (calls : List Call)
    (htakes : o.sink.Takes
      (o.waiting.length + (Write.joined o.separator before (writes calls)).length)) :
    ∃ o', o.perform calls = (o', none) ∧
      o'.written = o.written ++ Write.joined o.separator before (writes calls) := by
  obtain ⟨o₁, sink, hrun, hlimited, hsame⟩ := perform_of_takes hbefore calls htakes
  obtain ⟨sink₁, waiting₁, hrun₁, -, hwritten⟩ :=
    @perform_of_room { o with sink := { o.sink with room := none } } rfl before hbefore calls
  obtain rfl := congrArg Prod.fst (hrun.symm.trans hrun₁)
  refine ⟨_, hlimited, ?_⟩
  rw [written, hsame, hwritten]
  rfl

/-! ### Closed outputs -/

/-- After a flush nothing waits. -/
lemma waiting_andThen_flush {a : Attempt} (h : (a.andThen flush).2 = none) :
    (a.andThen flush).1.waiting = [] := by
  obtain ⟨o, _ | fault⟩ := a
  · exact waiting_flush h
  · cases h

/-- When an output is closed all that was written to it has been delivered: the bytes of each write,
after the separator that the write before lacks. They are the same whether the output is buffered or
not, and wherever it was flushed. -/
theorem delivered_closed (sink : Sink) (separator : UInt8) (unbuffered : Bool) (calls : List Call)
    (htakes : sink.Takes (Write.joined separator none (writes calls)).length) :
    ∃ o, (toSink sink separator unbuffered).perform (calls ++ [.flush]) = (o, none) ∧
      o.sink.delivered = sink.delivered ++ Write.joined separator none (writes calls) ∧
      ∀ (unbuffered' : Bool) (calls' : List Call), writes calls' = writes calls →
        ∃ o', (toSink sink separator unbuffered').perform (calls' ++ [.flush]) = (o', none) ∧
          o'.sink.delivered = o.sink.delivered := by
  have hclosed (unbuffered : Bool) (calls : List Call)
      (htakes : sink.Takes (Write.joined separator none (writes calls)).length) :
      ∃ o, (toSink sink separator unbuffered).perform (calls ++ [.flush]) = (o, none) ∧
        o.sink.delivered = sink.delivered ++ Write.joined separator none (writes calls) := by
    have hwrites : writes (calls ++ [.flush]) = writes calls := by simp [writes, Call.write?]
    obtain ⟨o, hrun, hwritten⟩ :=
      @written_perform (toSink sink separator unbuffered) none rfl (calls ++ [.flush]) (by
        rw [hwrites]
        simpa [toSink] using htakes)
    refine ⟨o, hrun, ?_⟩
    have hlast : ((toSink sink separator unbuffered).perform calls).andThen flush = (o, none) := by
      rw [← hrun, perform_concat]
      rfl
    have hwaiting : o.waiting = [] := by
      have hflushed := waiting_andThen_flush (congrArg Prod.snd hlast)
      rwa [hlast] at hflushed
    rw [hwrites] at hwritten
    simpa [written, hwaiting, toSink] using hwritten
  obtain ⟨o, hrun, hdelivered⟩ := hclosed unbuffered calls htakes
  refine ⟨o, hrun, hdelivered, fun unbuffered' calls' hwrites => ?_⟩
  obtain ⟨o', hrun', hdelivered'⟩ := hclosed unbuffered' calls' (by rwa [hwrites])
  exact ⟨o', hrun', by rw [hdelivered', hdelivered, hwrites]⟩

/-- Two records that lack their separators, and a text, written to a sink with just enough room. -/
theorem delivered_closed_restored :
    (Sink.limited 6 .noSpace).Takes (Write.joined 10 none (writes [.write (.record ['a'] false),
      .flush, .write (.record ['b'] false), .write (.line ['c'])])).length ∧
    ∃ o, (toSink (.limited 6 .noSpace) 10 false).perform ([.write (.record ['a'] false), .flush,
        .write (.record ['b'] false), .write (.line ['c'])] ++ [.flush]) = (o, none) ∧
      o.sink.delivered = [97, 10, 98, 10, 99, 10] := by
  have htakes : (Sink.limited 6 .noSpace).Takes (Write.joined 10 none (writes
      [.write (.record ['a'] false), .flush, .write (.record ['b'] false),
        .write (.line ['c'])])).length := fun m hm => by
    cases hm
    decide
  obtain ⟨o, hrun, hdelivered, -⟩ := delivered_closed (.limited 6 .noSpace) 10 false _ htakes
  exact ⟨htakes, o, hrun, hdelivered⟩

/-! ### Unbuffered outputs -/

/-- Nothing waits after an unbuffered output is settled. -/
lemma waiting_andThen_settle {a : Attempt} (hfine : (a.andThen settle).2 = none)
    (hunbuffered : (a.andThen settle).1.unbuffered = true) : (a.andThen settle).1.waiting = [] := by
  obtain ⟨o, _ | fault⟩ := a
  · change o.settle.2 = none at hfine
    change o.settle.1.unbuffered = true at hunbuffered
    change o.settle.1.waiting = []
    rw [settle] at hfine hunbuffered ⊢
    split at hfine
    · rename_i h
      rw [if_pos h]
      exact waiting_flush hfine
    · rename_i h
      rw [if_neg h] at hunbuffered
      exact absurd hunbuffered h
  · cases hfine

section Room

variable {o : Output} (h : o.sink.room = none)

include h

/-- A record or a text written to an unbuffered output is delivered, and so is all that waited. -/
lemma waiting_attempt {w : Write} (hunbuffered : o.unbuffered = true) (hw : w.isRaw = false) :
    (w.attempt o).1.waiting = [] := by
  obtain ⟨sink, waiting, hattempt, -, -⟩ := w.attempt_of_room h
  have hfine : (w.attempt o).2 = none := by rw [hattempt]
  have hstays : (w.attempt o).1.unbuffered = true := by
    rw [hattempt]
    exact hunbuffered
  cases w with
  | record | line => exact waiting_andThen_settle hfine hstays
  | raw data => cases hw

/-- Bytes that are added wait, unless there are too many of them. -/
lemma waiting_put (data : Bytes) :
    (o.put data).1.waiting = [] ↔ capacity ≤ data.length ∨ o.waiting = [] ∧ data = [] := by
  rw [put]
  split
  · rename_i hfits
    rw [Bool.and_eq_true, decide_eq_true_eq] at hfits
    simp [hold, Nat.not_le.2 hfits.1]
  · rename_i hfits
    obtain ⟨sink, hflush, hroom, -⟩ := flush_of_room h
    rw [hflush, Attempt.andThen]
    have hne : data ≠ [] := by
      rintro rfl
      exact hfits (by simp [capacity])
    split
    · rename_i hlt
      simp [hold, Nat.not_le.2 hlt, hne]
    · rename_i hlt
      simp [deliver, Nat.not_lt.1 hlt]

/-- Bytes that are written as they are wait, and so does a separator restored before them. -/
lemma waiting_writeRaw (data : Bytes) :
    (o.writeRaw data).1.waiting = [] ↔
      capacity ≤ data.length ∨ (o.waiting = [] ∧ o.unterminated = false) ∧ data = [] := by
  rw [writeRaw, restore]
  cases hu : o.unterminated with
  | false =>
      simp only [Bool.false_eq_true, if_false, and_true]
      exact waiting_put h data
  | true =>
      obtain ⟨sink, waiting, hput, hroom, -⟩ := put_of_room h [o.separator]
      have hwaits := waiting_put h [o.separator]
      rw [hput] at hwaits
      rw [if_pos rfl, hput, Attempt.andThen, Attempt.andThen]
      have hne : waiting ≠ [] := fun hnil => by
        have := hwaits.1 hnil
        simp [capacity] at this
      rw [waiting_put (o := { o with sink, waiting, unterminated := false }) hroom]
      simp [hne]

end Room

/-- The pieces that are put to an output when bytes are written as they are after `before`: the
separator that it lacks, if it does, and then the bytes of each write. -/
def rawPieces (separator : UInt8) (before : Option Write) : List Bytes → List Bytes
  | [] => []
  | raws => (if before.any Write.lacksSeparator then [[separator]] else []) ++ raws

/-- The last of the pieces that is not empty, if there is one, is too long to wait. -/
def FillsLast (pieces : List Bytes) : Prop :=
  ∀ piece, (pieces.filter (· ≠ [])).getLast? = some piece → capacity ≤ piece.length

lemma fillsLast_concat (pieces : List Bytes) (data : Bytes) :
    FillsLast (pieces ++ [data]) ↔ capacity ≤ data.length ∨ FillsLast pieces ∧ data = [] := by
  by_cases hdata : data = []
  · simp [FillsLast, hdata, capacity]
  · simp [FillsLast, hdata]

/-- Bytes that are written as they are, one after the other, wait until some are too long. -/
lemma waiting_raws {o : Output} (h : o.sink.room = none) {before : Option Write}
    (hbefore : o.unterminated = before.any Write.lacksSeparator) (hw : o.waiting = [])
    (raws : List Bytes) :
    (o.perform ((raws.map Write.raw).map .write)).1.waiting = [] ↔
      FillsLast (rawPieces o.separator before raws) := by
  induction raws using List.reverseRecOn with
  | nil => simp [perform, hw, rawPieces, FillsLast]
  | append_singleton raws data ih =>
      obtain ⟨sink, waiting, hrun, hroom, -⟩ :=
        perform_of_room h hbefore ((raws.map Write.raw).map .write)
      have hpieces : rawPieces o.separator before (raws ++ [data]) =
          (if before.any Write.lacksSeparator then [[o.separator]] else []) ++ raws ++ [data] := by
        cases raws with
        | nil => rw [List.append_nil]; rfl
        | cons _ _ => exact (List.append_assoc ..).symm
      -- Only the first of the writes finds a separator to restore.
      have hstands : waiting = [] ∧ ((raws.map Write.raw).getLast?.or before).any
          Write.lacksSeparator = false ↔
          FillsLast ((if before.any Write.lacksSeparator then [[o.separator]] else []) ++
            raws) := by
        rw [hrun] at ih
        cases hlast : raws.getLast? with
        | none =>
            obtain rfl := List.getLast?_eq_none_iff.1 hlast
            have hsame : waiting = [] := (congrArg (·.1.waiting) hrun).symm.trans hw
            cases hlacks : before.any Write.lacksSeparator <;>
              simp [hsame, hlacks, FillsLast, capacity]
        | some last =>
            obtain ⟨r, rs, rfl⟩ := List.exists_cons_of_ne_nil
              (List.ne_nil_of_mem (List.mem_of_getLast? hlast))
            rw [List.getLast?_map, hlast]
            exact (and_iff_left rfl).trans ih
      rw [List.map_append, List.map_append, List.map_singleton, List.map_singleton, perform_concat,
        hrun, hpieces, fillsLast_concat, ← hstands]
      change (writeRaw _ data).1.waiting = [] ↔ _
      rw [waiting_writeRaw hroom, writes_map]

/-- After a record or a text nothing waits in an unbuffered output. -/
lemma waiting_front {o : Output} (h : o.sink.room = none) {before : Option Write}
    (hbefore : o.unterminated = before.any Write.lacksSeparator) (hw : o.waiting = [])
    (hunbuffered : o.unbuffered = true) {front : List Write}
    (hfront : ∀ w, front.getLast? = some w → w.isRaw = false) :
    (o.perform (front.map .write)).1.waiting = [] := by
  cases front using List.reverseRecOn with
  | nil => exact hw
  | append_singleton front w =>
      obtain ⟨sink, waiting, hrun, hroom, -⟩ := perform_of_room h hbefore (front.map .write)
      rw [List.map_append, List.map_singleton, perform_concat, hrun]
      exact waiting_attempt hroom hunbuffered (hfront w List.getLast?_concat)

/-- An unbuffered output holds back only bytes that were written as they are, since the last record
or text. -/
lemma perform_unbuffered {o : Output} (h : o.sink.room = none) (hfresh : o.unterminated = false)
    (hw : o.waiting = []) (hunbuffered : o.unbuffered = true) {front : List Write}
    (hfront : ∀ w, front.getLast? = some w → w.isRaw = false) (raws : List Bytes) :
    ∃ o₁, o.perform ((front ++ raws.map Write.raw).map .write) = (o₁, none) ∧
      o₁.written = o.written ++ Write.joined o.separator none (front ++ raws.map Write.raw) ∧
      o.written ++ Write.joined o.separator none front <+: o₁.sink.delivered ∧
      (o₁.waiting = [] ↔ FillsLast (rawPieces o.separator front.getLast? raws)) := by
  have hbefore : o.unterminated = (none : Option Write).any Write.lacksSeparator := hfresh
  obtain ⟨sink, waiting, hrun, hroom, hwritten⟩ := perform_of_room h hbefore (front.map .write)
  have hwaiting : waiting = [] := by
    have hnone := waiting_front h hbefore hw hunbuffered hfront
    rwa [hrun] at hnone
  subst hwaiting
  rw [writes_map, Option.or_none] at hrun
  rw [writes_map, List.append_nil] at hwritten
  obtain ⟨sink₁, waiting₁, hrun₁, -, hwritten₁⟩ := perform_of_room
    (o := { o with
      sink, waiting := [], unterminated := front.getLast?.any Write.lacksSeparator }) hroom rfl
    ((raws.map Write.raw).map .write)
  have hall := perform_append hrun ((raws.map Write.raw).map .write)
  rw [← List.map_append, hrun₁] at hall
  refine ⟨_, hall, ?_, ?_, ?_⟩
  · rw [written, hwritten₁, writes_map, written, List.append_nil, hwritten, Write.joined_append,
      List.append_assoc, Option.or_none]
  · have hgrows := (steady_perform 0 .noSpace ((raws.map Write.raw).map .write)).grows
      { o with sink, waiting := [], unterminated := front.getLast?.any Write.lacksSeparator }
    rw [← hwritten]
    simpa only [hrun₁] using hgrows.delivered
  · have hraws := waiting_raws (o := { o with
      sink, waiting := [], unterminated := front.getLast?.any Write.lacksSeparator }) hroom rfl rfl
      raws
    rwa [hrun₁] at hraws

/-- An unbuffered output whose sink has room holds back only bytes that were written as they are,
since the last record or text. All has been delivered just if there are none of them, or if the last
of them are too many to wait. -/
theorem waiting_unbuffered (sink : Sink) (separator : UInt8) (front : List Write)
    (raws : List Bytes) (hfront : ∀ w, front.getLast? = some w → w.isRaw = false)
    (htakes : sink.Takes (Write.joined separator none (front ++ raws.map Write.raw)).length) :
    ∃ o, (toSink sink separator true).perform ((front ++ raws.map Write.raw).map .write) =
        (o, none) ∧
      o.sink.delivered ++ o.waiting =
        sink.delivered ++ Write.joined separator none (front ++ raws.map Write.raw) ∧
      sink.delivered ++ Write.joined separator none front <+: o.sink.delivered ∧
      (o.waiting = [] ↔ FillsLast (rawPieces separator front.getLast? raws)) := by
  obtain ⟨o, hrun, hwritten, hfirst, hwaiting⟩ :=
    @perform_unbuffered { toSink sink separator true with sink := { sink with room := none } }
      rfl rfl rfl rfl front hfront raws
  obtain ⟨o₁, sink₁, hrun₁, hlimited, hsame⟩ := @perform_of_takes (toSink sink separator true) none
    rfl ((front ++ raws.map Write.raw).map .write) (by
      rw [writes_map]
      simpa [toSink] using htakes)
  obtain rfl : o₁ = o := congrArg Prod.fst (hrun₁.symm.trans hrun)
  refine ⟨_, hlimited, ?_, ?_, hwaiting⟩
  · rw [hsame]
    simpa [written, toSink] using hwritten
  · rw [hsame]
    simpa [written, toSink] using hfirst

/-- A record without its separator is delivered, and the bytes after it wait. -/
theorem waiting_unbuffered_record :
    (∀ w, [Write.record ['a'] false].getLast? = some w → w.isRaw = false) ∧
    (Sink.limited 3 .noSpace).Takes
      (Write.joined 10 none ([Write.record ['a'] false] ++ [[98]].map Write.raw)).length ∧
    ∃ o, (toSink (.limited 3 .noSpace) 10 true).perform
        (([Write.record ['a'] false] ++ [[98]].map Write.raw).map .write) = (o, none) ∧
      [97] <+: o.sink.delivered ∧ o.waiting ≠ [] := by
  have hfront (w : Write) (hw : [Write.record ['a'] false].getLast? = some w) :
      w.isRaw = false := by
    cases hw
    rfl
  have htakes : (Sink.limited 3 .noSpace).Takes (Write.joined 10 none
      ([Write.record ['a'] false] ++ [[98]].map Write.raw)).length := fun m hm => by
    cases hm
    decide
  obtain ⟨o, hrun, -, hfirst, hwaiting⟩ :=
    waiting_unbuffered (.limited 3 .noSpace) 10 [.record ['a'] false] [[98]] hfront htakes
  have hshort : ¬FillsLast (rawPieces 10 [Write.record ['a'] false].getLast? [[98]]) := by
    simp [FillsLast, rawPieces, Write.lacksSeparator, capacity]
  exact ⟨hfront, htakes, o, hrun, hfirst, fun hnil => hshort (hwaiting.1 hnil)⟩

/-- An unbuffered output takes a byte without a fault and delivers nothing. -/
theorem waiting_unbuffered_raw :
    ∃ o, (toSink .unlimited 10 true).perform [.write (.raw [120])] = (o, none) ∧
      o.written = [120] ∧ o.sink.delivered = [] :=
  ⟨_, rfl, rfl, rfl⟩

end Output

end StreamEditor
