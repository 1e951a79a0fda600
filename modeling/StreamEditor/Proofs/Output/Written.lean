import Mathlib.Tactic
import StreamEditor.Writer

/-!
What is written to an output that takes any number of bytes.

* `Output.Clear`: writing cannot fail, and the last record has its separator.
* `Output.Adds`: an attempt that succeeds and leaves more bytes written. Attempts that are made
  one after the other add their bytes in this order (`Output.Adds.andThen`).
* `Output.After`: the same is written to two outputs, to one of them after other bytes.
* `Writer.flushAll_of_idle`: writers for which nothing waits.
-/

namespace StreamEditor

namespace Output

/-- The output takes any number of bytes, and the last record written to it has its separator. -/
structure Clear (o : Output) : Prop where
  room : o.sink.room = none
  complete : o.unterminated = false

/-- The attempt succeeds, and after it `data` is written past all that was written to `o`. -/
structure Adds (o : Output) (data : Bytes) (a : Attempt) : Prop where
  fault : a.2 = none
  clear : a.1.Clear
  separator : a.1.separator = o.separator
  written : a.1.written = o.written ++ data

section Adds

variable {o : Output} {data more : Bytes} {a : Attempt} {f : Output → Attempt}

lemma Adds.andThen_eq (h : Adds o data a) : a.andThen f = f a.1 := by
  obtain ⟨o', fault⟩ := a
  cases h.fault
  rfl

lemma Adds.andThen (h : Adds o data a) (hf : ∀ o' : Output, o'.Clear →
    o'.separator = o.separator → Adds o' more (f o')) : Adds o (data ++ more) (a.andThen f) := by
  have hmore := hf a.1 h.clear h.separator
  rw [h.andThen_eq]
  exact
    { fault := hmore.fault
      clear := hmore.clear
      separator := hmore.separator.trans h.separator
      written := by rw [hmore.written, h.written, List.append_assoc] }

/-- Nothing is left of what is delivered. -/
lemma take_of_room {s : Sink} (h : s.room = none) (data : Bytes) :
    s.take data = ({ s with delivered := s.delivered ++ data }, []) := by
  rw [Sink.take, h]

/-- A sink only ever takes more. -/
lemma delivered_take_prefix (s : Sink) (data : Bytes) :
    s.delivered <+: (s.take data).1.delivered := by
  rw [Sink.take]
  cases s.room <;> exact List.prefix_append _ _

lemma Clear.adds_nothing (h : o.Clear) : Adds o [] (o, none) :=
  ⟨rfl, h, rfl, (List.append_nil _).symm⟩

lemma Clear.adds_hold (h : o.Clear) (data : Bytes) : Adds o data (o.hold data, none) :=
  ⟨rfl, ⟨h.room, h.complete⟩, rfl, written_hold data o⟩

lemma Clear.adds_deliver (h : o.Clear) (hw : o.waiting = []) (data : Bytes) :
    Adds o data (o.deliver data) := by
  have hfault : (o.deliver data).2 = none := by
    rw [deliver, take_of_room h.room]
    rfl
  have hroom : (o.deliver data).1.sink.room = none := by
    rw [deliver, take_of_room h.room]
    exact h.room
  exact ⟨hfault, ⟨hroom, h.complete⟩, rfl, written_deliver hw hfault⟩

lemma Clear.adds_flush (h : o.Clear) : Adds o [] o.flush := by
  have hfault : o.flush.2 = none := by
    rw [flush, take_of_room h.room]
    rfl
  have hroom : o.flush.1.sink.room = none := by
    rw [flush, take_of_room h.room]
    exact h.room
  have hwritten : o.flush.1.written = o.written ++ [] := by
    rw [List.append_nil]
    exact written_flush o
  exact ⟨hfault, ⟨hroom, h.complete⟩, rfl, hwritten⟩

/-- Where nothing waits nothing can fail. -/
lemma flush_of_idle (h : o.waiting = []) : o.flush.2 = none := by
  rw [flush, h, Sink.take]
  cases o.sink.room with
  | none => rfl
  | some n =>
      dsimp only
      rw [List.drop_nil]
      rfl

/-- In the end all that was written is delivered. -/
lemma Clear.delivered_flush (h : o.Clear) : o.flush.1.sink.delivered = o.written := by
  rw [flush, take_of_room h.room]
  rfl

lemma Clear.adds_put (h : o.Clear) (data : Bytes) : Adds o data (o.put data) := by
  rw [put]
  split
  · exact h.adds_hold data
  · have hflush := h.adds_flush
    have hw : o.flush.1.waiting = [] := waiting_flush hflush.fault
    rw [hflush.andThen_eq]
    have hput : Adds o.flush.1 data (if data.length < capacity then (o.flush.1.hold data, none)
        else o.flush.1.deliver data) := by
      split
      · exact hflush.clear.adds_hold data
      · exact hflush.clear.adds_deliver hw data
    exact { hput with written := by rw [hput.written, hflush.written, List.append_nil] }

lemma Clear.adds_restore (h : o.Clear) : Adds o [] o.restore := by
  rw [restore, h.complete]
  exact h.adds_nothing

lemma Clear.adds_settle (h : o.Clear) : Adds o [] o.settle := by
  rw [settle]
  split
  · exact h.adds_flush
  · exact h.adds_nothing

/-- A record is written with its separator. -/
lemma Clear.adds_writeRecord (h : o.Clear) (text : Text) :
    Adds o (Text.utf8 text ++ [o.separator]) (o.writeRecord text true) := by
  have hend (o' : Output) (ho' : o'.Clear) (hs : o'.separator = o.separator) :
      Adds o' [o.separator] (if true = true then o'.put [o'.separator]
        else ({ o' with unterminated := true }, none)) := by
    rw [if_pos rfl, hs]
    exact ho'.adds_put _
  have htext := h.adds_restore.andThen fun o' ho' _ => ho'.adds_put (Text.utf8 text)
  have hall := (htext.andThen hend).andThen fun o' ho' _ => ho'.adds_settle
  rw [List.append_nil, List.nil_append] at hall
  exact hall

/-- A text is written with a newline. -/
lemma Clear.adds_writeText (h : o.Clear) (text : Text) :
    Adds o (Text.utf8 text ++ [10]) (o.writeText text) := by
  have htext := h.adds_restore.andThen fun o' ho' _ => ho'.adds_put (Text.utf8 text)
  have hend := htext.andThen fun o' ho' _ => ho'.adds_put [10]
  have hall := hend.andThen fun o' ho' _ => ho'.adds_settle
  rw [List.append_nil, List.nil_append] at hall
  exact hall

end Adds

/-- What is written to `o` is written to `o'` too, after the bytes `before`. -/
structure After (before : Bytes) (o o' : Output) : Prop where
  clear : o.Clear
  clear' : o'.Clear
  separator : o'.separator = o.separator
  written : o'.written = before ++ o.written

/-- If the same is added to both, one still lags behind the other by the same bytes. -/
lemma After.adds {before data : Bytes} {o o' : Output} {a a' : Attempt} (h : After before o o')
    (ha : Adds o data a) (ha' : Adds o' data a') : After before a.1 a'.1 where
  clear := ha.clear
  clear' := ha'.clear
  separator := by rw [ha'.separator, ha.separator, h.separator]
  written := by rw [ha'.written, ha.written, h.written, List.append_assoc]

end Output

namespace Writer

variable {w : Writer} {s : Storage}

lemma flush_eq_none_iff : (w.flush s).2.2 = none ↔ w.output.flush.2 = none := by
  change w.output.flush.2.map _ = none ↔ _
  exact Option.map_eq_none_iff

lemma flushAll_cons_of_ok {rest : List Writer} (h : w.output.flush.2 = none) :
    flushAll s (w :: rest) =
      ((w.flush s).1 :: (flushAll (w.flush s).2.1 rest).1, (flushAll (w.flush s).2.1 rest).2) := by
  have hfault := flush_eq_none_iff (s := s).2 h
  rw [flushAll]
  rcases hflush : w.flush s with ⟨w', s', failure⟩
  rw [hflush] at hfault
  obtain rfl : failure = none := hfault
  rfl

/-- After a writer that fails no other is flushed. -/
lemma flushAll_cons_of_fault (h : w.output.flush.2 ≠ none) (rest : List Writer) (s : Storage) :
    ∃ failure, flushAll s (w :: rest) = ((w.flush s).1 :: rest, (w.flush s).2.1, some failure) := by
  have hfault := flush_eq_none_iff (s := s).not.2 h
  rw [flushAll]
  rcases hflush : w.flush s with ⟨w', s', _ | failure⟩ <;> rw [hflush] at hfault
  · exact absurd rfl hfault
  · exact ⟨failure, rfl⟩

lemma flushAll_of_idle {writers : List Writer} (h : ∀ w ∈ writers, w.output.waiting = [])
    (s : Storage) : (flushAll s writers).2.2 = none := by
  induction writers generalizing s with
  | nil => rfl
  | cons w rest ih =>
      have hfine : w.output.flush.2 = none := by
        rw [Output.flush_of_idle (h w (List.mem_cons_self ..))]
      rw [flushAll_cons_of_ok hfine]
      exact ih (fun v hv => h v (List.mem_cons_of_mem w hv)) _

end Writer

end StreamEditor
