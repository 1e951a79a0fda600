import StreamEditor.Proofs.Output.Written

/-!
Records written to an output that takes any number of bytes, terminated or not.

* `Output.resumed`: what is written as soon as another record is.
* `Output.writeRecord_of_room`: what a record adds, and what it changes besides;
  `Output.writeText_of_room` and `Output.writeRaw_of_room` say the same of other writes.
-/

namespace StreamEditor.Output

/-- All bytes that were written, and the separator that the last record lacks. -/
def resumed (o : Output) : Bytes := o.written ++ if o.unterminated then [o.separator] else []

section Room

variable {o : Output}

lemma flush_of_room (h : o.sink.room = none) :
    ∃ sink, o.flush = ({ o with sink, waiting := [] }, none) ∧ sink.room = none ∧
      sink.delivered = o.written := by
  rw [flush, take_of_room h]
  exact ⟨_, rfl, h, rfl⟩

lemma put_of_room (h : o.sink.room = none) (data : Bytes) :
    ∃ sink waiting, o.put data = ({ o with sink, waiting }, none) ∧ sink.room = none ∧
      sink.delivered ++ waiting = o.written ++ data := by
  rw [put]
  split
  · exact ⟨o.sink, o.waiting ++ data, rfl, h, (List.append_assoc ..).symm⟩
  · obtain ⟨sink, hflush, hroom, hwritten⟩ := flush_of_room h
    rw [hflush, Attempt.andThen, ← hwritten]
    split
    · exact ⟨sink, data, rfl, hroom, rfl⟩
    · rw [deliver, take_of_room hroom]
      exact ⟨_, [], rfl, hroom, List.append_nil _⟩

lemma restore_of_room (h : o.sink.room = none) :
    ∃ sink waiting, o.restore = ({ o with sink, waiting, unterminated := false }, none) ∧
      sink.room = none ∧ sink.delivered ++ waiting = o.resumed := by
  rw [restore, resumed]
  cases hu : o.unterminated with
  | false => exact ⟨o.sink, o.waiting, by rw [if_neg Bool.false_ne_true, ← hu], h,
      (List.append_nil _).symm⟩
  | true =>
      obtain ⟨sink, waiting, hput, hroom, hwritten⟩ := put_of_room h [o.separator]
      exact ⟨sink, waiting, by rw [if_pos rfl, hput]; rfl, hroom, hwritten⟩

lemma settle_of_room (h : o.sink.room = none) :
    ∃ sink waiting, o.settle = ({ o with sink, waiting }, none) ∧ sink.room = none ∧
      sink.delivered ++ waiting = o.written := by
  rw [settle]
  split
  · obtain ⟨sink, hflush, hroom, hwritten⟩ := flush_of_room h
    exact ⟨sink, [], hflush, hroom, by rw [hwritten, List.append_nil]⟩
  · exact ⟨o.sink, o.waiting, rfl, h, rfl⟩

/-- A record is written past the separator of the one before. -/
lemma writeRecord_of_room (h : o.sink.room = none) (text : Text) (terminated : Bool) :
    ∃ sink waiting, o.writeRecord text terminated =
        ({ o with sink, waiting, unterminated := !terminated }, none) ∧
      sink.room = none ∧ sink.delivered ++ waiting =
        o.resumed ++ (Text.utf8 text ++ if terminated then [o.separator] else []) := by
  obtain ⟨sink₁, waiting₁, hrestore, hroom₁, hwritten₁⟩ := restore_of_room h
  obtain ⟨sink₂, waiting₂, hput, hroom₂, hwritten₂⟩ := put_of_room
    (o := { o with sink := sink₁, waiting := waiting₁, unterminated := false }) hroom₁
    (Text.utf8 text)
  have htext : sink₂.delivered ++ waiting₂ = o.resumed ++ Text.utf8 text := by
    rw [hwritten₂, written, hwritten₁]
  rw [writeRecord, hrestore, Attempt.andThen, hput, Attempt.andThen]
  cases terminated with
  | false =>
      obtain ⟨sink, waiting, hsettle, hroom, hwritten⟩ := settle_of_room
        (o := { o with sink := sink₂, waiting := waiting₂, unterminated := true }) hroom₂
      exact ⟨sink, waiting, hsettle, hroom, by rw [hwritten, written, htext]; simp⟩
  | true =>
      obtain ⟨sink₃, waiting₃, hput', hroom₃, hwritten₃⟩ := put_of_room
        (o := { o with sink := sink₂, waiting := waiting₂, unterminated := false }) hroom₂
        [o.separator]
      obtain ⟨sink, waiting, hsettle, hroom, hwritten⟩ := settle_of_room
        (o := { o with sink := sink₃, waiting := waiting₃, unterminated := false }) hroom₃
      rw [if_pos rfl, hput', Attempt.andThen]
      refine ⟨sink, waiting, hsettle, hroom, ?_⟩
      rw [hwritten, written, hwritten₃, written, htext, List.append_assoc, if_pos rfl]

/-- Bytes are written past the separator of the record before. -/
lemma writeRaw_of_room (h : o.sink.room = none) (data : Bytes) :
    ∃ sink waiting, o.writeRaw data = ({ o with sink, waiting, unterminated := false }, none) ∧
      sink.room = none ∧ sink.delivered ++ waiting = o.resumed ++ data := by
  obtain ⟨sink₁, waiting₁, hrestore, hroom₁, hwritten₁⟩ := restore_of_room h
  obtain ⟨sink, waiting, hput, hroom, hwritten⟩ := put_of_room
    (o := { o with sink := sink₁, waiting := waiting₁, unterminated := false }) hroom₁ data
  refine ⟨sink, waiting, ?_, hroom, ?_⟩
  · rw [writeRaw, hrestore, Attempt.andThen, hput]
  · rw [hwritten, written, hwritten₁]

/-- A text and its newline are written past the separator of the record before. -/
lemma writeText_of_room (h : o.sink.room = none) (text : Text) :
    ∃ sink waiting, o.writeText text = ({ o with sink, waiting, unterminated := false }, none) ∧
      sink.room = none ∧ sink.delivered ++ waiting = o.resumed ++ (Text.utf8 text ++ [10]) := by
  obtain ⟨sink₁, waiting₁, hraw, hroom₁, hwritten₁⟩ := writeRaw_of_room h (Text.utf8 text)
  obtain ⟨sink₂, waiting₂, hput, hroom₂, hwritten₂⟩ := put_of_room
    (o := { o with sink := sink₁, waiting := waiting₁, unterminated := false }) hroom₁ [10]
  obtain ⟨sink, waiting, hsettle, hroom, hwritten⟩ := settle_of_room
    (o := { o with sink := sink₂, waiting := waiting₂, unterminated := false }) hroom₂
  refine ⟨sink, waiting, ?_, hroom, ?_⟩
  · rw [writeRaw] at hraw
    rw [writeText, hraw, Attempt.andThen, hput, Attempt.andThen, hsettle]
  · rw [hwritten, written, hwritten₂, written, hwritten₁, List.append_assoc]

end Room

end StreamEditor.Output
