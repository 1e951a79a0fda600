import StreamEditor.Record

/-!
Output that is collected before it is delivered.

* `Sink`: takes bytes, possibly only so many.
* `Output`: a sink, the bytes that wait for it, and whether the last record lacks its separator;
  it is added before anything else is written.
* `Output.writeRecord`, `Output.writeText`, `Output.writeRaw`, `Output.flush`: each gives the
  output after it, and the fault if it failed.
* `Output.written`: all bytes written, delivered or not. Delivering does not change them
  (`written_flush`), and what is held comes last (`written_hold`).
-/

namespace StreamEditor

/-- Takes bytes. -/
structure Sink where
  /-- The bytes taken. -/
  delivered : Bytes
  /-- How many more bytes it takes; if none, any number. -/
  room : Option Nat
  /-- What is wrong when there is no more room. -/
  fault : Fault
  deriving DecidableEq, Repr, Inhabited

namespace Sink

/-- A sink that takes any number of bytes. -/
def unlimited : Sink := ⟨[], none, .noSpace⟩

/-- A sink that takes `n` bytes in all. -/
def limited (n : Nat) (fault : Fault) : Sink := ⟨[], some n, fault⟩

/-- The sink after it has taken what it can of some bytes, and the bytes that are left. -/
def take (s : Sink) (data : Bytes) : Sink × Bytes :=
  match s.room with
  | none => ({ s with delivered := s.delivered ++ data }, [])
  | some n =>
      ({ s with delivered := s.delivered ++ data.take n, room := some (n - data.length) },
        data.drop n)

/-- What a sink does not take is left. -/
theorem delivered_take (s : Sink) (data : Bytes) :
    (s.take data).1.delivered ++ (s.take data).2 = s.delivered ++ data := by
  unfold take
  cases s.room with
  | none => simp
  | some n => simp

end Sink

/-- Output that is collected before it is delivered. -/
structure Output where
  sink : Sink
  /-- The bytes that wait. -/
  waiting : Bytes
  separator : UInt8
  /-- Everything is delivered at once. -/
  unbuffered : Bool
  /-- The last record written lacks its separator. -/
  unterminated : Bool
  deriving DecidableEq, Repr, Inhabited

namespace Output

/-- Output to a sink. -/
def toSink (sink : Sink) (separator : UInt8) (unbuffered : Bool) : Output :=
  ⟨sink, [], separator, unbuffered, false⟩

/-- The number of bytes that may wait. -/
def capacity : Nat := 8192

/-- The output after an attempt to write, and the fault if the attempt failed. -/
abbrev Attempt := Output × Option Fault

/-- Goes on if nothing failed. -/
def Attempt.andThen (a : Attempt) (f : Output → Attempt) : Attempt :=
  match a with
  | (o, none) => f o
  | failed => failed

/-- All bytes that were written. -/
def written (o : Output) : Bytes := o.sink.delivered ++ o.waiting

/-- Takes away the bytes that were delivered. -/
def collect (o : Output) : Bytes × Output :=
  (o.sink.delivered, { o with sink := { o.sink with delivered := [] } })

/-- Delivers some bytes past those that wait. -/
def deliver (o : Output) (data : Bytes) : Attempt :=
  let (sink, rest) := o.sink.take data
  ({ o with sink }, if rest.isEmpty then none else some sink.fault)

/-- Delivers the bytes that wait. -/
def flush (o : Output) : Attempt :=
  let (sink, rest) := o.sink.take o.waiting
  ({ o with sink, waiting := rest }, if rest.isEmpty then none else some sink.fault)

/-- Adds bytes to those that wait. -/
def hold (data : Bytes) (o : Output) : Output := { o with waiting := o.waiting ++ data }

/-- Adds bytes. If they find no room beside those that wait, those are delivered first, and the
bytes themselves too if they would leave no room at all. -/
def put (data : Bytes) (o : Output) : Attempt :=
  if data.length < capacity && data.length ≤ capacity - o.waiting.length then (o.hold data, none)
  else
    Attempt.andThen o.flush fun o =>
      if data.length < capacity then (o.hold data, none) else o.deliver data

/-- Delivering loses nothing, whether it fails or not. -/
theorem written_flush (o : Output) : o.flush.1.written = o.written :=
  o.sink.delivered_take o.waiting

/-- After bytes are delivered without a fault none wait. -/
theorem waiting_flush {o : Output} (h : o.flush.2 = none) : o.flush.1.waiting = [] := by
  simp only [flush] at h ⊢
  split at h
  · rename_i hrest
    exact List.isEmpty_iff.1 hrest
  · exact absurd h (by simp)

theorem written_hold (data : Bytes) (o : Output) :
    (o.hold data).written = o.written ++ data := by
  simp [hold, written]

/-- Bytes that are delivered past those that wait come last if none wait. -/
theorem written_deliver {o : Output} {data : Bytes} (hw : o.waiting = [])
    (h : (o.deliver data).2 = none) : (o.deliver data).1.written = o.written ++ data := by
  have hrest : (o.sink.take data).2 = [] := by
    cases hr : (o.sink.take data).2 with
    | nil => rfl
    | cons b rest => simp [deliver, hr] at h
  have hall := o.sink.delivered_take data
  rw [hrest, List.append_nil] at hall
  simp [deliver, written, hw, hall]

/-- Adds the separator that the last record lacks. -/
def restore (o : Output) : Attempt :=
  if o.unterminated then
    Attempt.andThen (o.put [o.separator]) fun o => ({ o with unterminated := false }, none)
  else (o, none)

/-- Delivers everything if nothing may wait. -/
def settle (o : Output) : Attempt := if o.unbuffered then o.flush else (o, none)

/-- Writes a record, with its separator if it is terminated. -/
def writeRecord (o : Output) (text : Text) (terminated : Bool) : Attempt :=
  Attempt.andThen (Attempt.andThen (Attempt.andThen o.restore (put (Text.utf8 text)))
    fun o => if terminated then o.put [o.separator] else ({ o with unterminated := true }, none))
    settle

/-- Writes a text and a newline. -/
def writeText (o : Output) (text : Text) : Attempt :=
  Attempt.andThen (Attempt.andThen (Attempt.andThen o.restore (put (Text.utf8 text)))
    (put [10])) settle

/-- Writes bytes as they are. -/
def writeRaw (o : Output) (data : Bytes) : Attempt := Attempt.andThen o.restore (put data)

end Output

end StreamEditor
