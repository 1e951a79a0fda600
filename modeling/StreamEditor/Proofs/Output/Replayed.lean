import StreamEditor.Proofs.Output.Capped

/-!
What is written to an output, as a list.

* `Output.Write`: one write to an output.
* `Output.after`: the output after some writes, one after the other.
* `Output.Endless`: the output takes any number of bytes. No write to it fails
  (`Output.Endless.attempt`), and it stays so (`Output.Endless.after`).
-/

namespace StreamEditor.Output

/-- One write to an output. -/
inductive Write where
  | record (text : Text) (terminated : Bool)
  /-- A text and a newline. -/
  | line (text : Text)
  /-- Bytes as they are. -/
  | raw (data : Bytes)
  deriving DecidableEq, Repr

namespace Write

/-- Writes to an output. -/
def attempt : Write → Output → Attempt
  | record text terminated, o => o.writeRecord text terminated
  | line text, o => o.writeText text
  | raw data, o => o.writeRaw data

lemma steady_attempt (n : ℕ) (fault : Fault) (w : Write) : Steady n fault w.attempt := by
  cases w with
  | record text terminated => exact steady_writeRecord _ _
  | line text => exact steady_writeText _
  | raw data => exact steady_writeRaw _

end Write

/-- The output after some writes. -/
def after (o : Output) (writes : List Write) : Output :=
  writes.foldl (fun o w => (w.attempt o).1) o

@[simp] lemma after_nil (o : Output) : o.after [] = o := rfl

lemma after_append (o : Output) (ws ws' : List Write) :
    o.after (ws ++ ws') = (o.after ws).after ws' := List.foldl_append

/-- The output takes any number of bytes. -/
def Endless (o : Output) : Prop := o.sink.room = none

section Endless

variable {o : Output}

lemma Endless.attempt (h : o.Endless) (w : Write) :
    (w.attempt o).2 = none ∧ (w.attempt o).1.Endless :=
  ⟨(w.steady_attempt 0 .noSpace).succeeds o h, ((w.steady_attempt 0 .noSpace).grows o).room h⟩

lemma Endless.after (h : o.Endless) (writes : List Write) : (o.after writes).Endless := by
  induction writes generalizing o with
  | nil => exact h
  | cons w writes ih => exact ih (h.attempt w).2

lemma Endless.flush (h : o.Endless) : o.flush.2 = none ∧ o.flush.1.Endless :=
  have hsteady : Steady 0 .noSpace Output.flush := steady_flush
  ⟨hsteady.succeeds o h, (hsteady.grows o).room h⟩

end Endless

end StreamEditor.Output
