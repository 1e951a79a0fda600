import Mathlib.Tactic
import StreamEditor.Proofs.Output.Written

/-!
An output that takes only so many bytes beside one that takes any number.

* `Output.capped`: the output with a sink that takes `n` bytes in all.
* `Output.Fits`, `Output.Cut`: the bytes delivered are no more than `n`; or they are more, and the
  other output took the first `n` of them and takes no others.
* `Output.Steady`: an attempt keeps one of the two, and fails where it comes from the first to the
  second. All ways to write are of this kind (`Output.steady_writeRecord` and its companions).
-/

namespace StreamEditor

namespace Sink

/-- What a sink has taken, in one that takes `n` bytes in all. -/
def capped (n : ℕ) (fault : Fault) (s : Sink) : Sink :=
  ⟨s.delivered, some (n - s.delivered.length), fault⟩

end Sink

namespace Output

/-- The output to a sink that takes `n` bytes in all. -/
def capped (n : ℕ) (fault : Fault) (o : Output) : Output := { o with sink := o.sink.capped n fault }

/-- The sink takes any number of bytes and has taken at most `n`. -/
structure Fits (n : ℕ) (o : Output) : Prop where
  room : o.sink.room = none
  length : o.sink.delivered.length ≤ n

/-- The sink of `o` takes any number of bytes and has taken more than `n`; that of `o'` has taken
the first `n` of them and takes no more. -/
structure Cut (n : ℕ) (o o' : Output) : Prop where
  room : o.sink.room = none
  length : n < o.sink.delivered.length
  delivered : o'.sink.delivered = o.sink.delivered.take n
  full : o'.sink.room = some 0

/-- From `o` to `o'` more bytes may have been delivered, and none taken back. -/
structure Grows (o o' : Output) : Prop where
  room : o.sink.room = none → o'.sink.room = none
  delivered : o.sink.delivered <+: o'.sink.delivered

/-- The attempt loses no byte that was delivered, and fails only for want of room. With a sink that
takes `n` bytes in all it comes to the same, or it fails after the first `n` bytes. -/
structure Steady (n : ℕ) (fault : Fault) (f : Output → Attempt) : Prop where
  grows : ∀ o, Grows o (f o).1
  succeeds : ∀ o, o.sink.room = none → (f o).2 = none
  follows : ∀ o, Fits n o →
    (Fits n (f o).1 ∧ f (o.capped n fault) = ((f o).1.capped n fault, none)) ∨
      (Cut n (f o).1 (f (o.capped n fault)).1 ∧ (f (o.capped n fault)).2 ≠ none)

section Steady

variable {n : ℕ} {fault : Fault} {f g : Output → Attempt} {o o' o₁ : Output}

lemma Grows.refl (o : Output) : Grows o o := ⟨id, List.prefix_rfl⟩

lemma Grows.trans (h : Grows o o₁) (h' : Grows o₁ o') : Grows o o' :=
  ⟨h'.room ∘ h.room, h.delivered.trans h'.delivered⟩

/-- Bytes that come later do not change the first ones. -/
lemma Cut.grows (h : Cut n o o') (hg : Grows o o₁) : Cut n o₁ o' where
  room := hg.room h.room
  length := h.length.trans_le hg.delivered.length_le
  delivered := by
    obtain ⟨more, hmore⟩ := hg.delivered
    rw [h.delivered, ← hmore, List.take_append_of_le_length h.length.le]
  full := h.full

/-- A sink without room takes nothing of what waits. -/
lemma Cut.flush (h : Cut n o o') : Cut n o o'.flush.1 := by
  have hsink : o'.flush.1.sink = o'.sink := by
    show (o'.sink.take o'.waiting).1 = o'.sink
    rw [Sink.take, h.full]
    simp [← h.full]
  exact ⟨h.room, h.length, by rw [hsink, h.delivered], by rw [hsink, h.full]⟩

lemma Fits.delivered_capped (h : Fits n o) :
    (o.capped n fault).sink.delivered = o.sink.delivered.take n :=
  (List.take_of_length_le h.length).symm

/-! ### Attempts put together -/

/-- What only moves bytes about, or notes something, is the same for every sink. -/
lemma Steady.arrange {g : Output → Output} (hg : ∀ o sink, g { o with sink } = { g o with sink }) :
    Steady n fault fun o => (g o, none) := by
  have hsink (o : Output) : (g o).sink = o.sink := by
    have hself := hg o o.sink
    rw [show { o with sink := o.sink } = o from rfl] at hself
    rw [hself]
  refine ⟨fun o => ⟨fun h => by rwa [hsink], by rw [hsink]⟩, fun o _ => rfl, fun o ho => ?_⟩
  refine .inl ⟨?_, ?_⟩
  · exact ⟨by rw [hsink, ho.room], by rw [hsink]; exact ho.length⟩
  · rw [capped, hg, capped, hsink]

/-- An attempt may depend on anything but the sink. -/
lemma Steady.look {γ : Type} {f : γ → Output → Attempt} (g : Output → γ)
    (hg : ∀ o, g (o.capped n fault) = g o) (hf : ∀ c, Steady n fault (f c)) :
    Steady n fault fun o => f (g o) o where
  grows o := (hf (g o)).grows o
  succeeds o := (hf (g o)).succeeds o
  follows o ho := by
    rw [hg]
    exact (hf (g o)).follows o ho

/-- Which attempt is made may depend on anything but the sink. -/
lemma Steady.ite {c : Output → Bool} (hc : ∀ o, c (o.capped n fault) = c o)
    (hf : Steady n fault f) (hg : Steady n fault g) :
    Steady n fault fun o => if c o then f o else g o := by
  refine Steady.look (f := fun (b : Bool) o => if b then f o else g o) c hc fun b => ?_
  cases b with
  | true => exact hf
  | false => exact hg

lemma Steady.andThen (hf : Steady n fault f) (hg : Steady n fault g) :
    Steady n fault fun o => (f o).andThen g := by
  have hok {a : Attempt} (ha : a.2 = none) : a.andThen g = g a.1 := by
    obtain ⟨o, fault⟩ := a
    cases ha
    rfl
  have hfailed {a : Attempt} (ha : a.2 ≠ none) : a.andThen g = a := by
    obtain ⟨o, _ | fault⟩ := a
    · exact absurd rfl ha
    · rfl
  refine ⟨fun o => ?_, fun o ho => ?_, fun o ho => ?_⟩
  · by_cases h : (f o).2 = none
    · rw [hok h]
      exact (hf.grows o).trans (hg.grows _)
    · rw [hfailed h]
      exact hf.grows o
  · rw [hok (hf.succeeds o ho)]
    exact hg.succeeds _ ((hf.grows o).room ho)
  · rw [hok (hf.succeeds o ho.room)]
    obtain ⟨hfits, heq⟩ | ⟨hcut, hfault⟩ := hf.follows o ho
    · rw [heq]
      exact hg.follows _ hfits
    · rw [hfailed hfault]
      exact .inr ⟨hcut.grows (hg.grows _), hfault⟩

/-! ### Ways to write -/

/-- The capped sink takes the bytes too, if they fit. -/
lemma take_capped_of_le {s : Sink} {data : Bytes} (h : s.delivered.length + data.length ≤ n) :
    (s.capped n fault).take data =
      (Sink.capped n fault { s with delivered := s.delivered ++ data }, []) := by
  have hdata : data.length ≤ n - s.delivered.length := by omega
  rw [Sink.take, Sink.capped, Sink.capped]
  dsimp only
  rw [List.take_of_length_le hdata, List.drop_of_length_le hdata, List.length_append, Nat.sub_sub]

/-- Of bytes that do not fit the capped sink takes the first, and some are left. -/
lemma take_capped_of_gt {s : Sink} {data : Bytes} (fault : Fault) (hs : s.delivered.length ≤ n)
    (h : n < s.delivered.length + data.length) :
    ((s.capped n fault).take data).1 = ⟨(s.delivered ++ data).take n, some 0, fault⟩ ∧
      ((s.capped n fault).take data).2 ≠ [] := by
  rw [Sink.take, Sink.capped]
  dsimp only
  refine ⟨?_, ?_⟩
  · rw [List.take_append, List.take_of_length_le hs, Nat.sub_sub, Nat.sub_eq_zero_of_le h.le]
  · rw [ne_eq, List.drop_eq_nil_iff]
    omega

/-- Bytes are delivered, whichever they are and whatever then waits. -/
lemma steady_take (data : Output → Bytes) (waiting : Output → Bytes → Bytes)
    (hdata : ∀ o, data (o.capped n fault) = data o)
    (hwaiting : ∀ o, waiting (o.capped n fault) = waiting o) :
    Steady n fault fun o =>
      ({ o with sink := (o.sink.take (data o)).1, waiting := waiting o (o.sink.take (data o)).2 },
        if (o.sink.take (data o)).2.isEmpty then none
        else some (o.sink.take (data o)).1.fault) := by
  refine ⟨fun o => ⟨fun h => ?_, delivered_take_prefix o.sink _⟩, fun o h => ?_, fun o ho => ?_⟩
  · dsimp only
    rw [take_of_room h]
    exact h
  · dsimp only
    rw [take_of_room h]
    rfl
  · dsimp only
    rw [hdata, hwaiting, take_of_room ho.room, capped]
    dsimp only
    by_cases hle : o.sink.delivered.length + (data o).length ≤ n
    · rw [take_capped_of_le hle]
      refine .inl ⟨⟨ho.room, ?_⟩, rfl⟩
      rw [List.length_append]
      exact hle
    · obtain ⟨htaken, hleft⟩ := take_capped_of_gt fault ho.length (not_le.1 hle)
      rw [if_neg (by rwa [List.isEmpty_iff]), htaken]
      refine .inr ⟨⟨ho.room, ?_, rfl, rfl⟩, by simp⟩
      rw [List.length_append]
      exact not_le.1 hle

lemma steady_flush : Steady n fault flush :=
  steady_take (·.waiting) (fun _ rest => rest) (fun _ => rfl) fun _ => rfl

lemma steady_deliver (data : Bytes) : Steady n fault (·.deliver data) :=
  steady_take (fun _ => data) (fun o _ => o.waiting) (fun _ => rfl) fun _ => rfl

lemma steady_hold (data : Bytes) : Steady n fault fun o => (o.hold data, none) :=
  Steady.arrange fun _ _ => rfl

lemma steady_put (data : Bytes) : Steady n fault (put data) := by
  refine Steady.ite (fun _ => rfl) (steady_hold data) (steady_flush.andThen ?_)
  split
  · exact steady_hold data
  · exact steady_deliver data

lemma steady_putSeparator : Steady n fault fun o => o.put [o.separator] :=
  Steady.look (f := fun separator o => o.put [separator]) (·.separator) (fun _ => rfl)
    fun _ => steady_put _

lemma steady_nothing : Steady n fault fun o => (o, none) := Steady.arrange fun _ _ => rfl

lemma steady_restore : Steady n fault restore :=
  Steady.ite (fun _ => rfl) (steady_putSeparator.andThen (Steady.arrange fun _ _ => rfl))
    steady_nothing

lemma steady_settle : Steady n fault settle := Steady.ite (fun _ => rfl) steady_flush steady_nothing

lemma steady_writeRecord (text : Text) (terminated : Bool) :
    Steady n fault (·.writeRecord text terminated) := by
  refine ((steady_restore.andThen (steady_put _)).andThen ?_).andThen steady_settle
  cases terminated with
  | true => exact steady_putSeparator
  | false => exact Steady.arrange fun _ _ => rfl

lemma steady_writeText (text : Text) : Steady n fault (·.writeText text) :=
  ((steady_restore.andThen (steady_put _)).andThen (steady_put _)).andThen steady_settle

lemma steady_writeRaw (data : Bytes) : Steady n fault (·.writeRaw data) :=
  steady_restore.andThen (steady_put data)

end Steady

end Output

end StreamEditor
