import Mathlib.Tactic
import StreamEditor.Program.Parser

/-!
What the parts of the parser do when they succeed.

* `Parser.Draft`: the part of a program that is read so far; the tokens, the script and the
  options are left out.
* `Parser.Yields`: whenever a part succeeds, its result and the draft after it stand in a given
  relation to the draft before it; the rules follow the ways in which parts are put together.
* `Parser.Keeps`: the parts that only pass tokens leave the draft as it is.
-/

namespace StreamEditor.Parser

variable {library : Regex.Library}

open Token (Kind)

/-- The part of a program that is read so far. -/
structure Draft where
  commands : List Command
  outputFiles : List OutputFile
  rangeCount : Nat
  openBlocks : List Nat

/-- The part of the program that a parser has read. -/
def draft (p : Parser) : Draft := ⟨p.commands, p.outputFiles, p.rangeCount, p.openBlocks⟩

/-- Whenever `m` succeeds, `Q` relates the draft before it, its result and the draft after it. -/
def Yields {α : Type} (m : Parse α) (Q : Draft → α → Draft → Prop) : Prop :=
  ∀ p a p', m.run p = .ok (a, p') → Q p.draft a p'.draft

/-- Whenever `m` succeeds, the draft is as before. -/
def Keeps {α : Type} (m : Parse α) : Prop := Yields m fun d _ d' => d' = d

section Rules

variable {α β : Type} {m : Parse α} {f : α → Parse β} {P Q : Draft → α → Draft → Prop}
  {R : Draft → β → Draft → Prop}

lemma run_bind (m : Parse α) (f : α → Parse β) (p : Parser) :
    (m >>= f).run p = (m.run p).bind fun (a, p') => (f a).run p' := rfl

/-- A sequence succeeds if both of its parts do. -/
lemma run_bind_eq_ok {p q : Parser} {b : β} :
    (m >>= f).run p = .ok (b, q) ↔
      ∃ a p', m.run p = .ok (a, p') ∧ (f a).run p' = .ok (b, q) := by
  rw [run_bind]
  rcases m.run p with fault | ⟨a, p'⟩
  · constructor
    · intro h
      cases h
    · rintro ⟨a, p', h, -⟩
      cases h
  · constructor
    · exact fun h => ⟨a, p', rfl, h⟩
    · rintro ⟨a', p'', h, hf⟩
      cases h
      exact hf

lemma Yields.mono (h : Yields m P) (hPQ : ∀ d a d', P d a d' → Q d a d') : Yields m Q :=
  fun p a p' hm => hPQ _ _ _ (h p a p' hm)

lemma Yields.pure {a : α} (h : ∀ d, Q d a d) : Yields (Pure.pure a) Q := by
  intro p b p' hp
  cases hp
  exact h _

/-- Each result of the first part is handed on with the draft after it. -/
lemma Yields.bind (hm : Yields m P)
    (hf : ∀ d a d₁, P d a d₁ → Yields (f a) fun d₂ b d' => d₂ = d₁ → R d b d') :
    Yields (m >>= f) R := by
  intro p b q h
  obtain ⟨a, p', hp, hq⟩ := run_bind_eq_ok.1 h
  exact hf _ _ _ (hm _ _ _ hp) _ _ _ hq rfl

/-- After a part that leaves the draft as it is. -/
lemma Yields.after {R : Draft → β → Draft → Prop} (hm : Keeps m) (hf : ∀ a, Yields (f a) R) :
    Yields (m >>= f) R :=
  hm.bind fun _ a _ hd => (hf a).mono fun _ _ _ hR he => by
    rw [he, hd] at hR
    exact hR

/-- The state that is looked at is the one before. -/
lemma Yields.get {f : Parser → Parse β}
    (hf : ∀ p : Parser, Yields (f p) fun d b d' => d = p.draft → R d b d') :
    Yields (MonadState.get >>= f) R := fun p _ _ h => hf p _ _ _ h rfl

lemma Yields.ite {c : Prop} [Decidable c] {x y : Parse α} (hx : c → Yields x Q)
    (hy : ¬c → Yields y Q) : Yields (if c then x else y) Q := by
  split
  · exact hx ‹_›
  · exact hy ‹_›

lemma Yields.modify {g : Parser → Parser} {Q : Draft → PUnit → Draft → Prop}
    (h : ∀ p, Q p.draft ⟨⟩ (g p).draft) : Yields (modify g) Q := by
  intro p a p' hp
  cases hp
  exact h p

/-- A part that always fails yields whatever is asked. -/
lemma Yields.throw (fault : Failure) : Yields (throw fault : Parse α) Q := by
  intro p a p' hp
  cases hp

@[simp] lemma yields_complain (c : Complaint) : Yields (complain c : Parse α) Q := by
  intro p a p' hp
  cases hp

@[simp] lemma yields_complainOf (place : Location) (letter : Char) (c : Complaint) :
    Yields (complainOf place letter c : Parse α) Q := Yields.throw _

@[simp] lemma keeps_complain (c : Complaint) : Keeps (complain c : Parse α) := yields_complain c

@[simp] lemma keeps_pure (a : α) : Keeps (Pure.pure a : Parse α) := Yields.pure fun _ => rfl

@[simp] lemma keeps_get : Keeps (MonadState.get : Parse Parser) := by
  intro p a p' hp
  cases hp
  rfl

@[simp] lemma keeps_bind (hm : Keeps m) (hf : ∀ a, Keeps (f a)) : Keeps (m >>= f) :=
  Yields.after hm hf

@[simp] lemma keeps_map {g : α → β} (hm : Keeps m) : Keeps (g <$> m) := by
  rw [← bind_pure_comp]
  exact keeps_bind hm fun _ => keeps_pure _

@[simp] lemma keeps_ite {c : Prop} [Decidable c] {x y : Parse α} (hx : Keeps x) (hy : Keeps y) :
    Keeps (if c then x else y) := Yields.ite (fun _ => hx) fun _ => hy

end Rules

/-! ### Parts that pass tokens -/

@[simp] lemma keeps_advance : Keeps advance := Yields.modify fun _ => rfl

@[simp] lemma keeps_advanceIn (mode : Scanner.Mode) : Keeps (advanceIn mode) :=
  Yields.modify fun _ => rfl

@[simp] lemma keeps_isAt (kind : Kind) : Keeps (isAt kind) := by simp [isAt]

@[simp] lemma keeps_currentChar : Keeps currentChar := by simp [currentChar]

@[simp] lemma keeps_literalIf (kind : Kind) : Keeps (literalIf kind) :=
  keeps_bind keeps_get fun _ => by simp

@[simp] lemma keeps_expectEnd : Keeps expectEnd := by simp [expectEnd]

@[simp] lemma keeps_number : Keeps number := by simp [number]

@[simp] lemma keeps_numberAfter : Keeps numberAfter := by
  refine keeps_bind keeps_advance fun _ => keeps_bind (keeps_isAt _) fun _ => ?_
  exact keeps_ite (keeps_bind keeps_number fun _ => by simp) (keeps_complain _)

@[simp] lemma keeps_fileName : Keeps fileName := by
  refine keeps_bind keeps_get fun _ => keeps_ite (keeps_complain _) ?_
  refine keeps_bind keeps_advance fun _ => keeps_bind (keeps_literalIf _) fun name => ?_
  cases name <;> simp

@[simp] lemma keeps_negation : Keeps negation := by
  refine keeps_bind (keeps_isAt _) fun _ => keeps_ite ?_ (keeps_pure _)
  exact keeps_bind keeps_advance fun _ => keeps_bind (keeps_isAt _) fun _ => by simp

@[simp] lemma keeps_compilePattern (pattern : Text) (o : Regex.Options) :
    Keeps (compilePattern pattern o) := by
  refine keeps_ite (by simp) ?_
  split <;> simp

@[simp] lemma keeps_patternFlags (fuel : Nat) (o : Regex.Options) :
    Keeps (patternFlags fuel o) := by
  induction fuel generalizing o with
  | zero => exact keeps_pure o
  | succ fuel ih =>
      refine keeps_bind (keeps_isAt _) fun _ => keeps_ite ?_ (keeps_pure o)
      exact keeps_bind keeps_currentChar fun _ => keeps_bind keeps_advance fun _ => ih _

@[simp] lemma keeps_field (letter : Char) : Keeps (field letter) := by
  refine keeps_bind (keeps_isAt _) fun _ => keeps_ite ?_ (keeps_complain _)
  exact keeps_bind keeps_advance fun _ => by simp

@[simp] lemma keeps_fields (letter : Char) : Keeps (fields letter) := by
  refine keeps_bind keeps_advance fun _ => keeps_bind (keeps_isAt _) fun _ => ?_
  refine keeps_ite (keeps_complain _) (keeps_bind (keeps_field _) fun _ => ?_)
  exact keeps_bind (keeps_field _) fun _ => keeps_bind (keeps_isAt _) fun _ => by simp

end StreamEditor.Parser
