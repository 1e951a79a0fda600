import StreamEditor.Proofs.Parser.Substitution
import StreamEditor.Proofs.Scanner.Measure

/-!
Reading from two states of the parser.

* `Parser.Parallel`: where a part succeeds from one state, so does another part from another
  state; the rules follow the ways in which parts are put together.
* `Parser.Fails`: a part does not succeed.
* `Parser.left`: what is left for a parser; every token but the end of the script lessens it.
-/

namespace StreamEditor.Parser

variable {library : Regex.Library}

open Token (Kind)

/-- The part does not succeed. -/
def Fails {α : Type} (m : Parse α) (p : Parser) : Prop := ∀ a q, m.run p ≠ .ok (a, q)

lemma fails_complain {α : Type} (c : Complaint) (p : Parser) : Fails (complain c : Parse α) p :=
  fun _ _ h => by cases h

lemma Fails.bind {α β : Type} {m : Parse α} {f : α → Parse β} {p : Parser} (h : Fails m p) :
    Fails (m >>= f) p := by
  intro b q hrun
  obtain ⟨a, r, hm, -⟩ := run_bind_eq_ok.1 hrun
  exact h a r hm

/-- What fails behind the tokens that are read fails with them. -/
lemma Reads.fails_bind {α β : Type} {m : Parse α} {f : α → Parse β} {p : Parser} {a : α}
    {ts : List Token} (hm : Reads m p a ts) (hf : ∀ q, Ahead q ts → Fails (f a) q) :
    Fails (m >>= f) p := by
  obtain ⟨q, hrun, -, hahead⟩ := hm
  intro b r h
  rw [run_bind_of_ok hrun] at h
  exact hf q hahead b r h

/-- Where `m` succeeds, so does `m'` from another state, and `Q` relates their ends. -/
def Parallel {α β : Type} (m : Parse α) (m' : Parse β) (p p' : Parser)
    (Q : α → Parser → β → Parser → Prop) : Prop :=
  ∀ a q, m.run p = .ok (a, q) → ∃ b q', m'.run p' = .ok (b, q') ∧ Q a q b q'

section Rules

variable {α β γ δ : Type} {m : Parse α} {m' : Parse β} {f : α → Parse γ} {f' : β → Parse δ}
  {p p' : Parser} {P Q : α → Parser → β → Parser → Prop} {R : γ → Parser → δ → Parser → Prop}

lemma Parallel.pure {a : α} {b : β} (h : Q a p b p') :
    Parallel (Pure.pure a) (Pure.pure b) p p' Q := by
  intro a q hm
  cases hm
  exact ⟨b, p', rfl, h⟩

lemma Parallel.bind (hm : Parallel m m' p p' Q)
    (hf : ∀ a q b q', Q a q b q' → Parallel (f a) (f' b) q q' R) :
    Parallel (m >>= f) (m' >>= f') p p' R := by
  intro c r h
  obtain ⟨a, q, hrun, hrest⟩ := run_bind_eq_ok.1 h
  obtain ⟨b, q', hrun', hQ⟩ := hm a q hrun
  obtain ⟨d, r', hrest', hR⟩ := hf a q b q' hQ c r hrest
  exact ⟨d, r', (run_bind_of_ok hrun').trans hrest', hR⟩

lemma Parallel.ite {c : Prop} [Decidable c] {x : Parse α} {x' : Parse β}
    (h : c → Parallel m m' p p' Q) (h' : ¬c → Parallel x x' p p' Q) :
    Parallel (if c then m else x) (if c then m' else x') p p' Q := by
  split
  · exact h ‹_›
  · exact h' ‹_›

lemma Parallel.of_run {a : α} {b : β} {q q' : Parser} (h : m.run p = .ok (a, q))
    (h' : m'.run p' = .ok (b, q')) (hQ : Q a q b q') : Parallel m m' p p' Q := by
  intro a q hm
  rw [h] at hm
  cases hm
  exact ⟨b, q', h', hQ⟩

/-- A part that fails runs beside any other. -/
lemma Parallel.of_fails (h : Fails m p) : Parallel m m' p p' Q := fun a q hm => absurd hm (h a q)

lemma parallel_complain (c : Complaint) : Parallel (complain c : Parse α) m' p p' Q := by
  intro a q hm
  cases hm

lemma parallel_complainOf (place : Location) (letter : Char) (c : Complaint) :
    Parallel (complainOf place letter c : Parse α) m' p p' Q := by
  intro a q hm
  cases hm

/-- The states are looked at. -/
lemma Parallel.get {f : Parser → Parse γ} {f' : Parser → Parse δ}
    (h : Parallel (f p) (f' p') p p' R) :
    Parallel (MonadState.get >>= f) (MonadState.get >>= f') p p' R := h

lemma Parallel.modify {f : PUnit → Parse γ} {f' : PUnit → Parse δ} {g g' : Parser → Parser}
    (h : Parallel (f ⟨⟩) (f' ⟨⟩) (g p) (g' p') R) :
    Parallel (modify g >>= f) (modify g' >>= f') p p' R := h

lemma Parallel.set {f : PUnit → Parse γ} {f' : PUnit → Parse δ} {q q' : Parser}
    (h : Parallel (f ⟨⟩) (f' ⟨⟩) q q' R) :
    Parallel (MonadStateOf.set q >>= f) (MonadStateOf.set q' >>= f') p p' R := h

lemma Parallel.advance {f : PUnit → Parse γ} {f' : PUnit → Parse δ}
    (h : Parallel (f ⟨⟩) (f' ⟨⟩) p.advanced p'.advanced R) :
    Parallel (advance >>= f) (advance >>= f') p p' R := h

/-- Both look for the same kind of token. -/
lemma Parallel.isAt {f : Bool → Parse γ} {f' : Bool → Parse δ} {kind : Kind}
    (ht : p'.token = p.token)
    (h : Parallel (f (decide (p.token.kind = kind))) (f' (decide (p.token.kind = kind))) p p' R) :
    Parallel (isAt kind >>= f) (isAt kind >>= f') p p' R := by
  have hrun' : (Parser.isAt kind).run p' = .ok (decide (p.token.kind = kind), p') := by
    rw [← ht]
    rfl
  exact fun c q hm => (run_bind_of_ok hrun').symm ▸ h c q hm

/-- Both go on alike, as the current token is of a kind or not. -/
lemma Parallel.ifAt {x y : Parse γ} {x' y' : Parse δ} {kind : Kind} (ht : p'.token = p.token)
    (h : p.token.kind = kind → Parallel x x' p p' R)
    (h' : p.token.kind ≠ kind → Parallel y y' p p' R) :
    Parallel (Parser.isAt kind >>= fun b => if b = true then x else y)
      (Parser.isAt kind >>= fun b => if b = true then x' else y') p p' R := by
  refine Parallel.isAt ht (.ite (fun hb => h (of_decide_eq_true hb)) fun hb => h' fun hk => hb ?_)
  exact decide_eq_true hk

lemma Parallel.currentChar {f : Char → Parse γ} {f' : Char → Parse δ} (ht : p'.token = p.token)
    (h : Parallel (f (p.token.firstChar.getD ' ')) (f' (p.token.firstChar.getD ' ')) p p' R) :
    Parallel (currentChar >>= f) (currentChar >>= f') p p' R := by
  have hrun' : Parser.currentChar.run p' = .ok (p.token.firstChar.getD ' ', p') := by
    rw [← ht]
    rfl
  exact fun c q hm => (run_bind_of_ok hrun').symm ▸ h c q hm

/-- Both pass the current token if it is of a kind. -/
lemma Parallel.literalIf {f : Option Text → Parse γ} {f' : Option Text → Parse δ} {kind : Kind}
    (ht : p'.token = p.token)
    (h : p.token.kind = kind →
      Parallel (f (some p.token.literal)) (f' (some p.token.literal)) p.advanced p'.advanced R)
    (h' : p.token.kind ≠ kind → Parallel (f none) (f' none) p p' R) :
    Parallel (literalIf kind >>= f) (literalIf kind >>= f') p p' R := by
  intro c q hm
  by_cases hkind : p.token.kind = kind
  · have hkind' : p'.token.kind = kind := by rwa [ht]
    rw [run_bind_of_ok (run_literalIf_of_eq hkind)] at hm
    rw [run_bind_of_ok (run_literalIf_of_eq hkind'), ht]
    exact h hkind c q hm
  · have hkind' : p'.token.kind ≠ kind := by rwa [ht]
    rw [run_bind_of_ok (run_literalIf_of_ne hkind)] at hm
    rw [run_bind_of_ok (run_literalIf_of_ne hkind')]
    exact h' hkind c q hm

/-- The numbers that the current tokens write are the same. -/
lemma Parallel.number {f : ℕ → Parse γ} {f' : ℕ → Parse δ} (ht : p'.token = p.token)
    (h : ∀ n, Parallel (f n) (f' n) p p' R) :
    Parallel (number >>= f) (number >>= f') p p' R := by
  refine .bind (Q := fun n q n' q' => n' = n ∧ q = p ∧ q' = p') ?_ ?_
  · refine .get ?_
    rw [ht]
    exact .ite (fun _ => .pure ⟨rfl, rfl, rfl⟩) fun _ => parallel_complain _
  · rintro _ q n q' ⟨rfl, rfl, rfl⟩
    exact h n

lemma Parallel.compilePattern {f : Option Regex → Parse γ} {f' : Option Regex → Parse δ}
    {pattern : Text} {options : Regex.Options} (h : ∀ re, Parallel (f re) (f' re) p p' R) :
    Parallel (compilePattern pattern options >>= f) (compilePattern pattern options >>= f')
      p p' R := by
  refine .bind (Q := fun re q re' q' => re' = re ∧ q = p ∧ q' = p') ?_ ?_
  · refine .ite (fun _ => ?_) fun _ => ?_
    · exact .ite (fun _ => parallel_complain _) fun _ => .pure ⟨rfl, rfl, rfl⟩
    · split
      · exact .pure ⟨rfl, rfl, rfl⟩
      · exact parallel_complain _
  · rintro _ q re q' ⟨rfl, rfl, rfl⟩
    exact h re

lemma parallel_expectEnd {Q : Unit → Parser → Unit → Parser → Prop} (ht : p'.token = p.token)
    (h : Q () p () p') : Parallel expectEnd expectEnd p p' Q := by
  refine .get ?_
  rw [ht]
  exact .ite (fun _ => .pure h) fun _ => parallel_complain _

end Rules

/-! ### What is left -/

/-- What is left for a parser: the current token, if it is not the end, and what its scanner has
left. -/
def left (p : Parser) : ℕ := p.scanner.size + (decide (p.token.kind ≠ .eof)).toNat

/-- With the next token no more is left than the scanner had. -/
lemma left_advanced_le (p : Parser) : p.advanced.left ≤ p.scanner.size := by
  obtain ⟨hle, hlt⟩ := p.scanner.shrinks_next
  have hnext : p.advanced.left =
      p.scanner.next.2.size + (decide (p.scanner.next.1.kind ≠ .eof)).toNat := rfl
  rw [hnext]
  by_cases heof : p.scanner.next.1.kind = .eof
  · rw [decide_eq_false (not_not_intro heof)]
    exact hle
  · rw [decide_eq_true heof]
    exact hlt heof

lemma left_eq {p : Parser} (h : p.token.kind ≠ .eof) : p.left = p.scanner.size + 1 := by
  rw [left, decide_eq_true h]
  rfl

lemma left_pos {p : Parser} (h : p.token.kind ≠ .eof) : 0 < p.left := by
  rw [left_eq h]
  exact Nat.succ_pos _

/-- Where nothing is left, the current token is the end. -/
lemma eof_of_left {p : Parser} (h : p.left ≤ 0) : p.token.kind = .eof := by
  by_contra heof
  exact absurd (left_pos heof) (Nat.not_lt.2 h)

/-- To pass a token other than the end leaves less. -/
lemma left_advanced {p : Parser} (h : p.token.kind ≠ .eof) : p.advanced.left < p.left := by
  rw [left_eq h]
  exact Nat.lt_succ_of_le (left_advanced_le p)

/-- In a mode without text nothing is added. -/
lemma left_withMode {mode : Scanner.Mode} (hmode : mode.readsText = false) (p : Parser) :
    ({ p with scanner := { p.scanner with mode } } : Parser).left ≤ p.left :=
  Nat.add_le_add_right (Scanner.size_mode_le hmode p.scanner) _

/-- A number of tokens that suffices is no less than what is left. -/
lemma left_le_bound (p : Parser) : p.left ≤ p.bound := by
  have hmode := Bool.toNat_le p.scanner.mode.readsText
  have hkind := Bool.toNat_le (decide (p.token.kind ≠ .eof))
  simp only [left, bound, Scanner.bound, Scanner.size]
  omega

end StreamEditor.Parser
