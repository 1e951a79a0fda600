import StreamEditor.Proofs.Regex.Thinned
import StreamEditor.Regex.Referring.Machine

/-!
The code of expressions that refer back.

* `Referring.Inner`: no group of an expression is the whole.
* `Referring.Confined`: code whose targets all lie in it or right behind it, and which sets no marks
  of the whole; it may stand anywhere in other code (`Confined.placed`).
* `Referring.confined_generate`: the code of an expression is such code.
-/

namespace StreamEditor.Regex.Referring

/-! ### Expressions -/

/-- No group has the number of the whole. -/
def Inner : Referring → Prop
  | empty | set _ | char _ _ | look _ | reference _ _ => True
  | group n e => 0 < n ∧ e.Inner
  | plain e | loop e _ _ _ | atomic e => e.Inner
  | cat a b | alt a b => a.Inner ∧ b.Inner

lemma Inner.parts {e : Referring} (h : e.Inner) : ∀ part ∈ e.parts, part.Inner := by
  induction e with
  | cat a b _ ih => exact List.forall_mem_cons.2 ⟨h.1, ih h.2⟩
  | _ => exact List.forall_mem_singleton.2 h

lemma Inner.groupNumbers {e : Referring} (h : e.Inner) : ∀ n ∈ e.groupNumbers, 0 < n := by
  induction e with
  | group n e ih => exact List.forall_mem_cons.2 ⟨h.1, ih h.2⟩
  | plain e ih | loop e _ _ _ ih | atomic e ih => exact ih h
  | cat a b iha ihb | alt a b iha ihb => exact List.forall_mem_append.2 ⟨iha h.1, ihb h.2⟩
  | _ => simp [Referring.groupNumbers]

lemma Inner.tree? {e : Referring} (h : e.Inner) {t : Tree} (ht : e.tree? = some t) : t.Inner := by
  induction e generalizing t with
  | empty | set s | char c fold | look l =>
      obtain rfl := Option.some.inj ht
      trivial
  | group n e ih =>
      obtain ⟨inner, hinner, rfl⟩ := Option.map_eq_some_iff.1 ht
      exact ⟨h.1, ih h.2 hinner⟩
  | plain e ih => exact ih h ht
  | cat a b iha ihb | alt a b iha ihb =>
      rw [Referring.tree?] at ht
      split at ht
      · rename_i hs hu
        obtain rfl := Option.some.inj ht
        exact ⟨iha h.1 hs, ihb h.2 hu⟩
      · cases ht
  | loop e least most greedy ih =>
      rw [Referring.tree?] at ht
      split at ht
      · rename_i hinner
        split at ht
        · obtain rfl := Option.some.inj ht
          exact (ih h hinner).loopOf least most greedy
        · cases ht
      · cases ht
  | atomic e _ | reference n fold => cases ht

/-! ### Code -/

namespace Op

/-- Where control may go other than to the next instruction. -/
def targets : Op → List ℤ
  | .split first second => [first, second]
  | .jump offset => [offset]
  | .round _ _ _ _ exit => [exit]
  | .progress _ _ _ _ exit => [exit]
  | _ => []

/-- True of the instructions that the code of an expression may have within a whole. -/
def Inner : Op → Prop
  | .mark slot => 2 ≤ slot
  | .automaton a groups => (∀ n ∈ groups, 0 < n) ∧ ∃ t : Tree, t.Inner ∧ a = .ofTree t
  | .accept => False
  | _ => True

@[simp] lemma inner_fork (straight : Bool) (offset : ℤ) : (fork straight offset).Inner := by
  cases straight <;> trivial

lemma mem_targets_fork {straight : Bool} {offset o : ℤ} :
    o ∈ (fork straight offset).targets ↔ o = 1 ∨ o = offset := by
  cases straight <;> simp [fork, targets, or_comm]

end Op

/-- Code that stands at `base`, whose targets lie between `first` and `last`. -/
def Placed (first last base : ℤ) (code : List Op) : Prop :=
  ∀ (i : ℕ) op, code[i]? = some op → op.Inner ∧
    ∀ o ∈ op.targets, first ≤ base + i + o ∧ base + i + o ≤ last

namespace Placed

variable {first last base : ℤ} {op : Op} {a b : List Op}

lemma nil : Placed first last base [] := fun i op h => by cases h

lemma cons (hop : op.Inner) (htargets : ∀ o ∈ op.targets, first ≤ base + o ∧ base + o ≤ last)
    (h : Placed first last (base + 1) a) : Placed first last base (op :: a) := fun i op' h' => by
  cases i with
  | zero =>
      obtain rfl := Option.some.inj h'
      exact ⟨hop, by simpa using htargets⟩
  | succ i =>
      obtain ⟨hinner, htargets⟩ := h i op' h'
      refine ⟨hinner, fun o ho => ?_⟩
      have := htargets o ho
      push_cast
      omega

lemma append (ha : Placed first last base a) (hb : Placed first last (base + a.length) b) :
    Placed first last base (a ++ b) := fun i op h => by
  obtain hi | hi := lt_or_ge i a.length
  · rw [List.getElem?_append_left hi] at h
    exact ha i op h
  · rw [List.getElem?_append_right hi] at h
    obtain ⟨hinner, htargets⟩ := hb _ op h
    refine ⟨hinner, fun o ho => ?_⟩
    have := htargets o ho
    omega

end Placed

/-- Code whose targets lie in it or right behind it. -/
def Confined (code : List Op) : Prop := Placed 0 code.length 0 code

namespace Confined

variable {a b : List Op}

/-- Confined code may stand anywhere. -/
lemma placed (h : Confined a) {first last base : ℤ} (hfirst : first ≤ base)
    (hlast : base + a.length ≤ last) : Placed first last base a := fun i op hop => by
  obtain ⟨hinner, htargets⟩ := h i op hop
  refine ⟨hinner, fun o ho => ?_⟩
  have := htargets o ho
  omega

lemma nil : Confined [] := Placed.nil

/-- An instruction that goes on to the next one only. -/
lemma single {op : Op} (hop : op.Inner) (htargets : op.targets = []) : Confined [op] :=
  Placed.cons hop (by simp [htargets]) Placed.nil

lemma append (ha : Confined a) (hb : Confined b) : Confined (a ++ b) := by
  have hlength : ((a ++ b).length : ℤ) = a.length + b.length := by
    push_cast [List.length_append]
    rfl
  exact (ha.placed (by omega) (by omega)).append (hb.placed (by omega) (by omega))

lemma flatten {codes : List (List Op)} (h : ∀ code ∈ codes, Confined code) :
    Confined codes.flatten := by
  induction codes with
  | nil => exact nil
  | cons code codes ih =>
      obtain ⟨hcode, hcodes⟩ := List.forall_mem_cons.1 h
      exact hcode.append (ih hcodes)

/-- Code that may be passed over. -/
lemma optional (h : Confined a) (greedy : Bool) : Confined (.fork greedy (a.length + 1) :: a) := by
  refine Placed.cons (Op.inner_fork _ _) (fun o ho => ?_) (h.placed (by omega) ?_)
  · rw [Op.mem_targets_fork] at ho
    push_cast [List.length_cons]
    omega
  · push_cast [List.length_cons]
    omega

/-- Code that is repeated, after an instruction that may leave the loop. -/
lemma again (h : Confined a) {op : Op} (hop : op.Inner)
    (htargets : ∀ o ∈ op.targets, o = 1 ∨ o = a.length + 2) :
    Confined (op :: a ++ [.jump (-(a.length + 1))]) := by
  have hlength : ((op :: a ++ [.jump (-(a.length + 1))] : List Op).length : ℤ) = a.length + 2 := by
    push_cast [List.length_append, List.length_cons, List.length_nil]
    omega
  rw [Confined, hlength]
  refine Placed.cons hop (fun o ho => ?_) ((h.placed (by omega) (by omega)).append ?_)
  · have := htargets o ho
    omega
  · refine Placed.cons trivial (fun o ho => ?_) Placed.nil
    rw [Op.targets, List.mem_singleton] at ho
    omega

/-- Code that is repeated, before an instruction that may begin it again. -/
lemma onceMore (h : Confined a) (greedy : Bool) : Confined (a ++ [.fork greedy (-a.length)]) := by
  have hlength : ((a ++ [.fork greedy (-a.length)] : List Op).length : ℤ) = a.length + 1 := by
    push_cast [List.length_append, List.length_cons, List.length_nil]
    omega
  rw [Confined, hlength]
  refine (h.placed (by omega) (by omega)).append (Placed.cons (Op.inner_fork _ _) (fun o ho => ?_)
    Placed.nil)
  rw [Op.mem_targets_fork] at ho
  omega

/-- Code, or else other code. -/
lemma alternatives (ha : Confined a) (hb : Confined b) :
    Confined (.split 1 (a.length + 2) :: a ++ .jump (b.length + 1) :: b) := by
  have hlength : ((.split 1 (a.length + 2) :: a ++ .jump (b.length + 1) :: b :
      List Op).length : ℤ) = a.length + b.length + 2 := by
    push_cast [List.length_append, List.length_cons]
    omega
  rw [Confined, hlength]
  refine Placed.cons trivial (fun o ho => ?_) ((ha.placed (by omega) (by omega)).append
    (Placed.cons trivial (fun o ho => ?_) (hb.placed (by omega) (by omega))))
  · simp only [Op.targets, List.mem_cons, List.not_mem_nil, or_false] at ho
    omega
  · rw [Op.targets, List.mem_singleton] at ho
    omega

end Confined

/-! ### The making of code -/

/-- All that a computation makes has a property. -/
def Makes {α : Type} (P : α → Prop) (g : StateT ℕ Option α) : Prop :=
  ∀ n x m, g.run n = some (x, m) → P x

namespace Makes

variable {α β : Type} {P : α → Prop} {Q : β → Prop}

lemma pure {x : α} (h : P x) : Makes P (Pure.pure x) := fun n y m hrun => by
  obtain ⟨rfl, -⟩ := Prod.mk.inj (Option.some.inj hrun)
  exact h

lemma failure : Makes P Alternative.failure := fun n y m hrun => by cases hrun

lemma bind {g : StateT ℕ Option α} {f : α → StateT ℕ Option β} (hg : Makes P g)
    (hf : ∀ x, P x → Makes Q (f x)) : Makes Q (g >>= f) := fun n y m hrun => by
  rw [StateT.run_bind] at hrun
  obtain ⟨⟨x, k⟩, hx, hy⟩ := Option.bind_eq_some_iff.1 hrun
  exact hf x (hg n x k hx) k y m hy

lemma ite {c : Prop} [Decidable c] {g g' : StateT ℕ Option α} (hg : Makes P g) (hg' : Makes P g') :
    Makes P (if c then g else g') := by
  split
  · exact hg
  · exact hg'

lemma mapM_id {gs : List (StateT ℕ Option α)} (h : ∀ g ∈ gs, Makes P g) :
    Makes (fun xs => ∀ x ∈ xs, P x) (gs.mapM id) := by
  induction gs with
  | nil => exact pure (by simp)
  | cons g gs ih =>
      obtain ⟨hg, hgs⟩ := List.forall_mem_cons.1 h
      rw [List.mapM_cons]
      exact hg.bind fun x hx => (ih hgs).bind fun xs hxs => pure (List.forall_mem_cons.2 ⟨hx, hxs⟩)

lemma freshCounter : Makes (fun _ => True) freshCounter := fun _ _ _ _ => trivial

end Makes

lemma inner_mapM_tree? {es : List Referring} (h : ∀ e ∈ es, e.Inner) {trees : List Tree}
    (htrees : es.mapM Referring.tree? = some trees) : (Tree.catAll trees).Inner := by
  induction es generalizing trees with
  | nil =>
      obtain rfl := Option.some.inj htrees
      trivial
  | cons e es ih =>
      obtain ⟨he, hes⟩ := List.forall_mem_cons.1 h
      rw [List.mapM_cons] at htrees
      obtain ⟨t, ht, htrees⟩ := Option.bind_eq_some_iff.1 htrees
      obtain ⟨rest, hrest, htrees⟩ := Option.bind_eq_some_iff.1 htrees
      obtain rfl := Option.some.inj htrees
      exact ⟨he.tree? ht, ih hes hrest⟩

lemma confined_delegate {es : List Referring} (h : ∀ e ∈ es, e.Inner) :
    Makes Confined (delegate es) := by
  rw [delegate]
  split
  · exact .pure .nil
  · exact .pure (.single trivial rfl)
  · split
    · rename_i trees htrees
      dsimp only
      split
      · refine .pure (.single ⟨fun n hn => ?_, _, inner_mapM_tree? h htrees, rfl⟩ rfl)
        obtain ⟨e, he, hn⟩ := List.mem_flatMap.1 hn
        exact (h e he).groupNumbers n hn
      · exact .failure
    · exact .failure

lemma confined_sequence (used : List ℕ) (hard : Bool) {es : List Referring}
    (hes : ∀ e ∈ es, e.Inner) {codes : List Generator} (hcodes : ∀ g ∈ codes, Makes Confined g) :
    Makes Confined (sequence used hard es codes) := by
  rw [sequence]
  refine Makes.bind (confined_delegate fun e he => hes e (List.takeWhile_subset _ he))
    fun first hfirst => ?_
  refine Makes.bind (Makes.mapM_id fun g hg =>
    hcodes g (List.drop_subset _ _ (List.take_subset _ _ hg))) fun between hbetween => ?_
  refine Makes.bind (confined_delegate fun e he => hes e ?_) fun last hlast => ?_
  · exact List.drop_subset _ _
      (List.mem_reverse.1 (List.takeWhile_subset _ (List.mem_reverse.1 he)))
  · exact .pure ((hfirst.append (.flatten hbetween)).append hlast)

lemma confined_repeated {body : Generator} (h : Makes Confined body) (bodyLength least : ℕ)
    (most : Option ℕ) (greedy : Bool) :
      Makes Confined (repeated body bodyLength least most greedy) := by
  have hcounted {code : List Op} (hcode : Confined code) (counter : ℕ) {op : Op} (hop : op.Inner)
      (htargets : op.targets = [(code.length + 2 : ℤ)]) :
      Confined (.zero counter :: op :: code ++ [.jump (-(code.length + 1))]) := by
    have hzero : Confined [.zero counter] := .single trivial rfl
    exact hzero.append (hcode.again hop fun o ho => .inr (by simpa [htargets] using ho))
  rw [repeated.eq_def]
  split
  · exact h.bind fun code hcode => .pure (hcode.optional greedy)
  · split
    · exact Makes.freshCounter.bind fun counter _ => Makes.freshCounter.bind fun place _ =>
        h.bind fun code hcode => .pure (hcounted hcode counter trivial rfl)
    · split
      · exact h.bind fun code hcode => .pure (hcode.again (Op.inner_fork _ _) fun o ho =>
          Op.mem_targets_fork.1 ho)
      · split
        · exact h.bind fun code hcode => .pure (hcode.onceMore _)
        · exact Makes.freshCounter.bind fun counter _ => h.bind fun code hcode =>
            .pure (hcounted hcode counter trivial rfl)
  · exact Makes.freshCounter.bind fun counter _ => h.bind fun code hcode =>
      .pure (hcounted hcode counter trivial rfl)

/-- The code of an expression, and that of each of its parts, is confined. -/
lemma confined_generate (used : List ℕ) {e : Referring} (h : e.Inner) :
    (∀ hard, Makes Confined ((generate used e).1 hard)) ∧
      ∀ g ∈ (generate used e).2, Makes Confined g := by
  have hdelegate {e : Referring} (h : e.Inner) : Makes Confined (delegate [e]) :=
    confined_delegate (List.forall_mem_singleton.2 h)
  -- An expression that is no sequence is its own only part.
  have hwhole {make : Bool → Generator} (hmake : ∀ hard, Makes Confined (make hard)) :
      (∀ hard, Makes Confined (make hard)) ∧ ∀ g ∈ [make true], Makes Confined g :=
    ⟨hmake, List.forall_mem_singleton.2 (hmake true)⟩
  induction e with
  | cat a b iha ihb =>
      have hcodes : ∀ g ∈ (generate used a).1 true :: (generate used b).2, Makes Confined g :=
        List.forall_mem_cons.2 ⟨(iha h.1).1 true, (ihb h.2).2⟩
      exact ⟨fun hard => .ite (hdelegate h) (confined_sequence used hard h.parts hcodes), hcodes⟩
  | empty => exact hwhole fun hard => .ite (hdelegate h) (.pure .nil)
  | set s => exact hwhole fun hard => .ite (hdelegate h) (.pure (.single trivial rfl))
  | char c fold =>
      exact hwhole fun hard => .ite (hdelegate h)
        (.ite (.pure (.single trivial rfl)) (.pure (.single trivial rfl)))
  | look l => exact hwhole fun hard => .ite (hdelegate h) (.pure (.single trivial rfl))
  | group n e ih =>
      have hmark {slot : ℕ} (hslot : 2 ≤ slot) : Confined [.mark slot] := .single hslot rfl
      have hn : 0 < n := h.1
      exact hwhole fun hard => .ite (hdelegate h) (((ih h.2).1 hard).bind fun code hcode =>
        .pure ((hmark (by omega)).append (hcode.append (hmark (by omega)))))
  | plain e ih => exact hwhole fun hard => .ite (hdelegate h) ((ih h).1 hard)
  | alt a b iha ihb =>
      exact hwhole fun hard => .ite (hdelegate h) (((iha h.1).1 hard).bind fun first hfirst =>
        ((ihb h.2).1 hard).bind fun second hsecond => .pure (hfirst.alternatives hsecond))
  | loop e least most greedy ih =>
      exact hwhole fun hard => .ite (hdelegate h) (confined_repeated ((ih h).1 _) _ _ _ _)
  | atomic e ih =>
      have hhold : Confined [.hold] := .single trivial rfl
      have hrelease : Confined [.release] := .single trivial rfl
      exact hwhole fun hard => .ite (hdelegate h) (((ih h).1 false).bind fun code hcode =>
        .pure (hhold.append (hcode.append hrelease)))
  | reference n fold => exact hwhole fun hard => .ite (hdelegate h) (.pure (.single trivial rfl))

end StreamEditor.Regex.Referring
