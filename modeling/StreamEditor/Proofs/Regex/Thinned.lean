import Mathlib.Tactic
import StreamEditor.Regex.Automaton

/-!
Expressions and code without groups.

* `Tree.bare`: an expression without its groups; `Tree.Inner`: none of them is the whole.
* `Thins`: code without the marks that bound groups; what is left keeps its targets.
* `Tree.thins_code`: the code of an expression without its groups is thinned code.
-/

namespace StreamEditor.Regex

/-! ### Expressions -/

namespace Tree

/-- The expression without its groups. -/
def bare : Tree → Tree
  | empty => empty
  | set s => set s
  | look l => look l
  | group _ t => t.bare
  | cat a b => cat a.bare b.bare
  | alt a b => alt a.bare b.bare
  | loop t least most greedy => loop t.bare least most greedy

/-- No group has the number of the whole. -/
def Inner : Tree → Prop
  | empty | set _ | look _ => True
  | group n t => 0 < n ∧ t.Inner
  | cat a b | alt a b => a.Inner ∧ b.Inner
  | loop t _ _ _ => t.Inner

@[simp] lemma minLength_bare (t : Tree) : t.bare.minLength = t.minLength := by
  induction t with
  | group _ _ ih => exact ih
  | cat _ _ iha ihb | alt _ _ iha ihb => simp [bare, minLength, iha, ihb]
  | loop _ _ _ _ ih => simp [bare, minLength, ih]
  | _ => rfl

@[simp] lemma matchesOnlyEmpty_bare (t : Tree) : t.bare.matchesOnlyEmpty = t.matchesOnlyEmpty := by
  induction t with
  | group _ _ ih => exact ih
  | cat _ _ iha ihb | alt _ _ iha ihb => simp [bare, matchesOnlyEmpty, iha, ihb]
  | loop _ _ _ _ ih => simp [bare, matchesOnlyEmpty, ih]
  | _ => rfl

/-- Groups do not decide how an expression is repeated. -/
lemma bare_loopOf (t : Tree) (least : ℕ) (most : Option ℕ) (greedy : Bool) :
    (loopOf t least most greedy).bare = loopOf t.bare least most greedy := by
  simp only [loopOf, matchesOnlyEmpty_bare]
  split <;> rfl

lemma Inner.loopOf {t : Tree} (h : t.Inner) (least : ℕ) (most : Option ℕ) (greedy : Bool) :
    (loopOf t least most greedy).Inner := by
  rw [Tree.loopOf]
  dsimp only
  split
  · trivial
  · exact h
  · exact h

end Tree

/-! ### Code -/

namespace Inst

/-- True for all instructions but the marks of groups within the whole. -/
def kept : Inst → Bool
  | .mark slot => slot < 2
  | _ => true

/-- All targets of an instruction have a property. -/
def Targets (P : ℤ → Prop) : Inst → Prop
  | .split first second => P first ∧ P second
  | .jump offset => P offset
  | _ => True

/-- The instruction with other targets. -/
def retarget (f : ℤ → ℤ) : Inst → Inst
  | .split first second => .split (f first) (f second)
  | .jump offset => .jump (f offset)
  | inst => inst

lemma Targets.mono {P Q : ℤ → Prop} (h : ∀ o, P o → Q o) {inst : Inst} (hP : inst.Targets P) :
    inst.Targets Q := by
  cases inst with
  | split => exact ⟨h _ hP.1, h _ hP.2⟩
  | jump => exact h _ hP
  | _ => trivial

lemma retarget_congr {f g : ℤ → ℤ} {inst : Inst} (h : inst.Targets fun o => f o = g o) :
    inst.retarget f = inst.retarget g := by
  cases inst with
  | split => exact congrArg₂ Inst.split h.1 h.2
  | jump => exact congrArg _ h
  | _ => rfl

lemma retarget_self {f : ℤ → ℤ} {inst : Inst} (h : inst.Targets fun o => f o = o) :
    inst.retarget f = inst := by
  cases inst with
  | split => exact congrArg₂ Inst.split h.1 h.2
  | jump => exact congrArg _ h
  | _ => rfl

end Inst

/-- The instruction of thinned code at which the code up to `i` ends. -/
def place (code : List Inst) (i : ℕ) : ℕ := (code.take i).countP Inst.kept

lemma place_zero (code : List Inst) : place code 0 = 0 := rfl

lemma place_of_length_le {code : List Inst} {i : ℕ} (h : code.length ≤ i) :
    place code i = code.countP Inst.kept := by
  rw [place, List.take_of_length_le h]

lemma place_append (a b : List Inst) (i : ℕ) :
    place (a ++ b) i = place a i + place b (i - a.length) := by
  rw [place, List.take_append, List.countP_append]
  rfl

lemma place_append_left {a : List Inst} (b : List Inst) {i : ℕ} (h : i ≤ a.length) :
    place (a ++ b) i = place a i := by
  rw [place_append, Nat.sub_eq_zero_of_le h, place_zero, Nat.add_zero]

lemma place_append_right (a b : List Inst) (i : ℕ) :
    place (a ++ b) (a.length + i) = a.countP Inst.kept + place b i := by
  rw [place_append, place_of_length_le (Nat.le_add_right _ _), Nat.add_sub_cancel_left]

/-- What the instruction at `i` has become in thinned code: its targets are in the code, and if it
is kept, it is found at its place, with the places of its targets. -/
def ThinsAt (code thinned : List Inst) (i : ℕ) : Prop :=
  ∀ inst : Inst, code[i]? = some inst →
    inst.Targets (fun o => 0 ≤ (i : ℤ) + o ∧ (i : ℤ) + o ≤ code.length) ∧
      (inst.kept = true → thinned[place code i]? =
        some (inst.retarget fun o => place code ((i : ℤ) + o).toNat - place code i))

/-- `thinned` is `code` without the marks of groups within the whole. -/
structure Thins (code thinned : List Inst) : Prop where
  length : thinned.length = code.countP Inst.kept
  thinsAt : ∀ i < code.length, ThinsAt code thinned i

namespace Thins

variable {a a' b b' : List Inst}

/-- Code within other code. -/
lemma within (h : Thins a a') {l l' : List Inst} (hl : l'.length = l.countP Inst.kept)
    (r r' : List Inst) {i : ℕ} (hi : i < a.length) :
    ThinsAt (l ++ (a ++ r)) (l' ++ (a' ++ r')) (l.length + i) := by
  have hplace : ∀ j ≤ a.length, place (l ++ (a ++ r)) (l.length + j) = l'.length + place a j :=
    fun j hj => by rw [place_append_right, place_append_left r hj, hl]
  intro inst hinst
  rw [List.getElem?_append_right (by omega), Nat.add_sub_cancel_left,
    List.getElem?_append_left hi] at hinst
  obtain ⟨hinside, hkept⟩ := h.thinsAt i hi inst hinst
  refine ⟨hinside.mono fun o ho => ?_, fun hk => ?_⟩
  · simp only [List.length_append]
    push_cast
    omega
  · have hthinned := hkept hk
    have hlt : place a i < a'.length := (List.getElem?_eq_some_iff.1 hthinned).1
    rw [hplace i hi.le, List.getElem?_append_right (by omega), Nat.add_sub_cancel_left,
      List.getElem?_append_left hlt, hthinned]
    refine congrArg some (Inst.retarget_congr (hinside.mono fun o ho => ?_))
    have htarget : (((l.length + i : ℕ) : ℤ) + o).toNat = l.length + ((i : ℤ) + o).toNat := by
      omega
    rw [htarget, hplace _ (by omega)]
    push_cast
    omega

/-- Code between other code, which is looked at by itself. -/
lemma around (h : Thins a a') (l l' r r' : List Inst) (hl : l'.length = l.countP Inst.kept)
    (hr : r'.length = r.countP Inst.kept)
    (hbefore : ∀ i < l.length, ThinsAt (l ++ (a ++ r)) (l' ++ (a' ++ r')) i)
    (hbehind : ∀ i < r.length,
      ThinsAt (l ++ (a ++ r)) (l' ++ (a' ++ r')) (l.length + (a.length + i))) :
    Thins (l ++ (a ++ r)) (l' ++ (a' ++ r')) where
  length := by simp only [List.length_append, List.countP_append, hl, hr, h.length]
  thinsAt i hi := by
    obtain hlt | ⟨j, rfl⟩ : i < l.length ∨ ∃ j, i = l.length + j :=
      (Nat.lt_or_ge i l.length).imp_right fun h => ⟨i - l.length, by omega⟩
    · exact hbefore i hlt
    · obtain hlt | ⟨j, rfl⟩ : j < a.length ∨ ∃ k, j = a.length + k :=
        (Nat.lt_or_ge j a.length).imp_right fun h => ⟨j - a.length, by omega⟩
      · exact h.within hl r r' hlt
      · simp only [List.length_append] at hi
        exact hbehind j (by omega)

lemma nil : Thins [] [] where
  length := rfl
  thinsAt i hi := by simp at hi

lemma append (ha : Thins a a') (hb : Thins b b') : Thins (a ++ b) (a' ++ b') := by
  have hleft : ∀ i < a.length, ThinsAt (a ++ b) (a' ++ b') i := fun i hi => by
    have hnil : ([] : List Inst).length = ([] : List Inst).countP Inst.kept := rfl
    simpa using ha.within hnil b b' hi
  have hwhole : ∀ i < ([] : List Inst).length,
      ThinsAt (a ++ (b ++ [])) (a' ++ (b' ++ [])) (a.length + (b.length + i)) := by simp
  simpa using hb.around a a' [] [] ha.length rfl (by simpa using hleft) hwhole

/-- An instruction that has no targets. -/
lemma single {inst : Inst} (hkept : inst.kept = true) (hplain : ∀ P, inst.Targets P) :
    Thins [inst] [inst] where
  length := by rw [List.countP_singleton, if_pos hkept]; rfl
  thinsAt i hi x hx := by
    obtain rfl : i = 0 := by simpa using hi
    obtain rfl : inst = x := by simpa using hx
    exact ⟨hplain _, fun _ => congrArg some (Inst.retarget_self (hplain _)).symm⟩

/-- A mark of a group within the whole. -/
lemma erased {slot : ℕ} (hslot : 2 ≤ slot) : Thins [.mark slot] [] where
  length := by
    have hkept : Inst.kept (.mark slot) = false := decide_eq_false (by omega)
    rw [List.countP_singleton, hkept]
    rfl
  thinsAt i hi x hx := by
    obtain rfl : i = 0 := by simpa using hi
    obtain rfl : .mark slot = x := by simpa using hx
    exact ⟨trivial, fun hkept => by simp [Inst.kept] at hkept; omega⟩

end Thins

/-! ### Control -/

lemma kept_fork (straight : Bool) (offset : ℤ) : (Inst.fork straight offset).kept = true := by
  cases straight <;> rfl

lemma place_succ {code : List Inst} {i : ℕ} {inst : Inst} (h : code[i]? = some inst)
    (hkept : inst.kept = true) : place code (i + 1) = place code i + 1 := by
  rw [place, List.take_add_one, List.countP_append, h, Option.toList_some, List.countP_singleton,
    if_pos hkept]
  rfl

lemma place_cons {x : Inst} (hkept : x.kept = true) (code : List Inst) (i : ℕ) :
    place (x :: code) (i + 1) = place code i + 1 := by
  rw [place, List.take_succ_cons, List.countP_cons, if_pos hkept]
  rfl

lemma thinsAt_fork {code thinned : List Inst} {i : ℕ} {straight : Bool} {offset offset' : ℤ}
    (hinst : code[i]? = some (.fork straight offset))
    (hthinned : thinned[place code i]? = some (.fork straight offset'))
    (hfirst : 0 ≤ (i : ℤ) + offset) (hlast : (i : ℤ) + offset ≤ code.length)
    (hoffset : (place code ((i : ℤ) + offset).toNat : ℤ) = place code i + offset') :
    ThinsAt code thinned i := by
  intro inst h
  obtain rfl : .fork straight offset = inst := Option.some.inj (hinst.symm.trans h)
  have hi : i < code.length := (List.getElem?_eq_some_iff.1 h).1
  have hnext := place_succ hinst (kept_fork _ _)
  have htarget : ((i : ℤ) + 1).toNat = i + 1 := rfl
  cases straight with
  | true =>
      refine ⟨⟨by omega, by omega⟩, fun _ => hthinned.trans ?_⟩
      simp only [Inst.fork, if_true, Inst.retarget, htarget, hnext, hoffset]
      push_cast
      simp
  | false =>
      refine ⟨⟨by omega, by omega⟩, fun _ => hthinned.trans ?_⟩
      simp only [Inst.fork, if_false, Bool.false_eq_true, Inst.retarget, htarget, hnext, hoffset]
      push_cast
      simp

lemma thinsAt_jump {code thinned : List Inst} {i : ℕ} {offset offset' : ℤ}
    (hinst : code[i]? = some (.jump offset))
    (hthinned : thinned[place code i]? = some (.jump offset'))
    (hfirst : 0 ≤ (i : ℤ) + offset) (hlast : (i : ℤ) + offset ≤ code.length)
    (hoffset : (place code ((i : ℤ) + offset).toNat : ℤ) = place code i + offset') :
    ThinsAt code thinned i := by
  intro inst h
  obtain rfl : .jump offset = inst := Option.some.inj (hinst.symm.trans h)
  refine ⟨⟨hfirst, hlast⟩, fun _ => hthinned.trans ?_⟩
  simp [Inst.retarget, hoffset]

namespace Thins

variable {a a' b b' : List Inst} (h : Thins a a')

include h

lemma place_length : place a a.length = a'.length := by
  rw [place_of_length_le le_rfl, h.length]

/-- A fork in front of code, whose other way leads into the code or to its end. -/
lemma fork (straight : Bool) {target : ℕ} (ht : target ≤ a.length) :
    Thins (.fork straight (target + 1) :: a) (.fork straight (place a target + 1) :: a') := by
  have hfork : ThinsAt ([.fork straight (target + 1)] ++ (a ++ []))
      ([.fork straight (place a target + 1)] ++ (a' ++ [])) 0 := by
    simp only [List.singleton_append, List.append_nil]
    refine thinsAt_fork rfl rfl (by omega) (by rw [List.length_cons]; push_cast; omega) ?_
    have htarget : (((0 : ℕ) : ℤ) + (target + 1)).toNat = target + 1 := by omega
    rw [htarget, place_cons (kept_fork _ _), place_zero]
    push_cast
    omega
  have hone : ([.fork straight (place a target + 1)] : List Inst).length =
      [.fork straight (target + 1)].countP Inst.kept := by
    rw [List.countP_singleton, if_pos (kept_fork _ _)]
    rfl
  simpa using h.around [_] [_] [] [] hone rfl (by simpa using hfork) (by simp)

/-- A jump over code. -/
lemma jump : Thins (.jump (a.length + 1) :: a) (.jump (a'.length + 1) :: a') := by
  have hjump : ThinsAt ([.jump (a.length + 1)] ++ (a ++ []))
      ([.jump (a'.length + 1)] ++ (a' ++ [])) 0 := by
    simp only [List.singleton_append, List.append_nil]
    refine thinsAt_jump rfl rfl (by omega) (by rw [List.length_cons]; push_cast; omega) ?_
    have htarget : (((0 : ℕ) : ℤ) + (a.length + 1)).toNat = a.length + 1 := by omega
    rw [htarget, place_cons rfl, place_zero, h.place_length]
    push_cast
    omega
  simpa using h.around [.jump _] [.jump _] [] [] rfl rfl (by simpa using hjump) (by simp)

/-- Code with a way back behind it. -/
lemma atLeastOnce (greedy : Bool) :
    Thins (Tree.atLeastOnce greedy a) (Tree.atLeastOnce greedy a') := by
  have hback : ThinsAt ([] ++ (a ++ [.fork (!greedy) (-a.length)]))
      ([] ++ (a' ++ [.fork (!greedy) (-a'.length)])) (0 + (a.length + 0)) := by
    simp only [List.nil_append, Nat.zero_add, Nat.add_zero]
    have hplace : place (a ++ [.fork (!greedy) (-a.length)]) a.length = a'.length := by
      rw [place_append_left _ le_rfl, h.place_length]
    have hinst : (a ++ [.fork (!greedy) (-a.length)])[a.length]? =
        some (.fork (!greedy) (-a.length)) := by simp
    have hthinned : (a' ++ [.fork (!greedy) (-a'.length)])[a'.length]? =
        some (.fork (!greedy) (-a'.length)) := by simp
    refine thinsAt_fork hinst (by rw [hplace]; exact hthinned) (by omega) ?_ ?_
    · rw [List.length_append]
      push_cast
      omega
    · have htarget : ((a.length : ℤ) + (-a.length)).toNat = 0 := by omega
      rw [htarget, place_zero, hplace]
      push_cast
      omega
  have hone : ([.fork (!greedy) (-a'.length)] : List Inst).length =
      [.fork (!greedy) (-a.length)].countP Inst.kept := by
    rw [List.countP_singleton, if_pos (kept_fork _ _)]
    rfl
  exact h.around [] [] [_] [_] rfl hone (by simp) (by simpa using hback)

/-- Code between a way around it and a way back. -/
lemma anyTimes (greedy progresses : Bool) :
    Thins (Tree.anyTimes greedy progresses a) (Tree.anyTimes greedy progresses a') := by
  -- A body that may pass nothing is run once at least, or led around as a whole. Any other one has
  -- a way around it in front, and a jump back there behind it.
  cases progresses with
  | false =>
      have hagain := h.atLeastOnce greedy
      have hfork := hagain.fork greedy le_rfl
      rw [hagain.place_length] at hfork
      exact hfork
  | true =>
      have hone : ([.fork greedy (a'.length + 2)] : List Inst).length =
          [.fork greedy (a.length + 2)].countP Inst.kept := by
        rw [List.countP_singleton, if_pos (kept_fork _ _)]
        rfl
      have hplace : ∀ i ≤ a.length, place ([.fork greedy (a.length + 2)] ++
          (a ++ [.jump (-(a.length + 1))])) (i + 1) = place a i + 1 := fun i hi => by
        rw [List.singleton_append, place_cons (kept_fork _ _), place_append_left _ hi]
      have hend : place ([.fork greedy (a.length + 2)] ++
          (a ++ [.jump (-(a.length + 1))])) (a.length + 2) = a'.length + 2 := by
        have hjump : ([.jump (-(a.length + 1))] : List Inst).countP Inst.kept = 1 := rfl
        rw [place_of_length_le (by simp), List.countP_append, List.countP_append, hjump, ← hone,
          h.length, List.length_singleton]
        omega
      refine h.around [_] [_] [_] [_] hone rfl ?_ ?_
      · intro i hi
        obtain rfl : i = 0 := by simpa using hi
        refine thinsAt_fork rfl rfl (by omega) (by simp; omega) ?_
        have htarget : (((0 : ℕ) : ℤ) + (a.length + 2)).toNat = a.length + 2 := by omega
        rw [htarget, hend, place_zero]
        push_cast
        omega
      · intro i hi
        obtain rfl : i = 0 := by simpa using hi
        have hat : [Inst.fork greedy (a.length + 2)].length + (a.length + 0) = a.length + 1 := by
          simp [Nat.add_comm]
        rw [hat]
        have hinst : ([Inst.fork greedy (a.length + 2)] ++
            (a ++ [.jump (-(a.length + 1))]))[a.length + 1]? = some (.jump (-(a.length + 1))) := by
          simp
        have hthinned : ([Inst.fork greedy (a'.length + 2)] ++
            (a' ++ [.jump (-(a'.length + 1))]))[a'.length + 1]? =
              some (.jump (-(a'.length + 1))) := by
          simp
        have hplace' := hplace a.length le_rfl
        rw [h.place_length] at hplace'
        refine thinsAt_jump hinst (by rw [hplace']; exact hthinned) (by push_cast; omega)
          (by simp; omega) ?_
        have htarget : (((a.length + 1 : ℕ) : ℤ) + -(a.length + 1)).toNat = 0 := by omega
        rw [htarget, place_zero, hplace']
        push_cast
        omega

lemma exactly (n : ℕ) : Thins (Tree.exactly n a) (Tree.exactly n a') := by
  induction n with
  | zero => exact .nil
  | succ n ih => exact h.append ih

lemma optionals (greedy : Bool) (n : ℕ) :
    Thins (Tree.optionals greedy a n) (Tree.optionals greedy a' n) := by
  induction n with
  | zero => exact .nil
  | succ n ih =>
      have hinner := h.append ih
      have hfork := hinner.fork greedy le_rfl
      rw [hinner.place_length] at hfork
      exact hfork

end Thins

namespace Tree

/-- The code of an expression without its groups is thinned code. -/
lemma thins_code {t : Tree} (h : t.Inner) : Thins t.code t.bare.code := by
  induction t with
  | empty => exact .nil
  | set | look => exact .single rfl fun _ => trivial
  | group n t ih =>
      obtain ⟨hn, ht⟩ := h
      have hopen : Thins [.mark (2 * n)] [] := .erased (by omega)
      have hclose : Thins [.mark (2 * n + 1)] [] := .erased (by omega)
      simpa [code, bare] using (hopen.append (ih ht)).append hclose
  | cat a b iha ihb => exact (iha h.1).append (ihb h.2)
  | alt a b iha ihb =>
      have hsecond := (ihb h.2).jump
      have hboth := (iha h.1).append hsecond
      have hskip : place (a.code ++ .jump (b.code.length + 1) :: b.code) (a.code.length + 1) =
          a.bare.code.length + 1 := by
        rw [place_append_right, ← (iha h.1).length, place_cons rfl, place_zero]
      have htarget : a.code.length + 1 ≤
          (a.code ++ .jump (b.code.length + 1) :: b.code).length := by simp
      have hfork := hboth.fork true htarget
      rw [hskip] at hfork
      exact hfork
  | loop t least most greedy ih =>
      have hbody := ih h
      cases most with
      | some most => exact (hbody.exactly _).append (hbody.optionals _ _)
      | none =>
          simp only [bare, code]
          split
          · rw [minLength_bare]
            exact hbody.anyTimes _ _
          · exact (hbody.exactly _).append (hbody.atLeastOnce _)

end Tree

end StreamEditor.Regex
