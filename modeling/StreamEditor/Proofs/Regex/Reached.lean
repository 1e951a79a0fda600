import StreamEditor.Proofs.Regex.Ordered
import StreamEditor.Proofs.Regex.Ungrouped

/-!
What the searches of automata reach.

* `Automaton.Reaches`: the instructions that ways from a place on lead to, whatever the text is.
* `Automaton.searchFrom_reaches`: a search finds the marks of such a way, at an instruction that
  accepts.
* `Reaches.marked`: in the automaton of an expression such a way has marked where the match begins
  and, where it accepts, where it ends.
* `Finder.Sound`: all matches that are found begin and end within the text that is searched;
  `sound_automaton` says this of automata.
-/

namespace StreamEditor.Regex

/-! ### Code -/

namespace Inst

/-- True for the instructions that the code of an expression may have within a whole. -/
def inner : Inst → Bool
  | .mark slot => 2 ≤ slot
  | .accept => false
  | _ => true

@[simp] lemma inner_fork (straight : Bool) (offset : ℤ) : (fork straight offset).inner = true := by
  cases straight <;> rfl

end Inst

namespace Tree

lemma mem_exactly {n : ℕ} {body : List Inst} {inst : Inst} (h : inst ∈ exactly n body) :
    inst ∈ body := by
  obtain ⟨code, hcode, hinst⟩ := List.mem_flatten.1 h
  rwa [← List.eq_of_mem_replicate hcode]

section

variable {body : List Inst} (h : ∀ inst ∈ body, inst.inner = true)

include h

lemma inner_optionals (greedy : Bool) (n : ℕ) :
    ∀ inst ∈ optionals greedy body n, inst.inner = true := by
  induction n with
  | zero => simp [optionals]
  | succ n ih =>
      rw [optionals, List.forall_mem_cons, List.forall_mem_append]
      exact ⟨Inst.inner_fork _ _, h, ih⟩

lemma inner_atLeastOnce (greedy : Bool) :
    ∀ inst ∈ atLeastOnce greedy body, inst.inner = true := by
  rw [atLeastOnce, List.forall_mem_append, List.forall_mem_singleton]
  exact ⟨h, Inst.inner_fork _ _⟩

lemma inner_anyTimes (greedy progresses : Bool) :
    ∀ inst ∈ anyTimes greedy progresses body, inst.inner = true := by
  rw [anyTimes]
  split
  · rw [List.cons_append, List.forall_mem_cons, List.forall_mem_append, List.forall_mem_singleton]
    exact ⟨Inst.inner_fork _ _, h, rfl⟩
  · rw [List.forall_mem_cons]
    exact ⟨Inst.inner_fork _ _, inner_atLeastOnce h greedy⟩

end

/-- An expression none of whose groups is the whole sets no marks of the whole. -/
lemma inner_code {t : Tree} (ht : t.Inner) : ∀ inst ∈ t.code, inst.inner = true := by
  induction t with
  | empty => simp [code]
  | set | look => simp [code, Inst.inner]
  | group n t ih =>
      obtain ⟨hn, ht⟩ := ht
      rw [code, List.cons_append, List.forall_mem_cons, List.forall_mem_append,
        List.forall_mem_singleton]
      exact ⟨decide_eq_true (by omega), ih ht, decide_eq_true (by omega)⟩
  | cat a b iha ihb =>
      rw [code, List.forall_mem_append]
      exact ⟨iha ht.1, ihb ht.2⟩
  | alt a b iha ihb =>
      rw [code, List.cons_append, List.forall_mem_cons, List.forall_mem_append,
        List.forall_mem_cons]
      exact ⟨rfl, iha ht.1, rfl, ihb ht.2⟩
  | loop t least most greedy ih =>
      have hbody := ih ht
      have hexactly (n : ℕ) : ∀ inst ∈ exactly n t.code, inst.inner = true :=
        fun inst hinst => hbody inst (mem_exactly hinst)
      cases most with
      | some most =>
          rw [code, List.forall_mem_append]
          exact ⟨hexactly _, inner_optionals hbody greedy _⟩
      | none =>
          rw [code]
          split
          · exact inner_anyTimes hbody greedy _
          · rw [List.forall_mem_append]
            exact ⟨hexactly _, inner_atLeastOnce hbody greedy⟩

end Tree

namespace Automaton

/-! ### Ways -/

/-- The instructions that ways lead to which begin at the place `start` or behind it, with the
places that they pass and the marks that they set. -/
inductive Reaches (a : Automaton) (start : ℕ) : ℕ → ℕ → Marks → Prop
  | enter {place : ℕ} (h : start ≤ place) : Reaches a start 0 place []
  | set {i place : ℕ} {marks : Marks} {s : CharSet} (hinst : a.insts[i]? = some (.set s))
      (h : Reaches a start i place marks) : Reaches a start (i + 1) (place + 1) marks
  | look {i place : ℕ} {marks : Marks} {l : Look} (hinst : a.insts[i]? = some (.look l))
      (h : Reaches a start i place marks) : Reaches a start (i + 1) place marks
  | mark {i place : ℕ} {marks : Marks} {slot : ℕ} (hinst : a.insts[i]? = some (.mark slot))
      (h : Reaches a start i place marks) : Reaches a start (i + 1) place ((slot, place) :: marks)
  | first {i place : ℕ} {marks : Marks} {first second : ℤ}
      (hinst : a.insts[i]? = some (.split first second)) (h : Reaches a start i place marks) :
      Reaches a start (target i first) place marks
  | second {i place : ℕ} {marks : Marks} {first second : ℤ}
      (hinst : a.insts[i]? = some (.split first second)) (h : Reaches a start i place marks) :
      Reaches a start (target i second) place marks
  | jump {i place : ℕ} {marks : Marks} {offset : ℤ} (hinst : a.insts[i]? = some (.jump offset))
      (h : Reaches a start i place marks) : Reaches a start (target i offset) place marks

/-- A way that begins at the place `start` or behind it, with the marks that it sets, accepts at the
place `stop` or before it. -/
def Accepts (a : Automaton) (start stop : ℕ) (marks : Marks) : Prop :=
  ∃ i place, place ≤ stop ∧ a.insts[i]? = some .accept ∧ a.Reaches start i place marks

/-- All ways that wait at a place are reached. -/
def AllReached (a : Automaton) (start place : ℕ) (threads : List Thread) : Prop :=
  ∀ t ∈ threads, a.Reaches start t.inst place t.marks

variable {a : Automaton} {start : ℕ}

/-- A way leads only to what is reached. -/
lemma follow_reaches (here : Place) (fuel i : ℕ) (marks : Marks) (reached : Reached)
    (hi : a.Reaches start i here.position marks)
    (h : a.AllReached start here.position reached.waiting) :
    a.AllReached start here.position (a.follow here fuel i marks reached).waiting := by
  induction fuel generalizing i marks reached with
  | zero => exact h
  | succ fuel ih =>
      have hwaits : a.AllReached start here.position (⟨i, marks⟩ :: reached.waiting) :=
        List.forall_mem_cons.2 ⟨hi, h⟩
      cases hbit : reached.entered.testBit i with
      | true => rwa [follow_entered hbit]
      | false =>
          cases hinst : a.insts[i]? with
          | none => rwa [follow_missing hbit hinst]
          | some inst =>
              cases inst with
              | set | accept => rwa [follow_waits hbit ⟨_, hinst, rfl⟩]
              | look l =>
                  rw [follow_look hbit hinst]
                  split
                  · exact ih _ _ _ (.look hinst hi) h
                  · exact h
              | mark slot =>
                  rw [follow_mark hbit hinst]
                  exact ih _ _ _ (.mark hinst hi) h
              -- The second way starts from all that the first one has reached.
              | split first second =>
                  rw [follow_split hbit hinst]
                  exact ih _ _ _ (.second hinst hi) (ih _ _ _ (.first hinst hi) h)
              | jump offset =>
                  rw [follow_jump hbit hinst]
                  exact ih _ _ _ (.jump hinst hi) h

lemma entered_reaches (entering : Bool) (here : Place) (hstart : start ≤ here.position)
    {reached : Reached} (h : a.AllReached start here.position reached.waiting) :
    a.AllReached start here.position
      (if entering then a.enter here reached else reached).waiting := by
  split
  · exact follow_reaches here _ _ _ _ (.enter hstart) h
  · exact h

/-- The first of the ways that wait which accepts. -/
lemma cut_reaches {place : ℕ} {threads : List Thread} (h : a.AllReached start place threads)
    {marks : Marks} (hfound : (a.cut threads).2 = some marks) : a.Accepts start place marks := by
  induction threads with
  | nil => cases hfound
  | cons t threads ih =>
      obtain ⟨ht, hthreads⟩ := List.forall_mem_cons.1 h
      rw [cut] at hfound
      split at hfound
      · rename_i hinst
        obtain rfl := Option.some.inj hfound
        exact ⟨t.inst, place, le_rfl, hinst, ht⟩
      · exact ih hthreads hfound

/-- Passing a character leads only to what is reached behind it. -/
lemma pass_reaches (c : Char) (here : Place) {place : ℕ} (hplace : here.position = place + 1)
    {live : List Thread} (hlive : a.AllReached start place live) {reached : Reached}
    (h : a.AllReached start here.position reached.waiting) :
    a.AllReached start here.position (live.foldl (a.pass c here) reached).waiting := by
  induction live generalizing reached with
  | nil => exact h
  | cons t live ih =>
      obtain ⟨ht, hlive⟩ := List.forall_mem_cons.1 hlive
      refine ih hlive ?_
      rw [pass]
      split
      · rename_i s hinst
        split
        · exact follow_reaches here _ _ _ _ (hplace ▸ .set hinst ht) h
        · exact h
      · exact h

/-- A search from a place on finds the marks of a way that accepts within the text. -/
lemma searchFrom_reaches (anywhere entering : Bool) (before : Option Char) (position : ℕ)
    {reached : Reached} (best : Option Marks) (rest : Text) (hstart : start ≤ position)
    (hreached : a.AllReached start position reached.waiting)
    (hbest : ∀ marks, best = some marks → a.Accepts start (position + rest.length) marks)
    {marks : Marks}
    (hfound : a.searchFrom anywhere entering before position reached best rest = some marks) :
    a.Accepts start (position + rest.length) marks := by
  -- The preferred match so far is that of a way which waits, or was there before.
  have hpreferred {position stop : ℕ} (hstop : position ≤ stop) {best : Option Marks}
      (hbest : ∀ marks, best = some marks → a.Accepts start stop marks) {waiting : List Thread}
      (hwaiting : a.AllReached start position waiting) (marks : Marks)
      (hmarks : (a.cut waiting.reverse).2.or best = some marks) : a.Accepts start stop marks := by
    obtain hfirst | ⟨-, hlast⟩ := Option.or_eq_some_iff.1 hmarks
    · obtain ⟨i, place, hplace, haccepts⟩ :=
        cut_reaches (fun t ht => hwaiting t (List.mem_reverse.1 ht)) hfirst
      exact ⟨i, place, hplace.trans hstop, haccepts⟩
    · exact hbest marks hlast
  induction rest generalizing entering before position reached best with
  | nil =>
      rw [searchFrom] at hfound
      exact hpreferred (Nat.le_add_right _ _) hbest
        (entered_reaches _ ⟨before, none, position⟩ hstart hreached) _ hfound
  | cons c rest ih =>
      have hentered := entered_reaches (entering && best.isNone) ⟨before, some c, position⟩ hstart
        hreached
      have hbest' := hpreferred (Nat.le_add_right position (c :: rest).length) hbest hentered
      rw [searchFrom] at hfound
      generalize (if entering && best.isNone then
        a.enter ⟨before, some c, position⟩ reached else reached) = entered at hentered hbest' hfound
      dsimp only at hfound
      split at hfound
      · exact hbest' _ hfound
      · have hlength : position + (c :: rest).length = position + 1 + rest.length := by
          rw [List.length_cons]
          omega
        rw [hlength] at hbest' ⊢
        refine ih _ _ _ _ (by omega) ?_ hbest' hfound
        refine pass_reaches c _ rfl (fun t ht => ?_) (by simp [AllReached, Reached.none])
        exact hentered t (List.mem_reverse.1 (cut_subset _ ht))

/-! ### Marks of the whole -/

/-- What an instruction of the automaton of an expression is: one of those that mark where the whole
begins and ends, or accept, or one of the code of the expression. -/
lemma inst_ofTree {t : Tree} {i : ℕ} {inst : Inst} (h : (ofTree t).insts[i]? = some inst) :
    i = 0 ∧ inst = .mark 0 ∨ (∃ j, i = j + 1 ∧ j < t.code.length ∧ t.code[j]? = some inst) ∨
      i = t.code.length + 1 ∧ inst = .mark 1 ∨ i = t.code.length + 2 ∧ inst = .accept := by
  have hcode : (ofTree t).insts.toList = .mark 0 :: (t.code ++ [.mark 1, .accept]) := by
    simp [ofTree, Tree.code]
  rw [← Array.getElem?_toList, hcode] at h
  cases i with
  | zero => exact .inl ⟨rfl, (Option.some.inj h).symm⟩
  | succ j =>
      rw [List.getElem?_cons_succ] at h
      obtain hj | hj := lt_or_ge j t.code.length
      · rw [List.getElem?_append_left hj] at h
        exact .inr (.inl ⟨j, rfl, hj, h⟩)
      · rw [List.getElem?_append_right hj] at h
        obtain ⟨k, rfl⟩ := Nat.exists_eq_add_of_le hj
        rw [Nat.add_sub_cancel_left] at h
        obtain - | - | k := k
        · exact .inr (.inr (.inl ⟨rfl, (Option.some.inj h).symm⟩))
        · exact .inr (.inr (.inr ⟨rfl, (Option.some.inj h).symm⟩))
        · cases h

/-- What a way has marked at an instruction of the automaton of an expression: the beginning of the
whole as soon as it has been passed, and its end at the instruction that accepts. -/
structure Marked (t : Tree) (start i place : ℕ) (marks : Marks) : Prop where
  start_le : start ≤ place
  bounds : ∀ mark ∈ marks, start ≤ mark.2 ∧ mark.2 ≤ place
  begins : 0 < i → ∃ p, marks.lookup 0 = some p
  ends : i = t.code.length + 2 → marks.lookup 1 = some place

namespace Marked

variable {t : Tree} {start i place : ℕ} {marks : Marks}

/-- Within the code of the expression the marks of the whole are kept. -/
lemma goTo (h : Marked t start i place marks) (hi : 0 < i) {i' place' : ℕ}
    (hwithin : i' ≤ t.code.length + 1) (hplace : place ≤ place') :
    Marked t start i' place' marks where
  start_le := h.start_le.trans hplace
  bounds mark hmark := ⟨(h.bounds mark hmark).1, (h.bounds mark hmark).2.trans hplace⟩
  begins _ := h.begins hi
  ends hend := by omega

/-- A mark of the whole, or within the expression. -/
lemma mark (h : Marked t start i place marks) {slot : ℕ}
    (hslot : i = 0 ∧ slot = 0 ∨ (0 < i ∧ i ≤ t.code.length ∧ 2 ≤ slot) ∨
      i = t.code.length + 1 ∧ slot = 1) :
    Marked t start (i + 1) place ((slot, place) :: marks) where
  start_le := h.start_le
  bounds := List.forall_mem_cons.2 ⟨⟨h.start_le, le_rfl⟩, h.bounds⟩
  begins _ := by
    obtain ⟨-, rfl⟩ | hinner := hslot
    · exact ⟨place, rfl⟩
    · obtain ⟨p, hp⟩ := h.begins (by omega)
      have hne : (0 == slot) = false := by
        rw [beq_eq_false_iff_ne]
        omega
      exact ⟨p, by rwa [List.lookup_cons, hne]⟩
  ends hend := by
    obtain rfl : slot = 1 := by omega
    rfl

end Marked

/-- A way through the automaton of an expression sets the marks of the whole. -/
lemma Reaches.marked {t : Tree} (ht : t.Inner) {start i place : ℕ} {marks : Marks}
    (h : (ofTree t).Reaches start i place marks) : Marked t start i place marks := by
  -- No target of an instruction of the expression is further than right behind it.
  have htargets {j : ℕ} {inst : Inst} (hinst : t.code[j]? = some inst) :
      inst.Targets fun o => target (j + 1) o ≤ t.code.length + 1 := by
    have hj := (List.getElem?_eq_some_iff.1 hinst).1
    refine (((t.thins_code ht).thinsAt j hj inst hinst).1).mono fun o ho => ?_
    simp only [target]
    omega
  have hcode {i : ℕ} {inst : Inst} (hinst : (ofTree t).insts[i]? = some inst)
      (hmark : ∀ slot, inst ≠ .mark slot) (haccept : inst ≠ .accept) :
      ∃ j, i = j + 1 ∧ j < t.code.length ∧ t.code[j]? = some inst := by
    obtain ⟨-, rfl⟩ | hbody | ⟨-, rfl⟩ | ⟨-, rfl⟩ := inst_ofTree hinst
    · exact absurd rfl (hmark 0)
    · exact hbody
    · exact absurd rfl (hmark 1)
    · exact absurd rfl haccept
  induction h with
  | enter h => exact ⟨h, by simp, fun h => absurd h (lt_irrefl 0), by omega⟩
  | set hinst _ ih =>
      obtain ⟨j, rfl, hj, -⟩ := hcode hinst (by simp) (by simp)
      exact ih.goTo (Nat.succ_pos _) (by omega) (Nat.le_succ _)
  | look hinst _ ih =>
      obtain ⟨j, rfl, hj, -⟩ := hcode hinst (by simp) (by simp)
      exact ih.goTo (Nat.succ_pos _) (by omega) le_rfl
  | @mark i place marks slot hinst _ ih =>
      refine ih.mark ?_
      obtain ⟨rfl, hmark⟩ | ⟨j, rfl, hj, hbody⟩ | ⟨rfl, hmark⟩ | ⟨-, hmark⟩ := inst_ofTree hinst
      · exact .inl ⟨rfl, Inst.mark.inj hmark⟩
      · have hslot := Tree.inner_code ht _ (List.mem_of_getElem? hbody)
        exact .inr (.inl ⟨by omega, hj, of_decide_eq_true hslot⟩)
      · exact .inr (.inr ⟨rfl, Inst.mark.inj hmark⟩)
      · cases hmark
  | first hinst _ ih =>
      obtain ⟨j, rfl, -, hbody⟩ := hcode hinst (by simp) (by simp)
      exact ih.goTo (Nat.succ_pos _) (htargets hbody).1 le_rfl
  | second hinst _ ih =>
      obtain ⟨j, rfl, -, hbody⟩ := hcode hinst (by simp) (by simp)
      exact ih.goTo (Nat.succ_pos _) (htargets hbody).2 le_rfl
  | jump hinst _ ih =>
      obtain ⟨j, rfl, -, hbody⟩ := hcode hinst (by simp) (by simp)
      exact ih.goTo (Nat.succ_pos _) (htargets hbody) le_rfl

lemma mem_of_lookup {marks : Marks} {slot p : ℕ} (h : marks.lookup slot = some p) :
    (slot, p) ∈ marks := by
  obtain ⟨marks₁, marks₂, rfl, -⟩ := List.lookup_eq_some_iff.1 h
  exact List.mem_append_right _ List.mem_cons_self

/-- The marks that a search for an expression finds: where the match begins and ends, and within the
match nothing before the place where the search began. -/
lemma Accepts.bounds {t : Tree} (ht : t.Inner) {start stop : ℕ} {marks : Marks}
    (h : (ofTree t).Accepts start stop marks) :
    ∃ first last, marks.lookup 0 = some first ∧ marks.lookup 1 = some last ∧ start ≤ first ∧
      first ≤ last ∧ last ≤ stop ∧ ∀ slot p, marks.lookup slot = some p → start ≤ p ∧ p ≤ last := by
  obtain ⟨i, place, hplace, hinst, hreaches⟩ := h
  have hmarked := hreaches.marked ht
  obtain rfl : i = t.code.length + 2 := by
    obtain ⟨-, haccept⟩ | ⟨j, -, -, hbody⟩ | ⟨-, haccept⟩ | ⟨hi, -⟩ := inst_ofTree hinst
    · cases haccept
    · have := Tree.inner_code ht _ (List.mem_of_getElem? hbody)
      cases this
    · cases haccept
    · exact hi
  obtain ⟨first, hfirst⟩ := hmarked.begins (by omega)
  obtain ⟨hstart, hlast⟩ := hmarked.bounds _ (mem_of_lookup hfirst)
  exact ⟨first, place, hfirst, hmarked.ends rfl, hstart, hlast, hplace,
    fun slot p hp => hmarked.bounds _ (mem_of_lookup hp)⟩

end Automaton

/-! ### Matches -/

/-- A match that begins and ends between `first` and `last`. -/
structure Match.Within (first last : ℕ) (m : Match) : Prop where
  first_le : first ≤ m.start
  le : m.start ≤ m.stop
  le_last : m.stop ≤ last
  whole : m.span? 0 = some (m.start, m.stop)

/-- The match that marked places describe, if the whole is marked. -/
lemma Match.within_ofMarks {groups : ℕ} (hgroups : 0 < groups) {place? : ℕ → Option ℕ}
    {first last start stop : ℕ} (hstart : place? 0 = some start) (hstop : place? 1 = some stop)
    (hfirst : first ≤ start) (hle : start ≤ stop) (hlast : stop ≤ last) :
    (ofMarks groups place?).Within first last := by
  have hwhole : (ofMarks groups place?).span? 0 = some (start, stop) := by
    rw [span?, ofMarks, List.getElem?_map, List.getElem?_range hgroups, Option.map_some,
      Option.join_some, Nat.mul_zero, Nat.zero_add, hstart, hstop]
  have hofMarks : (ofMarks groups place?).start = start ∧ (ofMarks groups place?).stop = stop := by
    simp [ofMarks, hstart, hstop]
  constructor
  · rwa [hofMarks.1]
  · rwa [hofMarks.1, hofMarks.2]
  · rwa [hofMarks.2]
  · rw [hwhole, hofMarks.1, hofMarks.2]

/-- All matches that are found begin and end within the text that is searched. -/
def Finder.Sound (find : Finder) : Prop :=
  ∀ before position rest m, find before position rest = .ok (some m) →
    m.Within position (position + rest.length)

lemma Tree.groupCount_pos (t : Tree) : 0 < t.groupCount := by
  induction t with
  | empty | set | look => exact Nat.one_pos
  | group n t ih => exact lt_max_of_lt_left (Nat.succ_pos n)
  | cat a b iha _ | alt a b iha _ => exact lt_max_of_lt_left iha
  | loop t least most greedy ih => exact ih

lemma sound_automaton {t : Tree} (ht : t.Inner) :
    (Finder.sure ((Automaton.ofTree t).find t.groupCount)).Sound :=
  fun before position rest m hfind => by
    obtain ⟨marks, hsearch, rfl⟩ := Option.map_eq_some_iff.1 (Except.ok.inj hfind)
    have haccepts := Automaton.searchFrom_reaches true true before position none rest le_rfl
      (by simp [Automaton.AllReached, Reached.none]) (by simp) hsearch
    obtain ⟨first, last, hfirst, hlast, hstart, hle, hstop, -⟩ := haccepts.bounds ht
    exact Match.within_ofMarks t.groupCount_pos hfirst hlast hstart hle hstop

end StreamEditor.Regex
