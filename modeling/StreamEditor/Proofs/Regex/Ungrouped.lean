import StreamEditor.Proofs.Regex.Plain
import StreamEditor.Proofs.Regex.Straight
import StreamEditor.Proofs.Regex.Thinned
import StreamEditor.Regex.Builtin

/-!
Groups have no influence on what an expression matches.

* `Automaton.Mirrors`: what is reached in an automaton and in a thinned one.
* `Automaton.follow_mirrors`: a way leads both to the same instructions; from this follows
  `searchFrom_mirrors`, they find the same matches.
* `captures_bare`: an expression without its groups matches the same.
-/

namespace StreamEditor.Regex

/-! ### Ways through thinned code -/

namespace Automaton

/-- The places that bound the whole match. -/
def outer (marks : Marks) : Marks := marks.filter (·.1 < 2)

lemma outer_cons_of_lt {slot : ℕ} (hslot : slot < 2) (position : ℕ) (marks : Marks) :
    outer ((slot, position) :: marks) = (slot, position) :: outer marks :=
  List.filter_cons_of_pos (by simpa using hslot)

lemma outer_cons_of_not_lt {slot : ℕ} (hslot : ¬slot < 2) (position : ℕ) (marks : Marks) :
    outer ((slot, position) :: marks) = outer marks :=
  List.filter_cons_of_neg (by simpa using hslot)

variable (a b : Automaton)

/-- The place of an instruction in a thinned automaton. -/
def place (i : ℕ) : ℕ := Regex.place a.insts.toList i

/-- A way in a thinned automaton. -/
def thread (t : Thread) : Thread := ⟨a.place t.inst, outer t.marks⟩

/-- The code of an automaton thins that of another. -/
def ThinsTo : Prop := Thins a.insts.toList b.insts.toList

/-- How many instructions have not been entered. -/
def unentered (reached : Reached) : ℕ :=
  ((Finset.range a.insts.size).filter fun i => reached.entered.testBit i = false).card

/-- What is reached in an automaton and in a thinned one: the same ways wait, and the same
instructions have been entered. Behind a mark that has been entered, so has the next instruction,
unless it is due. -/
structure Mirrors (due : Option ℕ) (reached reached' : Reached) : Prop where
  waiting : reached'.waiting = reached.waiting.map a.thread
  waits : ∀ t ∈ reached.waiting, a.Waits t.inst
  entered : ∀ i inst, a.insts[i]? = some inst → inst.kept = true →
    reached'.entered.testBit (a.place i) = reached.entered.testBit i
  passed : ∀ i inst, a.insts[i]? = some inst → inst.kept = false →
    reached.entered.testBit i = true → i + 1 ∈ due ∨ reached.entered.testBit (i + 1) = true

variable {a b}

lemma testBit_entering_eq (i : ℕ) (reached : Reached) (j : ℕ) :
    (entering i reached).entered.testBit j = (reached.entered.testBit j || decide (i = j)) := by
  rw [entering, Nat.testBit_or, Nat.one_shiftLeft, Nat.testBit_two_pow]

/-! #### Steps -/

section

variable {here : Place} {fuel i : ℕ} {marks : Marks} {reached : Reached}

lemma follow_entered (hbit : reached.entered.testBit i = true) :
    a.follow here (fuel + 1) i marks reached = reached := by
  rw [follow, if_pos hbit]

variable (hbit : reached.entered.testBit i = false)

include hbit

lemma follow_missing (hinst : a.insts[i]? = none) :
    a.follow here (fuel + 1) i marks reached = entering i reached := by
  rw [follow, if_neg (by simp [hbit])]
  simp only [hinst]
  rfl

lemma follow_look {l : Look} (hinst : a.insts[i]? = some (.look l)) :
    a.follow here (fuel + 1) i marks reached =
      if l.holds here.before here.after then a.follow here fuel (i + 1) marks (entering i reached)
      else entering i reached := by
  rw [follow, if_neg (by simp [hbit])]
  simp only [hinst]
  rfl

lemma follow_mark {slot : ℕ} (hinst : a.insts[i]? = some (.mark slot)) :
    a.follow here (fuel + 1) i marks reached =
      a.follow here fuel (i + 1) ((slot, here.position) :: marks) (entering i reached) := by
  rw [follow, if_neg (by simp [hbit])]
  simp only [hinst]
  rfl

lemma follow_split {first second : ℤ} (hinst : a.insts[i]? = some (.split first second)) :
    a.follow here (fuel + 1) i marks reached =
      a.follow here fuel (target i second) marks
        (a.follow here fuel (target i first) marks (entering i reached)) := by
  rw [follow, if_neg (by simp [hbit])]
  simp only [hinst]
  rfl

lemma follow_jump {offset : ℤ} (hinst : a.insts[i]? = some (.jump offset)) :
    a.follow here (fuel + 1) i marks reached =
      a.follow here fuel (target i offset) marks (entering i reached) := by
  rw [follow, if_neg (by simp [hbit])]
  simp only [hinst]
  rfl

lemma follow_waits (hwaits : a.Waits i) :
    a.follow here (fuel + 1) i marks reached =
      { entering i reached with waiting := ⟨i, marks⟩ :: reached.waiting } := by
  obtain ⟨inst, hinst, hwaits⟩ := hwaits
  rw [follow, if_neg (by simp [hbit])]
  cases inst with
  | set | accept =>
      simp only [hinst]
      rfl
  | look | mark | split | jump => cases hwaits

end

/-- What has been entered stays so. -/
lemma testBit_follow (here : Place) (fuel i : ℕ) (marks : Marks) (reached : Reached) {j : ℕ}
    (hj : reached.entered.testBit j = true) :
    (a.follow here fuel i marks reached).entered.testBit j = true := by
  induction fuel generalizing i marks reached with
  | zero => exact hj
  | succ fuel ih =>
      have hnext : (entering i reached).entered.testBit j = true := by
        rw [testBit_entering_eq, hj, Bool.true_or]
      cases hbit : reached.entered.testBit i with
      | true => rwa [follow_entered hbit]
      | false =>
          cases hinst : a.insts[i]? with
          | none => rwa [follow_missing hbit hinst]
          | some inst =>
              cases inst with
              | set | accept => rwa [follow_waits hbit ⟨_, hinst, rfl⟩]
              | look l =>
                  rw [follow_look hbit hinst]
                  split
                  · exact ih _ _ _ hnext
                  · exact hnext
              | mark slot =>
                  rw [follow_mark hbit hinst]
                  exact ih _ _ _ hnext
              | split first second =>
                  rw [follow_split hbit hinst]
                  exact ih _ _ _ (ih _ _ _ hnext)
              | jump offset =>
                  rw [follow_jump hbit hinst]
                  exact ih _ _ _ hnext

lemma unentered_le (reached : Reached) : a.unentered reached ≤ a.insts.size :=
  (Finset.card_filter_le _ _).trans (Finset.card_range _).le

/-- Entering an instruction leaves fewer to enter. -/
lemma unentered_entering {i : ℕ} {reached : Reached} (hi : i < a.insts.size)
    (hbit : reached.entered.testBit i = false) :
    a.unentered (entering i reached) < a.unentered reached := by
  refine Finset.card_lt_card (Finset.ssubset_iff_of_subset ?_ |>.2 ⟨i, ?_, ?_⟩)
  · intro j hj
    rw [Finset.mem_filter, testBit_entering_eq, Bool.or_eq_false_iff] at hj
    exact Finset.mem_filter.2 ⟨hj.1, hj.2.1⟩
  · exact Finset.mem_filter.2 ⟨Finset.mem_range.2 hi, hbit⟩
  · rw [Finset.mem_filter, testBit_entering_eq]
    simp

lemma unentered_follow (here : Place) (fuel i : ℕ) (marks : Marks) (reached : Reached) :
    a.unentered (a.follow here fuel i marks reached) ≤ a.unentered reached := by
  refine Finset.card_le_card fun j hj => ?_
  rw [Finset.mem_filter] at hj ⊢
  refine ⟨hj.1, Bool.eq_false_iff.2 fun h => ?_⟩
  rw [testBit_follow here fuel i marks reached h] at hj
  exact absurd hj.2 (by decide)

/-! #### Both automata -/

variable (h : a.ThinsTo b)

include h

lemma place_of_size_le {i : ℕ} (hi : a.insts.size ≤ i) : a.place i = b.insts.size := by
  rw [place, place_of_length_le (by simpa using hi), ← h.length, Array.length_toList]

lemma thinned_inst {i : ℕ} {inst : Inst} (hinst : a.insts[i]? = some inst)
    (hkept : inst.kept = true) :
    b.insts[a.place i]? =
      some (inst.retarget fun o => a.place ((i : ℤ) + o).toNat - a.place i) := by
  have hlist : a.insts.toList[i]? = some inst := by simpa using hinst
  have hi : i < a.insts.toList.length := (List.getElem?_eq_some_iff.1 hlist).1
  simpa [place] using (h.thinsAt i hi inst hlist).2 hkept

lemma target_le {i : ℕ} {inst : Inst} (hinst : a.insts[i]? = some inst) :
    inst.Targets fun o => target i o ≤ a.insts.size ∧
      target (a.place i) (a.place (target i o) - a.place i) = a.place (target i o) := by
  have hlist : a.insts.toList[i]? = some inst := by simpa using hinst
  have hi : i < a.insts.toList.length := (List.getElem?_eq_some_iff.1 hlist).1
  refine ((h.thinsAt i hi inst hlist).1).mono fun o ho => ?_
  rw [Array.length_toList] at ho
  simp only [target]
  omega

omit h in
lemma place_lt {i j : ℕ} {inst : Inst} (hinst : a.insts[i]? = some inst)
    (hkept : inst.kept = true) (hij : i < j) : a.place i < a.place j := by
  have hlist : a.insts.toList[i]? = some inst := by simpa using hinst
  have hnext : a.place (i + 1) = a.place i + 1 := place_succ hlist hkept
  have hle : a.place (i + 1) ≤ a.place j :=
    ((List.take_prefix_take_left hij).sublist).countP_le
  omega

omit h in
lemma place_succ_of_kept {i : ℕ} {inst : Inst} (hinst : a.insts[i]? = some inst)
    (hkept : inst.kept = true) : a.place (i + 1) = a.place i + 1 :=
  Regex.place_succ (by simpa using hinst) hkept

omit h in
lemma place_succ_of_not_kept {i : ℕ} {inst : Inst} (hinst : a.insts[i]? = some inst)
    (hkept : inst.kept = false) : a.place (i + 1) = a.place i := by
  have hlist : a.insts.toList[i]? = some inst := by simpa using hinst
  rw [place, Regex.place, List.take_add_one, List.countP_append, hlist, Option.toList_some,
    List.countP_singleton, hkept]
  rfl

namespace Mirrors

variable {due : Option ℕ} {i : ℕ} {inst : Inst} {reached reached' : Reached}

omit h

/-- When an instruction has been entered that was due, none is. -/
lemma of_entered (hr : Mirrors a (some i) reached reached')
    (hbit : reached.entered.testBit i = true) : Mirrors a none reached reached' where
  waiting := hr.waiting
  waits := hr.waits
  entered := hr.entered
  passed j inst hinst hkept hj := by
    obtain hdue | hnext := hr.passed j inst hinst hkept hj
    · obtain rfl : i = j + 1 := Option.some.inj hdue
      exact .inr hbit
    · exact .inr hnext

lemma mono (hr : Mirrors a none reached reached') (due : Option ℕ) :
    Mirrors a due reached reached' where
  waiting := hr.waiting
  waits := hr.waits
  entered := hr.entered
  passed j inst hinst hkept hj := (hr.passed j inst hinst hkept hj).imp_left (by simp)

/-- Behind a mark that is not kept the next instruction is entered too, once that is done which was
due. -/
lemma passed_entering (hr : Mirrors a (some i) reached reached') {j : ℕ}
    (hinst : a.insts[j]? = some inst) (hkept : inst.kept = false)
    (hj : reached.entered.testBit j = true) :
    (entering i reached).entered.testBit (j + 1) = true := by
  rw [testBit_entering_eq, Bool.or_eq_true, decide_eq_true_eq]
  obtain hdue | hnext := hr.passed j inst hinst hkept hj
  · exact .inr (Option.some.inj hdue)
  · exact .inl hnext

/-- Entering an instruction that is not kept makes no difference to those that are. -/
lemma entered_entering (hr : Mirrors a due reached reached')
    (hdropped : ∀ inst ∈ a.insts[i]?, inst.kept = false) (j : ℕ) (inst' : Inst)
    (hinst' : a.insts[j]? = some inst') (hkept' : inst'.kept = true) :
    reached'.entered.testBit (a.place j) = (entering i reached).entered.testBit j := by
  have hne : i ≠ j := by
    rintro rfl
    rw [hdropped inst' hinst'] at hkept'
    cases hkept'
  rw [testBit_entering_eq, hr.entered j inst' hinst' hkept', decide_eq_false hne, Bool.or_false]

/-- An instruction that is kept is entered in both automata. -/
lemma enter (hr : Mirrors a (some i) reached reached') (hinst : a.insts[i]? = some inst)
    (hkept : inst.kept = true) :
    Mirrors a none (entering i reached) (entering (a.place i) reached') where
  waiting := hr.waiting
  waits := hr.waits
  entered j inst' hinst' hkept' := by
    have hsame : decide (a.place i = a.place j) = decide (i = j) := by
      rw [decide_eq_decide]
      refine ⟨fun hplace => ?_, congrArg _⟩
      obtain hlt | heq | hlt := lt_trichotomy i j
      · have := place_lt hinst hkept hlt
        omega
      · exact heq
      · have := place_lt hinst' hkept' hlt
        omega
    rw [testBit_entering_eq, testBit_entering_eq, hr.entered j inst' hinst' hkept', hsame]
  passed j inst' hinst' hkept' hj := by
    rw [testBit_entering_eq, Bool.or_eq_true, decide_eq_true_eq] at hj
    obtain hj | rfl := hj
    · exact .inr (hr.passed_entering hinst' hkept' hj)
    · rw [hinst] at hinst'
      rw [← Option.some.inj hinst', hkept] at hkept'
      cases hkept'

/-- A mark that is not kept is entered in one automaton only, and makes the next instruction
due. -/
lemma enter_mark (hr : Mirrors a (some i) reached reached') (hinst : a.insts[i]? = some inst)
    (hkept : inst.kept = false) : Mirrors a (some (i + 1)) (entering i reached) reached' where
  waiting := hr.waiting
  waits := hr.waits
  entered := hr.entered_entering (by rw [hinst]; rintro _ ⟨⟩; exact hkept)
  passed j inst' hinst' hkept' hj := by
    rw [testBit_entering_eq, Bool.or_eq_true, decide_eq_true_eq] at hj
    obtain hj | rfl := hj
    · exact .inr (hr.passed_entering hinst' hkept' hj)
    · exact .inl rfl

/-- An instruction that waits for the next character does so in both automata. -/
lemma wait (hr : Mirrors a none (entering i reached) (entering (a.place i) reached'))
    (hwaits : a.Waits i) (marks : Marks) :
    Mirrors a none { entering i reached with waiting := ⟨i, marks⟩ :: reached.waiting }
      { entering (a.place i) reached' with
        waiting := ⟨a.place i, outer marks⟩ :: reached'.waiting } where
  waiting := congrArg₂ List.cons rfl hr.waiting
  waits := List.forall_mem_cons.2 ⟨hwaits, hr.waits⟩
  entered := hr.entered
  passed := hr.passed

/-- Behind the last instruction there is nothing to enter. -/
lemma enter_end (hr : Mirrors a (some i) reached reached') (hi : a.insts[i]? = none) :
    Mirrors a none (entering i reached) reached' where
  waiting := hr.waiting
  waits := hr.waits
  entered := hr.entered_entering (by rw [hi]; nofun)
  passed j inst' hinst' hkept' hj := by
    rw [testBit_entering_eq, Bool.or_eq_true, decide_eq_true_eq] at hj
    obtain hj | rfl := hj
    · exact .inr (hr.passed_entering hinst' hkept' hj)
    · rw [hi] at hinst'
      cases hinst'

include h

/-- The thinned automaton may run to its end. -/
lemma follow_end (hr : Mirrors a due reached reached') (here : Place) (fuel : ℕ) (marks : Marks) :
    Mirrors a due reached (b.follow here fuel b.insts.size marks reached') := by
  cases fuel with
  | zero => exact hr
  | succ fuel =>
      cases hbit : reached'.entered.testBit b.insts.size with
      | true => rwa [follow_entered hbit]
      | false =>
          rw [follow_missing hbit (Array.getElem?_eq_none le_rfl)]
          refine ⟨hr.waiting, hr.waits, fun j inst hinst hkept => ?_, hr.passed⟩
          have hne : b.insts.size ≠ a.place j :=
            (lt_size (thinned_inst h hinst hkept)).ne'
          rw [testBit_entering_eq, hr.entered j inst hinst hkept, decide_eq_false hne,
            Bool.or_false]

/-- Where one automaton has entered an instruction, the other one has nothing to do. -/
lemma follow_entered (hr : Mirrors a none reached reached')
    (hbit : reached.entered.testBit i = true) (hi : i ≤ a.insts.size) (here : Place) (fuel : ℕ)
    (marks : Marks) :
    Mirrors a none reached (b.follow here (fuel + 1) (a.place i) marks reached') := by
  -- The marks that are not kept are passed one after the other.
  induction hn : a.insts.size - i generalizing i with
  | zero =>
      rw [place_of_size_le h (by omega)]
      exact hr.follow_end h here _ marks
  | succ n ih =>
      have hlt : i < a.insts.size := by omega
      have hinst : a.insts[i]? = some a.insts[i] := Array.getElem?_eq_getElem hlt
      cases hkept : a.insts[i].kept with
      | true =>
          rw [Automaton.follow_entered ((hr.entered i _ hinst hkept).trans hbit)]
          exact hr
      | false =>
          obtain hdue | hnext := hr.passed i _ hinst hkept hbit
          · cases hdue
          · rw [← place_succ_of_not_kept hinst hkept]
            exact ih hnext (by omega) (by omega)

end Mirrors

/-- An instruction that is kept leads both automata the same way, if they agree from there on. -/
lemma follow_kept (here : Place) {fuel fuel' i : ℕ} {inst : Inst} (marks : Marks)
    {reached reached' : Reached}
    (hrest : ∀ j ≤ a.insts.size, ∀ marks r r', Mirrors a none r r' → a.unentered r < fuel →
      b.unentered r' < fuel' → Mirrors a none (a.follow here fuel j marks r)
        (b.follow here fuel' (a.place j) (outer marks) r'))
    (hr : Mirrors a (some i) reached reached') (hinst : a.insts[i]? = some inst)
    (hkept : inst.kept = true) (hbit : reached.entered.testBit i = false)
    (hfuel : a.unentered reached < fuel + 1) (hfuel' : b.unentered reached' < fuel' + 1) :
    Mirrors a none (a.follow here (fuel + 1) i marks reached)
      (b.follow here (fuel' + 1) (a.place i) (outer marks) reached') := by
  have hlt : i < a.insts.size := lt_size hinst
  have hbit' : reached'.entered.testBit (a.place i) = false :=
    (hr.entered i inst hinst hkept).trans hbit
  have hinst' := thinned_inst h hinst hkept
  have hless := (unentered_entering hlt hbit).trans_le (Nat.le_of_lt_succ hfuel)
  have hless' := (unentered_entering (lt_size hinst') hbit').trans_le (Nat.le_of_lt_succ hfuel')
  have hnext := hr.enter hinst hkept
  have htargets := target_le h hinst
  cases inst with
  | set | accept =>
      rw [follow_waits hbit ⟨_, hinst, rfl⟩, follow_waits hbit' ⟨_, hinst', rfl⟩]
      exact hnext.wait ⟨_, hinst, rfl⟩ marks
  | look l =>
      rw [follow_look hbit hinst, follow_look hbit' hinst', ← place_succ_of_kept hinst hkept]
      split
      · exact hrest _ hlt _ _ _ hnext hless hless'
      · exact hnext
  | mark slot =>
      rw [follow_mark hbit hinst, follow_mark hbit' hinst', ← place_succ_of_kept hinst hkept,
        ← outer_cons_of_lt (of_decide_eq_true hkept)]
      exact hrest _ hlt _ _ _ hnext hless hless'
  | split first second =>
      obtain ⟨⟨hfirst, hplace⟩, hsecond, hplace'⟩ := htargets
      have hsplit : b.insts[a.place i]? = some (.split (a.place (target i first) - a.place i)
          (a.place (target i second) - a.place i)) := hinst'
      have hway := hrest _ hfirst marks _ _ hnext hless hless'
      -- The way of the second target starts from what the first one has entered.
      have hleft := (unentered_follow (a := a) here fuel (target i first) marks _).trans_lt hless
      have hleft' := (unentered_follow (a := b) here fuel' (a.place (target i first)) (outer marks)
        _).trans_lt hless'
      rw [follow_split hbit hinst, follow_split hbit' hsplit, hplace, hplace']
      exact hrest _ hsecond marks _ _ hway hleft hleft'
  | jump offset =>
      obtain ⟨htarget, hplace⟩ := htargets
      have hjump : b.insts[a.place i]? = some (.jump (a.place (target i offset) - a.place i)) :=
        hinst'
      rw [follow_jump hbit hinst, follow_jump hbit' hjump, hplace]
      exact hrest _ htarget marks _ _ hnext hless hless'

/-- Both automata follow a way to the same instructions. -/
lemma follow_mirrors (here : Place) {fuel i : ℕ} (marks : Marks) {reached : Reached}
    {fuel' : ℕ} {reached' : Reached} (hr : Mirrors a (some i) reached reached')
    (hi : i ≤ a.insts.size) (hfuel : a.unentered reached < fuel)
    (hfuel' : b.unentered reached' < fuel') :
    Mirrors a none (a.follow here fuel i marks reached)
      (b.follow here fuel' (a.place i) (outer marks) reached') := by
  -- The thinned automaton has no step for a mark that is not kept, so its fuel is of its own.
  induction fuel generalizing i marks reached fuel' reached' with
  | zero => omega
  | succ fuel ih =>
      obtain ⟨fuel', rfl⟩ : ∃ n, fuel' = n + 1 := ⟨fuel' - 1, by omega⟩
      cases hbit : reached.entered.testBit i with
      | true =>
          rw [follow_entered hbit]
          exact (hr.of_entered hbit).follow_entered h hbit hi here fuel' (outer marks)
      | false =>
          cases hinst : a.insts[i]? with
          | none =>
              rw [follow_missing hbit hinst,
                place_of_size_le h (Array.getElem?_eq_none_iff.1 hinst)]
              exact (hr.enter_end hinst).follow_end h here _ _
          | some inst =>
              cases hkept : inst.kept with
              | true =>
                  exact follow_kept h here marks
                    (fun j hj marks r r' hr => ih marks (hr.mono (some j)) hj)
                    hr hinst hkept hbit hfuel hfuel'
              | false =>
                  have hlt : i < a.insts.size := lt_size hinst
                  have hless := unentered_entering hlt hbit
                  cases inst with
                  | mark slot =>
                      rw [follow_mark hbit hinst, ← place_succ_of_not_kept hinst hkept,
                        ← outer_cons_of_not_lt (of_decide_eq_false hkept) here.position]
                      exact ih _ (hr.enter_mark hinst hkept) hlt (by omega) hfuel'
                  | set | look | split | jump | accept => cases hkept

/-! #### Searches -/

omit h in
lemma mirrors_none : Mirrors a none .none .none where
  waiting := rfl
  waits t ht := by cases ht
  entered i inst _ _ := by simp [Reached.none]
  passed i inst _ _ hbit := by simp [Reached.none] at hbit

lemma enter_mirrors (here : Place) {reached reached' : Reached}
    (hr : Mirrors a none reached reached') :
    Mirrors a none (a.enter here reached) (b.enter here reached') :=
  follow_mirrors h here [] (hr.mono _) (Nat.zero_le _) (Nat.lt_succ_of_le (unentered_le _))
    (Nat.lt_succ_of_le (unentered_le _))

omit h in
lemma cut_subset (threads : List Thread) : (a.cut threads).1 ⊆ threads :=
  (cut_spec none 0 [] threads).1.subset

lemma cut_mirrors {threads : List Thread} (hwaits : ∀ t ∈ threads, a.Waits t.inst) :
    b.cut (threads.map a.thread) =
      ((a.cut threads).1.map a.thread, (a.cut threads).2.map outer) := by
  induction threads with
  | nil => rfl
  | cons t threads ih =>
      obtain ⟨⟨inst, hinst, ht⟩, hwaits⟩ := List.forall_mem_cons.1 hwaits
      rw [List.map_cons, cut, cut]
      cases inst with
      | set s =>
          have hinst' : b.insts[(a.thread t).inst]? = some (.set s) := thinned_inst h hinst rfl
          simp only [hinst, hinst', ih hwaits]
          rfl
      | accept =>
          have hinst' : b.insts[(a.thread t).inst]? = some .accept := thinned_inst h hinst rfl
          simp only [hinst, hinst']
          rfl
      | look | mark | split | jump => cases ht

lemma pass_mirrors (c : Char) (here : Place) {reached reached' : Reached}
    (hr : Mirrors a none reached reached') {t : Thread} (ht : a.Waits t.inst) :
    Mirrors a none (a.pass c here reached t) (b.pass c here reached' (a.thread t)) := by
  obtain ⟨inst, hinst, ht⟩ := ht
  rw [pass, pass]
  cases inst with
  | set s =>
      have hinst' : b.insts[(a.thread t).inst]? = some (.set s) := thinned_inst h hinst rfl
      simp only [hinst, hinst']
      split
      · have hnext : (a.thread t).inst + 1 = a.place (t.inst + 1) :=
          (place_succ_of_kept hinst rfl).symm
        rw [hnext]
        exact follow_mirrors h here t.marks (hr.mono _) (lt_size hinst)
          (Nat.lt_succ_of_le (unentered_le _)) (Nat.lt_succ_of_le (unentered_le _))
      · exact hr
  | accept =>
      have hinst' : b.insts[(a.thread t).inst]? = some .accept := thinned_inst h hinst rfl
      simp only [hinst, hinst']
      exact hr
  | look | mark | split | jump => cases ht

lemma foldl_pass_mirrors (c : Char) (here : Place) {live : List Thread}
    (hwaits : ∀ t ∈ live, a.Waits t.inst) {reached reached' : Reached}
    (hr : Mirrors a none reached reached') :
    Mirrors a none (live.foldl (a.pass c here) reached)
      ((live.map a.thread).foldl (b.pass c here) reached') := by
  induction live generalizing reached reached' with
  | nil => exact hr
  | cons t live ih =>
      obtain ⟨ht, hwaits⟩ := List.forall_mem_cons.1 hwaits
      exact ih hwaits (pass_mirrors h c here hr ht)

/-- What is cut off the ways that wait. -/
lemma Mirrors.cut {reached reached' : Reached} (hr : Mirrors a none reached reached') :
    b.cut reached'.waiting.reverse =
      ((a.cut reached.waiting.reverse).1.map a.thread,
        (a.cut reached.waiting.reverse).2.map outer) := by
  rw [hr.waiting, ← List.map_reverse]
  exact cut_mirrors h fun t ht => hr.waits t (List.mem_reverse.1 ht)

/-- A thinned automaton finds the same match, without the places that bound its groups. -/
lemma searchFrom_mirrors (anywhere entering : Bool) (before : Option Char) (position : ℕ)
    {reached reached' : Reached} (hr : Mirrors a none reached reached') (best : Option Marks)
    (rest : Text) :
    b.searchFrom anywhere entering before position reached' (best.map outer) rest =
      (a.searchFrom anywhere entering before position reached best rest).map outer := by
  -- A new match may begin in both automata or in neither, as both have found one or neither has.
  have hentered : ∀ (entering : Bool) (here : Place) {reached reached' : Reached}
      (best : Option Marks), Mirrors a none reached reached' →
      Mirrors a none (if entering && best.isNone then a.enter here reached else reached)
        (if entering && (best.map outer).isNone then b.enter here reached' else reached') :=
    fun entering here _ _ best hr => by
      rw [Option.isNone_map]
      split
      · exact enter_mirrors h here hr
      · exact hr
  induction rest generalizing entering before position reached reached' best with
  | nil =>
      have hcut := (hentered entering ⟨before, none, position⟩ best hr).cut h
      rw [searchFrom, searchFrom, hcut, Option.map_or]
  | cons c rest ih =>
      have hreached := hentered entering ⟨before, some c, position⟩ best hr
      have hcut := hreached.cut h
      rw [searchFrom, searchFrom, hcut]
      generalize hwaiting : (if entering && best.isNone then
        a.enter ⟨before, some c, position⟩ reached else reached) = entered at hreached hcut ⊢
      have hlive : ∀ t ∈ (a.cut entered.waiting.reverse).1, a.Waits t.inst := fun t ht =>
        hreached.waits t (List.mem_reverse.1 (cut_subset _ ht))
      have hbest : ((a.cut entered.waiting.reverse).2.map outer).or (best.map outer) =
          ((a.cut entered.waiting.reverse).2.or best).map outer := Option.map_or.symm
      simp only [hbest, List.isEmpty_map, Option.isSome_map]
      split
      · rfl
      · exact ih anywhere (some c) (position + 1)
          (foldl_pass_mirrors h c _ hlive mirrors_none) _

end Automaton

/-! ### Matches -/

/-- What a match covers. -/
def Match.span (m : Match) : ℕ × ℕ := (m.start, m.stop)

lemma lookup_outer {slot : ℕ} (hslot : slot < 2) (marks : Marks) :
    List.lookup slot (Automaton.outer marks) = List.lookup slot marks := by
  induction marks with
  | nil => rfl
  | cons m marks ih =>
      obtain ⟨s, position⟩ := m
      by_cases hs : s < 2
      · rw [Automaton.outer, List.filter_cons_of_pos (by simpa using hs), List.lookup_cons,
          List.lookup_cons, ← ih]
        rfl
      · have hne : (slot == s) = false := by
          rw [beq_eq_false_iff_ne]
          omega
        rw [Automaton.outer, List.filter_cons_of_neg (by simpa using hs), List.lookup_cons, hne]
        exact ih

/-- The automaton of an expression without its groups thins that of the expression. -/
lemma thinsTo_ofTree {t : Tree} (ht : t.Inner) :
    (Automaton.ofTree t).ThinsTo (.ofTree t.bare) := by
  have hopen : Thins [.mark 0] [.mark 0] := .single rfl fun _ => trivial
  have hclose : Thins [.mark 1] [.mark 1] := .single rfl fun _ => trivial
  have haccept : Thins [.accept] [.accept] := .single rfl fun _ => trivial
  simpa [Automaton.ThinsTo, Automaton.ofTree, Tree.code] using
    hopen.append ((t.thins_code ht).append (hclose.append haccept))

/-- The groups of an expression have no influence on what it matches. -/
lemma find_bare {t : Tree} (ht : t.Inner) (groups groups' : ℕ) (before : Option Char)
    (position : ℕ) (rest : Text) :
    ((Automaton.ofTree t.bare).find groups' before position rest).map Match.span =
      ((Automaton.ofTree t).find groups before position rest).map Match.span := by
  have hsearch : (Automaton.ofTree t.bare).search before position rest =
      ((Automaton.ofTree t).search before position rest).map Automaton.outer :=
    Automaton.searchFrom_mirrors (thinsTo_ofTree ht) true true before position
      Automaton.mirrors_none none rest
  have hspan : ∀ marks, (Match.ofMarks groups' fun slot =>
        List.lookup slot (Automaton.outer marks)).span =
      (Match.ofMarks groups fun slot => List.lookup slot marks).span := fun marks => by
    rw [Match.span, Match.span, Match.ofMarks, Match.ofMarks]
    dsimp only
    rw [lookup_outer (by decide), lookup_outer (by decide)]
  rw [Automaton.find, Automaton.find, hsearch]
  cases (Automaton.ofTree t).search before position rest with
  | none => rfl
  | some marks => exact congrArg some (hspan marks)

/-- All matches are found one by one, and depend on no more than what each covers. -/
lemma successive_span {find find' : Option Char → ℕ → Text → Option Match}
    (hfind : ∀ before position rest, (find' before position rest).map Match.span =
      (find before position rest).map Match.span)
    (fuel : ℕ) (before : Option Char) (position : ℕ) (rest : Text) (last : Option ℕ) :
    (successive (Finder.sure find') fuel before position rest last).1.map Match.span =
      (successive (Finder.sure find) fuel before position rest last).1.map Match.span := by
  induction fuel generalizing before position rest last with
  | zero => rfl
  | succ fuel ih =>
      have h := hfind before position rest
      rw [successive_succ, successive_succ, Finder.sure, Finder.sure]
      -- How the search goes on depends on where the match begins and ends, not on its groups.
      generalize find before position rest = found at h ⊢
      generalize find' before position rest = found' at h ⊢
      rcases found with - | m <;> rcases found' with - | m' <;>
        simp only [Option.map_none, Option.map_some, reduceCtorEq, Option.some.injEq] at h
      · rfl
      · obtain ⟨hstart, hstop⟩ := Prod.mk.inj h
        dsimp only
        rw [hstart, hstop]
        split
        · cases rest with
          | nil => rfl
          | cons c rest => exact ih (some c) (position + 1) rest last
        · exact congrArg₂ List.cons h (ih _ _ _ _)

/-- An expression without its groups matches the same. -/
lemma captures_bare {t : Tree} (ht : t.Inner) (text : Text) :
    (t.bare.standard.captures text).map Match.span = (t.standard.captures text).map Match.span :=
  successive_span (fun before position rest => find_bare ht _ _ before position rest) _ none 0 text
    none

end StreamEditor.Regex
