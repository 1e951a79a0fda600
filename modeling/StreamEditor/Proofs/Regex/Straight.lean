import Mathlib.Tactic
import StreamEditor.Regex.Automaton

/-!
Automata whose instructions go straight on, without splits and jumps.

* `Inst.run`: what one way through straight code comes to; `Inst.runFirst` tries one place after
  the other.
* `Settled`: the ways that wait are ordered, the last at the earliest instruction, and nothing
  up to there has been entered, so that no way ever meets another.
* `searchFrom_straight`, `search_straight`: a search finds what the first way finds that ends
  well.
-/

namespace StreamEditor.Regex

namespace Inst

/-- True for the instructions that go straight on. -/
def goesOn : Inst → Bool
  | .set _ | .look _ | .mark _ => true
  | _ => false

/-- True for the instructions at which a way waits for a character, or ends. -/
def waits : Inst → Bool
  | .set _ | .accept => true
  | _ => false

/-- The marks with which a way through straight code ends, if it does not fail. -/
def run : List Inst → Marks → Option Char → ℕ → Text → Option Marks
  | .accept :: _, marks, _, _, _ => some marks
  | .look l :: code, marks, before, position, rest =>
      if l.holds before rest.head? then run code marks before position rest else none
  | .mark slot :: code, marks, before, position, rest =>
      run code ((slot, position) :: marks) before position rest
  | .set s :: code, marks, _, position, c :: rest =>
      if s.mem c then run code marks (some c) (position + 1) rest else none
  | _, _, _, _, _ => none

/-- What comes of straight code at the first place where it does not fail. -/
def runFirst (code : List Inst) (before : Option Char) (position : ℕ) : Text → Option Marks
  | [] => run code [] before position []
  | c :: rest =>
      (run code [] before position (c :: rest)).or
        (runFirst code (some c) (position + 1) rest)

end Inst

namespace Automaton

/-- The code goes straight on up to the acceptance at its end. -/
structure Straight (a : Automaton) : Prop where
  goesOn : ∀ i inst, a.insts[i]? = some inst → i + 1 < a.insts.size → inst.goesOn = true
  accepts : a.insts[a.insts.size - 1]? = some .accept

/-- Ways wait at an instruction. -/
def Waits (a : Automaton) (i : ℕ) : Prop := ∃ inst, a.insts[i]? = some inst ∧ inst.waits = true

/-- What comes of a way. -/
def runThread (a : Automaton) (before : Option Char) (position : ℕ) (rest : Text) (t : Thread) :
    Option Marks :=
  Inst.run (a.insts.toList.drop t.inst) t.marks before position rest

variable {a : Automaton}

lemma lt_size {i : ℕ} {inst : Inst} (h : a.insts[i]? = some inst) : i < a.insts.size :=
  (Array.getElem?_eq_some_iff.1 h).1

lemma runThread_eq {i : ℕ} {inst : Inst} (h : a.insts[i]? = some inst) (before : Option Char)
    (position : ℕ) (rest : Text) (marks : Marks) :
    a.runThread before position rest ⟨i, marks⟩ =
      Inst.run (inst :: a.insts.toList.drop (i + 1)) marks before position rest := by
  obtain ⟨hi, hinst⟩ := Array.getElem?_eq_some_iff.1 h
  rw [runThread, List.drop_eq_getElem_cons (by simpa using hi), Array.getElem_toList, hinst]

/-- Before the acceptance stand only instructions that go straight on. -/
lemma Straight.cases (ha : a.Straight) {i : ℕ} {inst : Inst} (h : a.insts[i]? = some inst) :
    inst = .accept ∨ inst.goesOn = true := by
  by_cases hi : i + 1 < a.insts.size
  · exact .inr (ha.goesOn i inst h hi)
  · obtain rfl : i = a.insts.size - 1 := by
      have := lt_size h
      omega
    exact .inl (Option.some.inj (h.symm.trans ha.accepts))

/-! ### One way -/

/-- What following a way from `i` to `m` at the latest adds to what is reached. -/
structure Follows (a : Automaton) (here : Place) (rest : Text) (m i : ℕ) (marks : Marks)
    (reached result : Reached) (way : Option Thread) : Prop where
  waiting : result.waiting = way.toList ++ reached.waiting
  entered : ∀ b, result.entered.testBit b = true → reached.entered.testBit b = true ∨ i ≤ b
  stops : ∀ t ∈ way, i ≤ t.inst ∧ t.inst ≤ m ∧ a.Waits t.inst
  result : way.bind (a.runThread here.before here.position rest) =
    a.runThread here.before here.position rest ⟨i, marks⟩

/-- What is reached when an instruction is entered. -/
def entering (i : ℕ) (reached : Reached) : Reached :=
  { reached with entered := reached.entered ||| 1 <<< i }

lemma testBit_entering {i : ℕ} {reached : Reached} {b : ℕ}
    (h : (entering i reached).entered.testBit b = true) :
    reached.entered.testBit b = true ∨ b = i := by
  rw [entering, Nat.testBit_or, Bool.or_eq_true, Nat.one_shiftLeft, Nat.testBit_two_pow,
    decide_eq_true_eq] at h
  exact h.imp_right Eq.symm

namespace Follows

variable {here : Place} {rest : Text} {m i : ℕ} {marks marks' : Marks} {reached result : Reached}
  {way : Option Thread}

/-- A way that fails at `i`. -/
lemma fails (h : a.runThread here.before here.position rest ⟨i, marks⟩ = none) :
    Follows a here rest m i marks reached (entering i reached) none where
  waiting := rfl
  entered _ hb := (testBit_entering hb).imp_right Eq.ge
  stops _ ht := by cases ht
  result := h.symm

/-- A way that stops at `i`. -/
lemma stop (hi : i ≤ m) (hwaits : a.Waits i) :
    Follows a here rest m i marks reached
      { entering i reached with waiting := ⟨i, marks⟩ :: reached.waiting }
      (some ⟨i, marks⟩) where
  waiting := rfl
  entered _ hb := (testBit_entering hb).imp_right Eq.ge
  stops := by
    rintro t ⟨⟩
    exact ⟨le_rfl, hi, hwaits⟩
  result := rfl

/-- A way that goes on behind `i`. -/
lemma goOn (h : Follows a here rest m (i + 1) marks' (entering i reached) result way)
    (hrun : a.runThread here.before here.position rest ⟨i + 1, marks'⟩ =
      a.runThread here.before here.position rest ⟨i, marks⟩) :
    Follows a here rest m i marks reached result way where
  waiting := h.waiting
  entered b hb := by
    obtain hb | hb := h.entered b hb
    · exact (testBit_entering hb).imp_right Eq.ge
    · exact .inr (by omega)
  stops t ht := by
    obtain ⟨h₁, h₂⟩ := h.stops t ht
    exact ⟨by omega, h₂⟩
  result := h.result.trans hrun

end Follows

/-- A way from `i` that meets nothing entered before stops at the latest at `m`. -/
lemma exists_follows (ha : a.Straight) {here : Place} {rest : Text}
    (hafter : rest.head? = here.after) {m : ℕ} (hm : a.Waits m) {fuel i : ℕ} (marks : Marks)
    {reached : Reached} (hfuel : a.insts.size < fuel + i) (hi : i ≤ m)
    (hfresh : ∀ b, reached.entered.testBit b = true → b < i ∨ m < b) :
    ∃ way, Follows a here rest m i marks reached (a.follow here fuel i marks reached) way := by
  obtain ⟨last, hlast, hwaits⟩ := id hm
  have hsize : m < a.insts.size := lt_size hlast
  induction fuel generalizing i marks reached with
  | zero => omega
  | succ fuel ih =>
      have hbit : ¬reached.entered.testBit i = true := fun h => by
        have := hfresh i h
        omega
      obtain ⟨inst, hinst⟩ : ∃ inst, a.insts[i]? = some inst :=
        ⟨_, Array.getElem?_eq_getElem (by omega)⟩
      -- A way that does not wait here goes on with the next instruction, which is not entered yet.
      have hnext : inst.waits = false → ∀ marks', ∃ way, Follows a here rest m (i + 1) marks'
          (entering i reached) (a.follow here fuel (i + 1) marks' (entering i reached)) way :=
        fun hinst' marks' => by
          have him : i ≠ m := by
            rintro rfl
            rw [Option.some.inj (hinst.symm.trans hlast), hwaits] at hinst'
            cases hinst'
          refine ih marks' (by omega) (by omega) fun b hb => ?_
          obtain hb | rfl := testBit_entering hb
          · have := hfresh b hb
            omega
          · omega
      have hrun := fun marks => runThread_eq hinst here.before here.position rest marks
      rw [follow, if_neg hbit]
      simp only [hinst]
      obtain rfl | hgoes := ha.cases hinst
      · exact ⟨_, .stop hi ⟨_, hinst, rfl⟩⟩
      · cases inst with
        | set s => exact ⟨_, .stop hi ⟨_, hinst, rfl⟩⟩
        | mark slot =>
            obtain ⟨way, h⟩ := hnext rfl ((slot, here.position) :: marks)
            exact ⟨way, h.goOn (hrun marks).symm⟩
        | look l =>
            by_cases hl : l.holds here.before here.after = true
            · simp only [hl, if_true]
              obtain ⟨way, h⟩ := hnext rfl marks
              refine ⟨way, h.goOn ?_⟩
              rw [hrun, Inst.run, hafter, if_pos hl]
              rfl
            · simp only [hl, Bool.false_eq_true, if_false]
              refine ⟨none, .fails ?_⟩
              rw [hrun, Inst.run, hafter, if_neg hl]
        | split | jump | accept => cases hgoes

/-! ### All ways at a place -/

/-- The ways that wait stand at different instructions, the last at the earliest. -/
structure Ordered (a : Automaton) (waiting : List Thread) : Prop where
  waits : ∀ t ∈ waiting, a.Waits t.inst
  sorted : waiting.Pairwise fun s t => s.inst < t.inst

/-- In addition, nothing up to `m`, where ways wait, has been entered. -/
structure Settled (a : Automaton) (m : ℕ) (reached : Reached) : Prop
    extends Ordered a reached.waiting where
  stop : a.Waits m
  fresh : ∀ b, reached.entered.testBit b = true → m < b
  above : ∀ t ∈ reached.waiting, m < t.inst

/-- What comes of the ways that wait: the first of them that ends well decides. -/
def outcome (a : Automaton) (before : Option Char) (position : ℕ) (rest : Text)
    (waiting : List Thread) : Option Marks :=
  waiting.reverse.findSome? (a.runThread before position rest)

lemma Follows.outcome {here : Place} {rest : Text} {m i : ℕ} {marks : Marks}
    {reached result : Reached} {way : Option Thread}
    (h : Follows a here rest m i marks reached result way) :
    a.outcome here.before here.position rest result.waiting =
      (a.outcome here.before here.position rest reached.waiting).or
        (a.runThread here.before here.position rest ⟨i, marks⟩) := by
  rw [Automaton.outcome, h.waiting, List.reverse_append, List.findSome?_append, ← h.result]
  cases way with
  | none => rfl
  | some t => simp [Automaton.outcome]

/-- A way that begins below all others joins them as the last. -/
lemma Follows.ordered {here : Place} {rest : Text} {m i : ℕ} {marks : Marks}
    {reached result : Reached} {way : Option Thread}
    (h : Follows a here rest m i marks reached result way) (hsettled : a.Settled m reached) :
    a.Ordered result.waiting := by
  have hway : ∀ t, t ∈ way.toList ↔ t ∈ way := fun t => Option.mem_toList
  constructor
  · intro t ht
    rw [h.waiting, List.mem_append, hway] at ht
    exact ht.elim (fun ht => (h.stops t ht).2.2) (hsettled.waits t)
  · rw [h.waiting, List.pairwise_append]
    refine ⟨?_, hsettled.sorted, fun s hs t ht => ?_⟩
    · cases way with
      | none => exact .nil
      | some t => exact List.pairwise_singleton ..
    · have hs := (h.stops s ((hway s).1 hs)).2.1
      have ht := hsettled.above t ht
      omega

/-- A way on which a character passes leaves the ways settled below it. -/
lemma Follows.settled {here : Place} {rest : Text} {m i : ℕ} {marks : Marks}
    {reached result : Reached} {way : Option Thread}
    (h : Follows a here rest m (i + 1) marks reached result way) (hsettled : a.Settled m reached)
    (hi : i < m) (hwaits : a.Waits i) : a.Settled i result where
  toOrdered := h.ordered hsettled
  stop := hwaits
  fresh b hb := by
    obtain hb | hb := h.entered b hb
    · have := hsettled.fresh b hb
      omega
    · omega
  above t ht := by
    rw [h.waiting, List.mem_append, Option.mem_toList] at ht
    obtain ht | ht := ht
    · have := (h.stops t ht).1
      omega
    · have := hsettled.above t ht
      omega

lemma Settled.mono {m i : ℕ} {reached : Reached} (h : a.Settled m reached) (hi : i < m)
    (hwaits : a.Waits i) : a.Settled i reached where
  toOrdered := h.toOrdered
  stop := hwaits
  fresh b hb := hi.trans (h.fresh b hb)
  above t ht := hi.trans (h.above t ht)

/-- Nothing is reached, and the acceptance is where ways stop at the latest. -/
lemma settled_none (ha : a.Straight) : a.Settled (a.insts.size - 1) .none where
  waits t ht := by cases ht
  sorted := .nil
  stop := ⟨_, ha.accepts, rfl⟩
  fresh b hb := by simp [Reached.none] at hb
  above t ht := by cases ht

/-- A character passes on a way below all others. -/
lemma pass_straight (ha : a.Straight) {m : ℕ} {reached : Reached} (h : a.Settled m reached)
    {t : Thread} {s : CharSet} (ht : a.insts[t.inst]? = some (.set s)) (hm : t.inst < m) (c : Char)
    (before : Option Char) (position : ℕ) (rest : Text) :
    a.Settled t.inst (a.pass c ⟨some c, rest.head?, position + 1⟩ reached t) ∧
      a.outcome (some c) (position + 1) rest
          (a.pass c ⟨some c, rest.head?, position + 1⟩ reached t).waiting =
        (a.outcome (some c) (position + 1) rest reached.waiting).or
          (a.runThread before position (c :: rest) t) := by
  have hwaits : a.Waits t.inst := ⟨_, ht, rfl⟩
  have hrun := runThread_eq ht before position (c :: rest) t.marks
  simp only [pass, ht]
  by_cases hc : s.mem c = true
  · have hafter : rest.head? = (⟨some c, rest.head?, position + 1⟩ : Place).after := rfl
    have hfuel : a.insts.size < a.insts.size + 1 + (t.inst + 1) := by omega
    obtain ⟨way, hfollows⟩ := exists_follows ha hafter h.stop t.marks hfuel hm
      fun b hb => .inr (h.fresh b hb)
    rw [if_pos hc]
    refine ⟨hfollows.settled h hm hwaits, hfollows.outcome.trans ?_⟩
    rw [hrun, Inst.run, if_pos hc]
    rfl
  · rw [if_neg hc]
    refine ⟨h.mono hm hwaits, ?_⟩
    rw [hrun, Inst.run, if_neg hc, Option.or_none]

/-- A character passes on all ways, from the furthest on. -/
lemma foldl_pass_straight (ha : a.Straight) {live : List Thread} {m : ℕ} {reached : Reached}
    (h : a.Settled m reached) (hsets : ∀ t ∈ live, ∃ s, a.insts[t.inst]? = some (.set s))
    (hbelow : ∀ t ∈ live, t.inst < m) (hsorted : live.Pairwise fun s t => t.inst < s.inst)
    (c : Char) (before : Option Char) (position : ℕ) (rest : Text) :
    (∃ m', a.Settled m' (live.foldl (a.pass c ⟨some c, rest.head?, position + 1⟩) reached)) ∧
      a.outcome (some c) (position + 1) rest
          (live.foldl (a.pass c ⟨some c, rest.head?, position + 1⟩) reached).waiting =
        (a.outcome (some c) (position + 1) rest reached.waiting).or
          (live.findSome? (a.runThread before position (c :: rest))) := by
  induction live generalizing m reached with
  | nil => exact ⟨⟨m, h⟩, by simp⟩
  | cons t live ih =>
      obtain ⟨⟨s, hs⟩, hsets⟩ := List.forall_mem_cons.1 hsets
      obtain ⟨hlast, hsorted⟩ := List.pairwise_cons.1 hsorted
      obtain ⟨hsettled, hpass⟩ :=
        pass_straight ha h hs (hbelow t (by simp)) c before position rest
      obtain ⟨hm', hfold⟩ := ih hsettled hsets hlast hsorted
      refine ⟨hm', hfold.trans ?_⟩
      rw [hpass, Option.or_assoc, List.findSome?_cons]
      cases a.runThread before position (c :: rest) t with
      | none | some => rfl

/-- The first way that accepts cuts off the others, and what comes of them does not matter. -/
lemma cut_spec (before : Option Char) (position : ℕ) (rest : Text) (threads : List Thread) :
    (a.cut threads).1 <+: threads ∧
      (∀ t ∈ (a.cut threads).1, a.insts[t.inst]? ≠ some .accept) ∧
      threads.findSome? (a.runThread before position rest) =
        ((a.cut threads).1.findSome? (a.runThread before position rest)).or (a.cut threads).2 := by
  induction threads with
  | nil => exact ⟨List.nil_prefix, by simp [cut], rfl⟩
  | cons t threads ih =>
      obtain ⟨hkept, hnone, hresult⟩ := ih
      by_cases ht : a.insts[t.inst]? = some .accept
      · have hcut : a.cut (t :: threads) = ([], some t.marks) := by rw [cut]; simp only [ht]
        rw [hcut]
        refine ⟨List.nil_prefix, by simp, ?_⟩
        have hrun := runThread_eq ht before position rest t.marks
        rw [List.findSome?_cons, hrun, Inst.run]
        rfl
      · have hcut : a.cut (t :: threads) = (t :: (a.cut threads).1, (a.cut threads).2) := by
          rw [cut]
          split
          · exact absurd ‹_› ht
          · rfl
        rw [hcut]
        refine ⟨List.prefix_cons_inj t |>.2 hkept, List.forall_mem_cons.2 ⟨ht, hnone⟩, ?_⟩
        rw [List.findSome?_cons, List.findSome?_cons]
        cases a.runThread before position rest t with
        | none => exact hresult
        | some marks => rfl

/-! ### Searches -/

/-- Entering the code adds the way that begins at the place. -/
lemma enter_straight (ha : a.Straight) {m : ℕ} {reached : Reached} (h : a.Settled m reached)
    (before : Option Char) (position : ℕ) (rest : Text) :
    a.Ordered (a.enter ⟨before, rest.head?, position⟩ reached).waiting ∧
      a.outcome before position rest (a.enter ⟨before, rest.head?, position⟩ reached).waiting =
        (a.outcome before position rest reached.waiting).or
          (Inst.run a.insts.toList [] before position rest) := by
  have hafter : rest.head? = (⟨before, rest.head?, position⟩ : Place).after := rfl
  have hfuel : a.insts.size < a.insts.size + 1 + 0 := by omega
  obtain ⟨way, hfollows⟩ := exists_follows ha hafter h.stop [] hfuel (Nat.zero_le m)
    fun b hb => .inr (h.fresh b hb)
  exact ⟨hfollows.ordered h, hfollows.outcome⟩

/-- Ways wait for a character of a set unless they end. -/
lemma Ordered.exists_set {waiting : List Thread} (h : a.Ordered waiting)
    {t : Thread} (ht : t ∈ waiting) (hne : a.insts[t.inst]? ≠ some .accept) :
    ∃ s, a.insts[t.inst]? = some (.set s) := by
  obtain ⟨inst, hinst, hwaits⟩ := h.waits t ht
  cases inst with
  | set s => exact ⟨s, hinst⟩
  | accept => exact absurd hinst hne
  | look | mark | split | jump => cases hwaits

/-- The ways that are not cut off wait for characters below the acceptance, the furthest first. -/
lemma Ordered.cut_spec {waiting : List Thread} (h : a.Ordered waiting) (ha : a.Straight) :
    (∀ t ∈ (a.cut waiting.reverse).1, ∃ s, a.insts[t.inst]? = some (.set s)) ∧
      (∀ t ∈ (a.cut waiting.reverse).1, t.inst < a.insts.size - 1) ∧
      (a.cut waiting.reverse).1.Pairwise fun s t => t.inst < s.inst := by
  obtain ⟨hkept, hnone, -⟩ := Automaton.cut_spec (a := a) none 0 [] waiting.reverse
  have hsets : ∀ t ∈ (a.cut waiting.reverse).1, ∃ s, a.insts[t.inst]? = some (.set s) :=
    fun t ht => h.exists_set (List.mem_reverse.1 (hkept.subset ht)) (hnone t ht)
  refine ⟨hsets, fun t ht => ?_, (List.pairwise_reverse.2 h.sorted).sublist hkept.sublist⟩
  obtain ⟨s, hs⟩ := hsets t ht
  have hlt := lt_size hs
  have hne : t.inst ≠ a.insts.size - 1 := fun heq => by
    rw [heq, ha.accepts] at hs
    cases hs
  omega

/-- The ways at a place after those that begin there have been added, if any may. -/
lemma entered_straight (ha : a.Straight) {m : ℕ} {reached : Reached} (h : a.Settled m reached)
    (best : Option Marks) (before : Option Char) (position : ℕ) (rest : Text) :
    ∃ entered, entered = (if (true && best.isNone) = true then
        a.enter ⟨before, rest.head?, position⟩ reached else reached) ∧
      a.Ordered entered.waiting ∧
      (a.outcome before position rest entered.waiting).or best =
        (a.outcome before position rest reached.waiting).or
          (best.or (Inst.run a.insts.toList [] before position rest)) := by
  cases best with
  | none =>
      obtain ⟨hordered, houtcome⟩ := enter_straight ha h before position rest
      refine ⟨_, rfl, hordered, ?_⟩
      rw [Option.or_none, Option.none_or]
      exact houtcome
  | some marks => exact ⟨_, rfl, h.toOrdered, rfl⟩

/-- A search finds what the ways that wait find, else the match so far, else what the first way
finds that begins later. -/
lemma searchFrom_straight (ha : a.Straight) {m : ℕ} {reached : Reached} (h : a.Settled m reached)
    (best : Option Marks) (before : Option Char) (position : ℕ) (rest : Text) :
    a.searchFrom true true before position reached best rest =
      (a.outcome before position rest reached.waiting).or
        (best.or (Inst.runFirst a.insts.toList before position rest)) := by
  induction rest generalizing m reached best before position with
  | nil =>
      obtain ⟨entered, hentered, hordered, houtcome⟩ :=
        entered_straight ha h best before position []
      obtain ⟨-, -, hcut⟩ := cut_spec (a := a) before position [] entered.waiting.reverse
      have hfail : (a.cut entered.waiting.reverse).1.findSome?
          (a.runThread before position []) = none := by
        rw [List.findSome?_eq_none_iff]
        intro t ht
        obtain ⟨s, hs⟩ := (hordered.cut_spec ha).1 t ht
        exact runThread_eq hs before position [] t.marks
      rw [hfail, Option.none_or] at hcut
      rw [searchFrom, Inst.runFirst, ← houtcome]
      simp only [List.head?_nil] at hentered
      rw [← hentered, ← hcut]
      rfl
  | cons c rest ih =>
      obtain ⟨entered, hentered, hordered, houtcome⟩ :=
        entered_straight ha h best before position (c :: rest)
      obtain ⟨-, -, hcut⟩ := cut_spec (a := a) before position (c :: rest) entered.waiting.reverse
      obtain ⟨hsets, hbelow, hsorted⟩ := hordered.cut_spec ha
      obtain ⟨⟨m', hsettled⟩, hfold⟩ :=
        foldl_pass_straight ha (settled_none ha) hsets hbelow hsorted c before position rest
      have hnext := ih hsettled ((a.cut entered.waiting.reverse).2.or best) (some c) (position + 1)
      rw [hfold] at hnext
      rw [searchFrom, Inst.runFirst]
      simp only [List.head?_cons] at hentered
      -- What the ways that wait find comes before the match so far, and this before later ones.
      have hwhole : (a.outcome before position (c :: rest) reached.waiting).or
          (best.or ((Inst.run a.insts.toList [] before position (c :: rest)).or
            (Inst.runFirst a.insts.toList (some c) (position + 1) rest))) =
          ((a.cut entered.waiting.reverse).1.findSome?
            (a.runThread before position (c :: rest))).or
              (((a.cut entered.waiting.reverse).2.or best).or
                (Inst.runFirst a.insts.toList (some c) (position + 1) rest)) := by
        rw [← @Option.or_assoc _ best, ← Option.or_assoc, ← houtcome, outcome, hcut]
        simp only [Option.or_assoc]
      simp only [← hentered]
      rw [hwhole]
      split
      · rename_i hdone
        rw [Bool.and_eq_true, List.isEmpty_iff, Bool.not_true, Bool.or_false] at hdone
        obtain ⟨hempty, hfound⟩ := hdone
        obtain ⟨marks, hmarks⟩ := Option.isSome_iff_exists.1 hfound
        rw [hempty, hmarks]
        rfl
      · exact hnext

/-- A search with straight code finds what the first way finds that does not fail. -/
lemma search_straight (ha : a.Straight) (before : Option Char) (position : ℕ) (rest : Text) :
    a.search before position rest = Inst.runFirst a.insts.toList before position rest :=
  searchFrom_straight ha (settled_none ha) none before position rest

end Automaton

end StreamEditor.Regex
