import StreamEditor.Proofs.Regex.Generated
import StreamEditor.Proofs.Regex.Reached

/-!
What the attempts of machines come to.

* `Machine.Passes`: what an instruction may change in an attempt (`passes_step`).
* `Machine.Fine`: an attempt that is within the text, and has marked where the match begins and ends
  as soon as it has passed there; each step keeps it so (`Fine.step`), and so does a whole run
  (`run_found`).
* `Machine.sound_machine`: all matches that a machine finds begin and end within the text.
-/

namespace StreamEditor.Regex.Machine

open Referring (Op Confined)

/-! ### Steps -/

/-- The attempts that go on, or are kept for later. -/
def Move.attempts : Move → List Attempt
  | .go a | .hold a | .release a _ => [a]
  | .keep a later => [a, later]
  | .fail | .found => []

section Attempts

variable {P : Attempt → Prop} {a later : Attempt}

lemma Move.forall_go : (∀ a' ∈ (Move.go a).attempts, P a') ↔ P a := List.forall_mem_singleton

lemma Move.forall_keep : (∀ a' ∈ (Move.keep a later).attempts, P a') ↔ P a ∧ P later :=
  List.forall_mem_cons.trans (and_congr_right' List.forall_mem_singleton)

end Attempts

/-- The place that is marked under a number. -/
def place? (marks : Array (Option (ℕ × Text))) (n : ℕ) : Option ℕ := marks[n]?.join.map (·.1)

lemma place?_set {marks : Array (Option (ℕ × Text))} (slot : ℕ) (mark : Option (ℕ × Text)) (n : ℕ) :
    place? (marks.setIfInBounds slot mark) n =
      if slot = n ∧ slot < marks.size then mark.map (·.1) else place? marks n := by
  rw [place?, place?, Array.getElem?_setIfInBounds]
  by_cases hn : slot = n
  · subst hn
    by_cases hslot : slot < marks.size
    · simp [hslot]
    · simp [hslot]
  · simp [hn]

/-- What the instruction `op` of an attempt may change. -/
structure Passes (op : Op) (a a' : Attempt) : Prop where
  goes : a'.inst = a.inst + 1 ∨ ∃ o ∈ op.targets, a'.inst = Automaton.target a.inst o
  le : a.position ≤ a'.position
  length : a'.position + a'.rest.length = a.position + a.rest.length
  size : a'.marks.size = a.marks.size
  marks : ∀ n p, place? a'.marks n = some p → place? a.marks n = some p ∨ a.position ≤ p
  outer : ∀ n < 2, op ≠ .mark n → place? a'.marks n = place? a.marks n
  marked : ∀ n, op = .mark n → n < a.marks.size → place? a'.marks n = some a'.position

namespace Passes

variable {op : Op} {a a' : Attempt}

/-- An instruction that passes some text at most. -/
lemma of_marks_eq (hop : ∀ n, op ≠ .mark n)
    (goes : a'.inst = a.inst + 1 ∨ ∃ o ∈ op.targets, a'.inst = Automaton.target a.inst o)
    (le : a.position ≤ a'.position)
    (length : a'.position + a'.rest.length = a.position + a.rest.length)
    (hmarks : a'.marks = a.marks) : Passes op a a' where
  goes := goes
  le := le
  length := length
  size := by rw [hmarks]
  marks n p h := .inl (hmarks ▸ h)
  outer n _ _ := by rw [hmarks]
  marked n h := absurd h (hop n)

/-- An instruction that passes no text. -/
lemma of_eq (hop : ∀ n, op ≠ .mark n)
    (goes : a'.inst = a.inst + 1 ∨ ∃ o ∈ op.targets, a'.inst = Automaton.target a.inst o)
    (hposition : a'.position = a.position) (hrest : a'.rest = a.rest)
    (hmarks : a'.marks = a.marks) :
    Passes op a a' :=
  of_marks_eq hop goes hposition.ge (by rw [hposition, hrest]) hmarks

/-- An instruction that leads to one of its targets. -/
lemma ofTarget (hop : ∀ n, op ≠ .mark n) {o : ℤ} (ho : o ∈ op.targets)
    (hinst : a'.inst = a.inst) (hposition : a'.position = a.position) (hrest : a'.rest = a.rest)
    (hmarks : a'.marks = a.marks) : Passes op a (goto a' o) :=
  of_eq hop (.inr ⟨o, ho, by rw [goto, hinst]⟩) hposition hrest hmarks

/-- A loop that may go round again or be left, whichever of the two is tried first. -/
lemma ofChoice (hop : ∀ n, op ≠ .mark n) {exit : ℤ} (hexit : exit ∈ op.targets) (greedy : Bool)
    (hinst : a'.inst = a.inst) (hposition : a'.position = a.position) (hrest : a'.rest = a.rest)
    (hmarks : a'.marks = a.marks) :
    ∀ b ∈ (if greedy then Move.keep (next a') (goto a' exit)
      else .keep (goto a' exit) (next a')).attempts, Passes op a b := by
  have hnext : Passes op a (next a') :=
    .of_eq hop (.inl (by rw [next, hinst])) hposition hrest hmarks
  have hleave : Passes op a (goto a' exit) := .ofTarget hop hexit hinst hposition hrest hmarks
  cases greedy with
  | true => exact Move.forall_keep.2 ⟨hnext, hleave⟩
  | false => exact Move.forall_keep.2 ⟨hleave, hnext⟩

lemma ofChar (hop : ∀ n, op ≠ .mark n) {c : Char} {rest : Text} (h : a.rest = c :: rest) :
    Passes op a (next { a with before := some c, rest, position := a.position + 1 }) := by
  refine .of_marks_eq hop (.inl rfl) (Nat.le_succ _) ?_ rfl
  simp only [next, h, List.length_cons]
  omega

/-- The one instruction that sets a mark sets it where the attempt is. -/
lemma ofMark (slot : ℕ) :
    Passes (.mark slot) a
      (next { a with marks := a.marks.setIfInBounds slot (some (a.position, a.rest)) }) := by
  refine ⟨.inl rfl, le_rfl, rfl, by simp [next], fun n p h => ?_, fun n _ hne => ?_, ?_⟩
  · simp only [next, place?_set] at h
    split at h
    · exact .inr (Option.some.inj h).le
    · exact .inl h
  · simp only [next, place?_set]
    rw [if_neg fun h => hne (congrArg Op.mark h.1)]
  · rintro n hn hsize
    obtain rfl := Op.mark.inj hn
    simp [next, place?_set, hsize]

lemma ofText (hop : ∀ n, op ≠ .mark n) {t : Text} (h : passText a t = some a') :
    Passes op a (next a') := by
  rw [passText] at h
  split at h
  · rename_i hprefix
    have hlength := (List.isPrefixOf_iff_prefix.1 hprefix).length_le
    obtain rfl := Option.some.inj h
    refine of_marks_eq hop (.inl rfl) (Nat.le_add_right _ _) ?_ rfl
    simp only [next, List.length_drop]
    omega
  · cases h

lemma ofReference (hop : ∀ n, op ≠ .mark n) {number : ℕ} {fold : Bool}
    (h : passReference a number fold = some a') : Passes op a (next a') := by
  rw [passReference] at h
  split at h
  · dsimp only at h
    split at h
    · split at h
      · split at h
        · exact ofText hop h
        · cases h
      · cases h
    · exact ofText hop h
  · cases h

/-- The marks that an automaton sets lie behind the place where it began, and are none of the
whole. -/
lemma takeMarks_spec {a : Attempt} {found : Marks}
    (hfound : ∀ slot p, found.lookup slot = some p → a.position ≤ p) {groups : List ℕ}
    (hgroups : ∀ n ∈ groups, 0 < n) :
    (takeMarks a found groups).size = a.marks.size ∧
      (∀ n p, place? (takeMarks a found groups) n = some p →
        place? a.marks n = some p ∨ a.position ≤ p) ∧
      ∀ n < 2, place? (takeMarks a found groups) n = place? a.marks n := by
  rw [takeMarks]
  generalize a.marks = marks
  induction groups generalizing marks with
  | nil => exact ⟨rfl, fun _ _ h => .inl h, fun _ _ => rfl⟩
  | cons k groups ih =>
      obtain ⟨hk, hgroups⟩ := List.forall_mem_cons.1 hgroups
      obtain ⟨hsize, hmarks, houter⟩ := ih hgroups _
      rw [List.foldl_cons]
      refine ⟨hsize.trans (by simp), fun n p h => ?_, fun n hn => (houter n hn).trans ?_⟩
      · obtain h | h := hmarks n p h
        · have hset (slot : ℕ) (h : ((found.lookup slot).map fun p =>
              (p, a.rest.drop (p - a.position))).map (·.1) = some p) : a.position ≤ p := by
            rw [Option.map_map, Option.map_eq_some_iff] at h
            obtain ⟨q, hq, rfl⟩ := h
            exact hfound slot _ hq
          rw [place?_set] at h
          split at h
          · exact .inr (hset _ h)
          · rw [place?_set] at h
            split at h
            · exact .inr (hset _ h)
            · exact .inl h
        · exact .inr h
      · rw [place?_set, if_neg (by omega), place?_set, if_neg (by omega)]

lemma ofAutomaton (hop : ∀ n, op ≠ .mark n) {t : Tree} (ht : t.Inner) {groups : List ℕ}
    (hgroups : ∀ n ∈ groups, 0 < n) (h : passAutomaton a (.ofTree t) groups = some a') :
    Passes op a (next a') := by
  rw [passAutomaton] at h
  split at h
  · rename_i found hsearch
    have haccepts := Automaton.searchFrom_reaches false true a.before a.position none a.rest le_rfl
      (by simp [Automaton.AllReached, Reached.none]) (by simp) hsearch
    obtain ⟨first, last, -, hlast, hfirst, hle, hstop, hall⟩ := haccepts.bounds ht
    obtain ⟨hsize, hmarks, houter⟩ :=
      takeMarks_spec (fun slot p hp => (hall slot p hp).1) hgroups
    rw [hlast] at h
    obtain rfl := Option.some.inj h
    refine ⟨.inl rfl, hfirst.trans hle, ?_, hsize, hmarks, fun n hn _ => houter n hn,
      fun n hn => absurd hn (hop n)⟩
    simp only [next, Option.getD_some, List.length_drop, List.length_take]
    omega
  · cases h

end Passes

variable {m : Machine}

/-- What a step may change. -/
lemma passes_step {a : Attempt} {op : Op} (hinst : m.insts[a.inst]? = some op)
    (hop : op.Inner ∨ ∃ n, op = .mark n) : ∀ a' ∈ (m.step a).attempts, Passes op a a' := by
  rw [step]
  simp only [hinst]
  -- Only a mark, a reference and an automaton do more than pass text or lead somewhere else.
  cases op with
  | accept => exact List.forall_mem_nil _
  | set s =>
      cases hrest : a.rest with
      | nil => exact List.forall_mem_nil _
      | cons c rest =>
          dsimp only
          split
          · exact Move.forall_go.2 (.ofChar (by simp) hrest)
          · exact List.forall_mem_nil _
  | text t =>
      dsimp only
      cases hpass : passText a t with
      | none => exact List.forall_mem_nil _
      | some b => exact Move.forall_go.2 (.ofText (by simp) hpass)
  | look l =>
      dsimp only
      split
      · exact Move.forall_go.2 (.of_eq (by simp) (.inl rfl) rfl rfl rfl)
      · exact List.forall_mem_nil _
  | mark slot => exact Move.forall_go.2 (.ofMark slot)
  | split first second =>
      exact Move.forall_keep.2 ⟨.ofTarget (by simp) (by simp [Op.targets]) rfl rfl rfl rfl,
        .ofTarget (by simp) (by simp [Op.targets]) rfl rfl rfl rfl⟩
  | jump offset =>
      exact Move.forall_go.2 (.ofTarget (by simp) (by simp [Op.targets]) rfl rfl rfl rfl)
  | zero i => exact Move.forall_go.2 (.of_eq (by simp) (.inl rfl) rfl rfl rfl)
  | round least most i greedy exit =>
      dsimp only
      split
      · exact Move.forall_go.2 (.ofTarget (by simp) (by simp [Op.targets]) rfl rfl rfl rfl)
      · split
        · exact Move.forall_go.2 (.of_eq (by simp) (.inl rfl) rfl rfl rfl)
        · exact .ofChoice (by simp) (by simp [Op.targets]) greedy rfl rfl rfl rfl
  | progress least i place greedy exit =>
      dsimp only
      split
      · exact List.forall_mem_nil _
      · split
        · exact Move.forall_go.2 (.of_eq (by simp) (.inl rfl) rfl rfl rfl)
        · exact .ofChoice (by simp) (by simp [Op.targets]) greedy rfl rfl rfl rfl
  | reference n fold =>
      dsimp only
      cases hpass : passReference a n fold with
      | none => exact List.forall_mem_nil _
      | some b => exact Move.forall_go.2 (.ofReference (by simp) hpass)
  | automaton au groups =>
      obtain ⟨hgroups, t, ht, rfl⟩ : (Op.automaton au groups).Inner := hop.resolve_right (by simp)
      dsimp only
      cases hpass : passAutomaton a (.ofTree t) groups with
      | none => exact List.forall_mem_nil _
      | some b => exact Move.forall_go.2 (.ofAutomaton (by simp) ht hgroups hpass)
  | hold => exact Move.forall_go.2 (.of_eq (by simp) (.inl rfl) rfl rfl rfl)
  | release =>
      cases hheld : a.held with
      | nil => exact List.forall_mem_nil _
      | cons size held => exact Move.forall_go.2 (.of_eq (by simp) (.inl rfl) rfl rfl rfl)

/-! ### Runs -/

/-- The instructions of a machine: code that looks for the beginning of a match, and the code of an
expression between the marks of the whole. -/
structure Framed (m : Machine) (enter code : List Op) : Prop where
  insts : m.insts.toList = enter ++ .mark 0 :: (code ++ [.mark 1, .accept])
  enter : Confined enter
  code : Confined code

/-- An attempt in the text from `start` up to `stop`. It has marked where the match begins as soon
as it has passed there, and at the instruction that accepts, where it ends. -/
structure Fine (enter code : List Op) (start stop : ℕ) (a : Attempt) : Prop where
  start_le : start ≤ a.position
  length : a.position + a.rest.length = stop
  size : 2 ≤ a.marks.size
  marks : ∀ n p, place? a.marks n = some p → start ≤ p
  within : a.inst ≤ enter.length + code.length + 2
  begins : enter.length < a.inst → ∃ p, place? a.marks 0 = some p ∧ p ≤ a.position
  ends : a.inst = enter.length + code.length + 2 → place? a.marks 1 = some a.position

/-- What an instruction of a machine is. -/
lemma Framed.inst {enter code : List Op} (h : m.Framed enter code) {i : ℕ} {op : Op}
    (hinst : m.insts[i]? = some op) :
    (i < enter.length ∧ op.Inner ∧ ∀ o ∈ op.targets, Automaton.target i o ≤ enter.length) ∨
    (i = enter.length ∧ op = .mark 0) ∨
    (enter.length < i ∧ i ≤ enter.length + code.length ∧ op.Inner ∧
      ∀ o ∈ op.targets, enter.length < Automaton.target i o ∧
        Automaton.target i o ≤ enter.length + code.length + 1) ∨
    (i = enter.length + code.length + 1 ∧ op = .mark 1) ∨
    i = enter.length + code.length + 2 ∧ op = .accept := by
  rw [← Array.getElem?_toList, h.insts] at hinst
  obtain hi | hi := lt_or_ge i enter.length
  · rw [List.getElem?_append_left hi] at hinst
    obtain ⟨hop, htargets⟩ := h.enter i op hinst
    refine .inl ⟨hi, hop, fun o ho => ?_⟩
    have := htargets o ho
    simp only [Automaton.target]
    omega
  · rw [List.getElem?_append_right hi] at hinst
    obtain ⟨k, rfl⟩ := Nat.exists_eq_add_of_le hi
    rw [Nat.add_sub_cancel_left] at hinst
    -- Behind the code that looks for the beginning stand the mark, the code of the expression, the
    -- other mark and the instruction that accepts.
    cases k with
    | zero => exact .inr (.inl ⟨rfl, (Option.some.inj hinst).symm⟩)
    | succ k =>
        rw [List.getElem?_cons_succ] at hinst
        obtain hk | hk := lt_or_ge k code.length
        · rw [List.getElem?_append_left hk] at hinst
          obtain ⟨hop, htargets⟩ := h.code k op hinst
          refine .inr (.inr (.inl ⟨by omega, by omega, hop, fun o ho => ?_⟩))
          have := htargets o ho
          simp only [Automaton.target]
          omega
        · rw [List.getElem?_append_right hk] at hinst
          obtain ⟨l, rfl⟩ := Nat.exists_eq_add_of_le hk
          rw [Nat.add_sub_cancel_left] at hinst
          obtain - | - | l := l
          · exact .inr (.inr (.inr (.inl ⟨by omega, (Option.some.inj hinst).symm⟩)))
          · exact .inr (.inr (.inr (.inr ⟨by omega, (Option.some.inj hinst).symm⟩)))
          · cases hinst

variable {enter code : List Op} {start stop : ℕ}

namespace Fine

variable {a a' : Attempt} (h : Fine enter code start stop a)

include h

/-- What an instruction keeps so wherever it leads. -/
lemma of_passes {op : Op} (hpasses : Passes op a a')
    (hwithin : a'.inst ≤ enter.length + code.length + 2)
    (hbegins : enter.length < a'.inst → ∃ p, place? a'.marks 0 = some p ∧ p ≤ a'.position)
    (hends : a'.inst = enter.length + code.length + 2 → place? a'.marks 1 = some a'.position) :
    Fine enter code start stop a' where
  start_le := h.start_le.trans hpasses.le
  length := hpasses.length.trans h.length
  size := h.size.trans_eq hpasses.size.symm
  marks n p hp := by
    obtain hp | hp := hpasses.marks n p hp
    · exact h.marks n p hp
    · exact h.start_le.trans hp
  within := hwithin
  begins := hbegins
  ends := hends

lemma begins_of_passes {op : Op} (hpasses : Passes op a a') (hop : op ≠ .mark 0)
    (hi : enter.length < a.inst) : ∃ p, place? a'.marks 0 = some p ∧ p ≤ a'.position := by
  obtain ⟨p, hp, hle⟩ := h.begins hi
  exact ⟨p, (hpasses.outer 0 (by decide) hop).trans hp, hle.trans hpasses.le⟩

/-- A step keeps an attempt within the text, and its marks. -/
lemma step (hm : m.Framed enter code) :
    ∀ a' ∈ (m.step a).attempts, Fine enter code start stop a' := by
  intro a' ha'
  cases hinst : m.insts[a.inst]? with
  | none =>
      rw [Machine.step] at ha'
      simp only [hinst] at ha'
      cases ha'
  | some op =>
      -- The attempt looks for the beginning of a match, marks it, passes the expression, marks its
      -- end, or accepts.
      obtain ⟨hi, hop, htargets⟩ | ⟨hi, rfl⟩ | ⟨hi, hi', hop, htargets⟩ | ⟨hi, rfl⟩ | ⟨-, rfl⟩ :=
        hm.inst hinst
      · have hpasses := passes_step hinst (.inl hop) a' ha'
        have hgoes : a'.inst ≤ enter.length := by
          obtain hnext | ⟨o, ho, htarget⟩ := hpasses.goes
          · omega
          · rw [htarget]
            exact htargets o ho
        exact h.of_passes hpasses (by omega) (by omega) (by omega)
      · have hpasses := passes_step hinst (.inr ⟨0, rfl⟩) a' ha'
        have hgoes : a'.inst = enter.length + 1 := by
          obtain hnext | ⟨o, ho, -⟩ := hpasses.goes
          · omega
          · cases ho
        have hmarked := hpasses.marked 0 rfl (by have := h.size; omega)
        exact h.of_passes hpasses (by omega) (fun _ => ⟨_, hmarked, le_rfl⟩) (by omega)
      · have hpasses := passes_step hinst (.inl hop) a' ha'
        have hgoes : enter.length < a'.inst ∧ a'.inst ≤ enter.length + code.length + 1 := by
          obtain hnext | ⟨o, ho, htarget⟩ := hpasses.goes
          · omega
          · rw [htarget]
            exact htargets o ho
        have hne : op ≠ .mark 0 := by
          rintro rfl
          exact absurd (show 2 ≤ 0 from hop) (by decide)
        exact h.of_passes hpasses (by omega) (fun _ => h.begins_of_passes hpasses hne hi) (by omega)
      · have hpasses := passes_step hinst (.inr ⟨1, rfl⟩) a' ha'
        have hgoes : a'.inst = enter.length + code.length + 2 := by
          obtain hnext | ⟨o, ho, -⟩ := hpasses.goes
          · omega
          · cases ho
        have hmarked := hpasses.marked 1 rfl (by have := h.size; omega)
        exact h.of_passes hpasses (by omega)
          (fun _ => h.begins_of_passes hpasses (by simp) (by omega)) fun _ => hmarked
      · rw [Machine.step] at ha'
        simp only [hinst] at ha'
        cases ha'

end Fine

/-- What a property of attempts that all steps keep tells of the attempt that is found. -/
lemma run_found {P : Attempt → Prop} (hstep : ∀ a, P a → ∀ a' ∈ (m.step a).attempts, P a')
    (hheld : ∀ a held, P a → P { a with held }) {fuel retreats size : ℕ} {kept : List Attempt}
    {a : Attempt} (ha : P a) (hkept : ∀ a ∈ kept, P a) {marks : Array (Option (ℕ × Text))}
    (hrun : m.run fuel retreats kept size a = .found marks) :
    ∃ a, P a ∧ m.step a = .found ∧ a.marks = marks := by
  induction fuel generalizing retreats kept size a with
  | zero => cases hrun
  | succ fuel ih =>
      have hgoes := hstep a ha
      rw [run.eq_def] at hrun
      dsimp only at hrun
      split at hrun
      · rename_i hfound
        exact ⟨a, ha, hfound, Outcome.found.inj hrun⟩
      · rename_i a' hmove
        rw [hmove, Move.attempts, List.forall_mem_singleton] at hgoes
        exact ih hgoes hkept hrun
      · rename_i a' later hmove
        rw [hmove, Move.attempts, List.forall_mem_cons, List.forall_mem_singleton] at hgoes
        split at hrun
        · exact ih hgoes.1 (List.forall_mem_cons.2 ⟨hgoes.2, hkept⟩) hrun
        · cases hrun
      · rename_i a' hmove
        rw [hmove, Move.attempts, List.forall_mem_singleton] at hgoes
        exact ih (hheld _ _ hgoes) hkept hrun
      · rename_i a' size' hmove
        rw [hmove, Move.attempts, List.forall_mem_singleton] at hgoes
        exact ih hgoes (fun b hb => hkept b (List.drop_subset _ _ hb)) hrun
      · split at hrun
        · cases hrun
        · obtain ⟨hlater, hkept⟩ := List.forall_mem_cons.1 hkept
          split at hrun
          · exact ih hlater hkept hrun
          · cases hrun

/-! ### Matches -/

lemma framed_ofReferring? {e : Referring} (he : e.Inner) (hm : ofReferring? e = some m) :
    m.groups = e.groupCount + 1 ∧ ∃ enter code, m.Framed enter code := by
  have hanywhere : Confined [.split 3 1, .set .any, .jump (-2)] := by
    refine .cons trivial (by simp [Op.targets]) (.cons trivial (by simp [Op.targets])
      (.cons trivial (by simp [Op.targets]) .nil))
  rw [ofReferring?] at hm
  split at hm
  · rename_i code counters hcode
    obtain rfl := Option.some.inj hm
    refine ⟨rfl, (if e.isAnchored then [] else [.split 3 1, .set .any, .jump (-2)]), code, ?_,
      ?_, ?_⟩
    · simp
    · split
      · exact .nil
      · exact hanywhere
    · exact (Referring.confined_generate e.referred he).1 false 0 code counters hcode
  · cases hm

/-- The attempt that a search finds is at the instruction that accepts. -/
lemma search_found {enter code : List Op} (hm : m.Framed enter code) (hgroups : 0 < m.groups)
    {before : Option Char} {position : ℕ} {rest : Text} {marks : Array (Option (ℕ × Text))}
    (hsearch : m.search before position rest = .found marks) :
    ∃ a, Fine enter code position (position + rest.length) a ∧ m.step a = .found ∧
      a.marks = marks := by
  have hunmarked (n : ℕ) : place? (Array.replicate (2 * m.groups) none) n = none := by
    rw [place?, Array.getElem?_replicate]
    split <;> rfl
  have hfirst : Fine enter code position (position + rest.length)
      ⟨0, before, rest, position, Array.replicate (2 * m.groups) none,
        Array.replicate m.counters none, []⟩ := by
    refine ⟨le_rfl, rfl, ?_, fun n p hp => ?_, Nat.zero_le _, fun h => ?_, fun h => ?_⟩
    · rw [Array.size_replicate]
      omega
    · rw [hunmarked] at hp
      cases hp
    · exact absurd h (Nat.not_lt_zero _)
    · dsimp only at h
      omega
  rw [search] at hsearch
  generalize m.bound rest = fuel at hsearch
  exact run_found (fun a ha => ha.step hm)
    (fun a held ha => ⟨ha.start_le, ha.length, ha.size, ha.marks, ha.within, ha.begins, ha.ends⟩)
    hfirst (List.forall_mem_nil _) hsearch


/-- Only an instruction that accepts finds anything. -/
lemma inst_of_found {a : Attempt} (h : m.step a = .found) : m.insts[a.inst]? = some .accept := by
  rw [step] at h
  split at h
  case h_2 hinst => exact hinst
  all_goals grind

/-- What a machine finds. -/
lemma find_machine {before : Option Char} {position : ℕ} {rest : Text} {found : Match}
    (hfind : m.find before position rest = .ok (some found)) :
    ∃ marks, m.search before position rest = .found marks ∧
      found = .ofMarks m.groups (place? marks) := by
  rw [find] at hfind
  generalize m.search before position rest = outcome at hfind ⊢
  cases outcome with
  | found marks => exact ⟨marks, rfl, (Option.some.inj (Except.ok.inj hfind)).symm⟩
  | absent | exhausted => cases hfind

/-- A machine finds only matches that begin and end within the text. -/
lemma sound_machine {e : Referring} (he : e.Inner) (hm : ofReferring? e = some m) :
    Finder.Sound m.find := fun before position rest found hfind => by
  obtain ⟨hgroups, enter, code, hframed⟩ := framed_ofReferring? he hm
  obtain ⟨marks, hsearch, rfl⟩ := find_machine hfind
  obtain ⟨a, ha, hstep, rfl⟩ := search_found hframed (by omega) hsearch
  have hend : a.inst = enter.length + code.length + 2 := by
    have hinst := inst_of_found hstep
    obtain ⟨-, hop, -⟩ | ⟨-, hop⟩ | ⟨-, -, hop, -⟩ | ⟨-, hop⟩ | ⟨hend, -⟩ := hframed.inst hinst
    · exact absurd hop id
    · cases hop
    · exact absurd hop id
    · cases hop
    · exact hend
  obtain ⟨first, hfirst, hle⟩ := ha.begins (by omega)
  exact Match.within_ofMarks (by omega) hfirst (ha.ends hend) (ha.marks 0 first hfirst) hle
    (ha.length ▸ Nat.le_add_right _ _)

end StreamEditor.Regex.Machine
