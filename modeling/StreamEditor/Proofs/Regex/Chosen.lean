import StreamEditor.Proofs.Regex.Attempts
import StreamEditor.Proofs.Regex.Leftmost
import StreamEditor.Proofs.Regex.Numbered
import StreamEditor.Regex.Builtin

/-!
The matches that a substitution replaces.

* `Library.Iterates`: what is documented of the libraries about the matches of any expression. They
  are in order, and there are some if and only if the expression matches.
* `Finder.Sound.ordered`: matches that are found one after the other are in order, if each is within
  the text that is searched; so `Library.iterates_builtin`.
* `replace_chosen`: a substitution replaces the matches that it is asked to, and keeps all else.
-/

namespace StreamEditor.Regex

/-! ### The libraries -/

/-- What is documented of the matches that the libraries give: they are successive, none overlaps
another, and the whole match is group zero. An expression matches if and only if there is one,
unless the search for the first is given up. -/
structure Library.Iterates (library : Library) : Prop where
  standard {pattern : Text} {m : Standard} (h : library.standard? pattern = some m) (t : Text) :
    Match.Ordered t.length 0 (m.captures t) ∧ m.isMatch t = !(m.captures t).isEmpty
  fancy {pattern : Text} {m : Fancy} (h : library.fancy? pattern = some m) (t : Text) :
    Match.Ordered t.length 0 (m.captures t).1 ∧
      ((m.captures t).2 = none ∨ (m.captures t).1 ≠ [] →
        m.isMatch t = .ok (!(m.captures t).1.isEmpty))

/-! ### Matches one after the other -/

/-- Behind a match in the text that is searched all the rest of it is left. -/
lemma Match.Within.length_behind {m : Match} {position : ℕ} {rest : Text}
    (h : m.Within position (position + rest.length)) :
    m.stop + (rest.drop (rest.take (m.stop - position)).length).length =
      position + rest.length := by
  have hstart := h.first_le
  have hstop := h.le
  have hlast := h.le_last
  rw [List.length_drop, List.length_take]
  omega

/-- Matches that are found one after the other are in order, and end behind the one before them. -/
lemma Finder.Sound.ordered {find : Finder} (h : find.Sound) (fuel : ℕ) (before : Option Char)
    (position : ℕ) (rest : Text) (last : Option ℕ) (hlast : ∀ p ∈ last, p ≤ position) :
    Match.Ordered (position + rest.length) position
        (successive find fuel before position rest last).1 ∧
      ∀ m ∈ (successive find fuel before position rest last).1, ∀ p ∈ last, p < m.stop := by
  induction fuel generalizing before position rest last with
  | zero => exact ⟨.nil (Nat.le_add_right _ _), List.forall_mem_nil _⟩
  | succ fuel ih =>
      rw [successive_succ]
      cases hfind : find before position rest with
      | error e => exact ⟨.nil (Nat.le_add_right _ _), List.forall_mem_nil _⟩
      | ok found =>
          cases found with
          | none => exact ⟨.nil (Nat.le_add_right _ _), List.forall_mem_nil _⟩
          | some m =>
              have hm := h before position rest m hfind
              dsimp only
              -- An empty match where the last one ended is passed over; any other one is taken.
              split
              · cases rest with
                | nil => exact ⟨.nil (Nat.le_add_right _ _), List.forall_mem_nil _⟩
                | cons c rest =>
                    obtain ⟨hordered, hbehind⟩ := ih (some c) (position + 1) rest last
                      fun p hp => (hlast p hp).trans (Nat.le_succ _)
                    have hlength : position + (c :: rest).length = position + 1 + rest.length := by
                      rw [List.length_cons]
                      omega
                    rw [hlength]
                    exact ⟨hordered.mono (Nat.le_succ _), hbehind⟩
              · rename_i hnew
                obtain ⟨hordered, hbehind⟩ := ih
                  ((rest.take (m.stop - position)).getLast?.or before) m.stop
                  (rest.drop (rest.take (m.stop - position)).length) (some m.stop)
                  fun p hp => (Option.some.inj hp).ge
                rw [hm.length_behind] at hordered
                have hnew' : ∀ p ∈ last, p < m.stop := fun p hp => by
                  have hle := (hlast p hp).trans hm.first_le
                  refine Nat.lt_of_le_of_ne (hle.trans hm.le) ?_
                  rintro rfl
                  exact hnew (by simp [Option.mem_def.1 hp, le_antisymm hm.le hle])
                refine ⟨.cons hm.first_le hm.le hm.whole
                  (fun m' hm' => hbehind m' hm' m.stop rfl) hordered,
                  List.forall_mem_cons.2 ⟨hnew', fun m' hm' p hp => ?_⟩⟩
                exact (hnew' p hp).trans (hbehind m' hm' m.stop rfl)

lemma Finder.Sound.ordered_all {find : Finder} (h : find.Sound) (t : Text) :
    Match.Ordered t.length 0 (find.all t).1 := by
  have hordered := (h.ordered (2 * t.length + 2) none 0 t none (by simp)).1
  rwa [Nat.zero_add] at hordered

/-- An expression matches if and only if it has a first match. -/
lemma Fancy.isMatch_ofFinder {groups : ℕ} {find : Finder} {t : Text}
    (hfine : (find.all t).2 = none ∨ (find.all t).1 ≠ []) :
    (Fancy.ofFinder groups find).isMatch t = .ok (!(find.all t).1.isEmpty) := by
  change (find none 0 t).map Option.isSome = _
  cases hfind : find none 0 t with
  | error e =>
      rw [Finder.all, successive_succ, hfind] at hfine
      simp at hfine
  | ok found =>
      rw [isEmpty_all hfind]
      cases found <;> rfl

lemma Library.iterates_builtin : Library.builtin.Iterates where
  standard {pattern m} h t := by
    obtain ⟨tree, htree, rfl⟩ := Option.map_eq_some_iff.1 h
    refine ⟨(sound_automaton (Tree.inner_ofText? htree)).ordered_all t, ?_⟩
    have hfind : Finder.sure ((Automaton.ofTree tree).find tree.groupCount) none 0 t = .ok _ := rfl
    change Option.isSome _ = !(Finder.all _ t).1.isEmpty
    rw [isEmpty_all hfind, Option.not_isNone]
  fancy {pattern m} h t := by
    obtain ⟨e, he, h⟩ := Option.bind_eq_some_iff.1 h
    have hinner := Referring.inner_ofText? he
    obtain ⟨groups, find, rfl, hsound⟩ : ∃ groups find, m = .ofFinder groups find ∧
        find.Sound := by
      rw [Referring.fancy?] at h
      split at h
      · obtain ⟨machine, hmachine, rfl⟩ := Option.map_eq_some_iff.1 h
        exact ⟨_, _, rfl, Machine.sound_machine hinner hmachine⟩
      · split at h
        · rename_i tree htree
          split at h
          · obtain rfl := Option.some.inj h
            exact ⟨_, _, rfl, sound_automaton (hinner.tree? htree)⟩
          · cases h
        · cases h
    exact ⟨hsound.ordered_all t, Fancy.isMatch_ofFinder⟩

/-! ### All matches -/

/-- The matches of a compiled pattern are in order, and it matches if and only if there is one. -/
lemma iterates_compile {library : Library} (hlibrary : library.Iterates) {options : Options}
    {pattern : Text} {re : Regex} (hcompile : compile? options pattern = some re) (t : Text) :
    Match.Ordered t.length 0 (re.allMatches none t).1 ∧
      ((re.allMatches none t).2 = none ∨ (re.allMatches none t).1 ≠ [] →
        re.isMatch t = .ok (!(re.allMatches none t).1.isEmpty)) := by
  obtain ⟨engine, hengine, rfl⟩ := Option.map_eq_some_iff.1 hcompile
  generalize (if options.extended then pattern else BasicNotation.toExtended pattern) = extended
    at hengine
  rw [Engine.ofText?] at hengine
  split at hengine
  · obtain rfl := Option.some.inj hengine
    exact ⟨Literal.ordered_literalMatches _ t,
      fun _ => congrArg Except.ok (Literal.isSome_find? _ t)⟩
  · split at hengine
    · obtain ⟨m, hm, rfl⟩ := Option.map_eq_some_iff.1 hengine
      exact hlibrary.fancy hm t
    · obtain ⟨m, hm, rfl⟩ := Option.map_eq_some_iff.1 hengine
      obtain ⟨hordered, hmatch⟩ := hlibrary.standard hm t
      exact ⟨hordered, fun _ => congrArg Except.ok hmatch⟩

/-! ### Substitutions -/

/-- The matches that a substitution finds are those that it replaces, and the ones before. -/
lemma replace_eq (re : Regex) (template : Template) {occurrence : ℕ} (hoccurrence : 1 ≤ occurrence)
    {everywhere : Bool} {t : Text}
    (hfine : (re.allMatches none t).2 = none ∨
      everywhere = false ∧ occurrence ≤ (re.allMatches none t).1.length) :
    re.replace template occurrence everywhere t =
      .ok (rewrite template t 0 t (Match.chosen occurrence everywhere (re.allMatches none t).1),
        (Match.chosen occurrence everywhere (re.allMatches none t).1).length) := by
  rw [replace]
  cases everywhere with
  | true =>
      have hnone : (re.allMatches none t).2 = none := by simpa using hfine
      simp only [if_true, Match.chosen]
      rw [← Prod.mk.eta (p := re.allMatches none t), hnone]
  | false =>
      have hfault : (if occurrence ≤ (re.allMatches none t).1.length then none
          else (re.allMatches none t).2) = none := by
        split
        · rfl
        · rename_i hlt
          exact hfine.resolve_right fun h => hlt h.2
      -- Of the matches up to the one that is asked for, the last is this one.
      have hone : ((re.allMatches none t).1.take occurrence).drop (occurrence - 1) =
          (re.allMatches none t).1[occurrence - 1]?.toList := by
        obtain ⟨n, rfl⟩ := Nat.exists_eq_add_of_le' hoccurrence
        rw [Nat.add_sub_cancel, List.drop_take, Nat.add_sub_cancel_left, ← List.head?_drop]
        cases (re.allMatches none t).1.drop n <;> rfl
      have hsome : re.allMatches (some occurrence) t =
          ((re.allMatches none t).1.take occurrence,
            if occurrence ≤ (re.allMatches none t).1.length then none
            else (re.allMatches none t).2) := rfl
      simp only [Bool.false_eq_true, if_false, max_eq_left hoccurrence, hsome, hfault, hone,
        Match.chosen]

/-- The template that is the whole match alone. -/
lemma apply_whole (group : ℕ → Text) : Template.apply ⟨[.whole]⟩ group = group 0 :=
  List.append_nil _

/-- A substitution replaces the match that it is asked to, or all from there on, and tells how many
these are. What is between the matches is kept, so that nothing changes if there is none to be
replaced, or if each is replaced by itself. From the first match on, there is one to be replaced if
and only if the expression matches. -/
theorem replace_chosen {library : Library} (hlibrary : library.Iterates) {options : Options}
    {pattern : Text} {re : Regex} (hcompile : compile? options pattern = some re)
    (template : Template) {occurrence : ℕ} (hoccurrence : 1 ≤ occurrence) (everywhere : Bool)
    (t : Text)
    (hfine : (re.allMatches none t).2 = none ∨
      everywhere = false ∧ occurrence ≤ (re.allMatches none t).1.length) :
    Match.Ordered t.length 0 (re.allMatches none t).1 ∧
    ∃ chosen result,
      chosen = Match.chosen occurrence everywhere (re.allMatches none t).1 ∧
      re.replace template occurrence everywhere t = .ok (result, chosen.length) ∧
      t = Text.weave (Match.kept t 0 chosen) (chosen.map (·.text t 0)) (Match.behind t 0 chosen) ∧
      result = Text.weave (Match.kept t 0 chosen) (chosen.map fun m => template.apply (m.text t))
        (Match.behind t 0 chosen) ∧
      (chosen = [] → result = t) ∧
      (template = ⟨[.whole]⟩ → result = t) ∧
      (occurrence = 1 → re.isMatch t = .ok (decide (0 < chosen.length))) := by
  obtain ⟨hordered, hmatch⟩ := iterates_compile hlibrary hcompile t
  have hchosen := hordered.chosen occurrence everywhere
  have hkept := hchosen.weave_kept
  have hrewrite := hchosen.rewrite_eq_weave template
  rw [List.drop_zero] at hkept hrewrite
  refine ⟨hordered, _, _, rfl, replace_eq re template hoccurrence hfine, hkept.symm, hrewrite,
    ?_, ?_, ?_⟩
  · intro hnone
    rw [hnone]
    rfl
  · rintro rfl
    rw [hrewrite, ← hkept]
    simp only [apply_whole, hkept]
  · rintro rfl
    have hany := hmatch (hfine.imp_right fun h => List.length_pos_iff.1 h.2)
    rw [hany, Match.chosen]
    cases (re.allMatches none t).1 <;> cases everywhere <;> simp

/-- Of the three matches of a repetition the first, which is empty, is kept: the letter and the
empty match at the end are replaced. -/
theorem replace_chosen_repetition :
    Library.builtin.Iterates ∧ ∃ re, compile? ⟨false, false, false⟩ ['a', '*'] = some re ∧
      (re.allMatches none ['b', 'a', 'c']).2 = none ∧
      Match.Ordered 3 0 (re.allMatches none ['b', 'a', 'c']).1 ∧
      re.replace ⟨[.literal ['<'], .whole, .literal ['>']]⟩ 2 true ['b', 'a', 'c'] =
        .ok (['b', '<', 'a', '>', 'c', '<', '>'], 2) := by
  obtain ⟨re, hre⟩ : ∃ re, compile? ⟨false, false, false⟩ ['a', '*'] = some re := ⟨_, rfl⟩
  have hmatches : re.allMatches none ['b', 'a', 'c'] =
      ([⟨0, 0, [some (0, 0)]⟩, ⟨1, 2, [some (1, 2)]⟩, ⟨3, 3, [some (3, 3)]⟩], none) := by
    obtain rfl := Option.some.inj hre
    rfl
  obtain ⟨hordered, chosen, result, hchosen, hreplace, -, hresult, -⟩ :=
    replace_chosen Library.iterates_builtin hre ⟨[.literal ['<'], .whole, .literal ['>']]⟩
      (by decide : 1 ≤ 2) true ['b', 'a', 'c'] (.inl (by rw [hmatches]))
  refine ⟨Library.iterates_builtin, re, hre, by rw [hmatches], hordered, ?_⟩
  rw [hmatches] at hchosen
  subst hchosen
  rw [hreplace, hresult]
  rfl

end StreamEditor.Regex
