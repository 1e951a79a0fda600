import StreamEditor.Proofs.Program.Spelled

/-!
Templates and their printed forms.

* `Template.Normal`: no literal is empty or meets another, and every group is written with one
  digit.
* `Template.normal_compile`: what is read from a script is normal.
* `Template.foldr_singles`: normal parts are put together again from their single parts.
* `Template.compile_render`: the normal templates are those that are read back from their printed
  forms.
-/

namespace StreamEditor.Template

/-- No literal is empty, no literal is followed by another, and groups have one digit. -/
structure Normal (parts : List Part) : Prop where
  nonempty : ∀ t, .literal t ∈ parts → t ≠ []
  apart : ∀ t u, ¬[Part.literal t, .literal u] <:+: parts
  group : ∀ n, .group n ∈ parts → 1 ≤ n ∧ n ≤ 9

lemma normal_nil : Normal [] := ⟨nofun, fun _ _ h => by simpa using h.length_le, nofun⟩

lemma Normal.tail {part : Part} {parts : List Part} (h : Normal (part :: parts)) : Normal parts :=
  ⟨fun t ht => h.nonempty t (List.mem_cons_of_mem _ ht),
    fun t u ht => h.apart t u (ht.trans (List.suffix_cons _ _).isInfix),
    fun n hn => h.group n (List.mem_cons_of_mem _ hn)⟩

/-- Behind a literal comes no other. -/
lemma Normal.ne_literal {t u : Text} {parts rest : List Part} (h : Normal (.literal t :: parts)) :
    parts ≠ .literal u :: rest := by
  rintro rfl
  exact h.apart t u (List.prefix_append [.literal t, .literal u] rest).isInfix

/-- Two parts next to each other are the first two or stand in the rest. -/
lemma Normal.cons {part : Part} {parts : List Part} (h : Normal parts)
    (hnonempty : ∀ t, part = .literal t → t ≠ [])
    (hapart : ∀ t u rest, part = .literal t → parts ≠ .literal u :: rest)
    (hgroup : ∀ n, part = .group n → 1 ≤ n ∧ n ≤ 9) : Normal (part :: parts) where
  nonempty t ht := by
    obtain ht | ht := List.mem_cons.1 ht
    · exact hnonempty t ht.symm
    · exact h.nonempty t ht
  apart t u hinfix := by
    obtain hprefix | hinfix := List.infix_cons_iff.1 hinfix
    · obtain ⟨hpart, rest, hrest⟩ := List.cons_prefix_cons.1 hprefix
      exact hapart t u rest hpart.symm hrest.symm
    · exact h.apart t u hinfix
  group n hn := by
    obtain hn | hn := List.mem_cons.1 hn
    · exact hgroup n hn.symm
    · exact h.group n hn

/-! ### What is read is normal -/

/-- To put a single part before others keeps them normal: literals that meet become one. -/
lemma normal_cons {part : Part} {parts : List Part} (hpart : part.Single) (h : Normal parts) :
    Normal (Part.cons part parts) := by
  unfold Part.cons
  split
  · rename_i t u rest
    refine h.tail.cons ?_ ?_ nofun
    · rintro _ ⟨⟩ hnil
      exact h.nonempty u List.mem_cons_self (List.append_eq_nil_iff.1 hnil).2
    · rintro _ v more ⟨⟩
      exact h.ne_literal
  · rename_i hmeets
    refine h.cons ?_ ?_ ?_
    · rintro t rfl
      obtain ⟨c, rfl⟩ := hpart
      exact List.cons_ne_nil _ _
    · rintro t u rest rfl rfl
      exact hmeets t u rest rfl rfl
    · rintro n rfl
      exact ⟨hpart.1, Nat.le_of_lt_succ hpart.2⟩

/-- A template that was read is normal. -/
lemma normal_compile (t : Text) : Normal (compile t).parts := by
  have hsingle := single_of_mem_pieces t
  rw [compile]
  dsimp only
  generalize pieces t = parts at hsingle
  induction parts with
  | nil => exact normal_nil
  | cons part parts ih =>
      rw [List.forall_mem_cons] at hsingle
      exact normal_cons hsingle.1 (ih hsingle.2)

/-! ### What is normal is read back -/

/-- The characters of a literal are put together again, if no other literal is behind them. -/
lemma foldr_literal {t : Text} {parts : List Part} (ht : t ≠ [])
    (h : ∀ u rest, parts ≠ .literal u :: rest) :
    (Part.literal t).singles.foldr Part.cons parts = .literal t :: parts := by
  induction t with
  | nil => exact absurd rfl ht
  | cons c t ih =>
      have hcons : (Part.literal (c :: t)).singles.foldr Part.cons parts =
          Part.cons (.literal [c]) ((Part.literal t).singles.foldr Part.cons parts) := rfl
      rw [hcons]
      cases t with
      | nil =>
          change Part.cons (.literal [c]) parts = _
          unfold Part.cons
          split
          · exact absurd rfl (h _ _)
          · rfl
      | cons d t =>
          rw [ih (List.cons_ne_nil _ _)]
          rfl

/-- Normal parts are put together again from the single parts that make them up. -/
lemma foldr_singles {parts : List Part} (h : Normal parts) :
    (parts.flatMap Part.singles).foldr Part.cons [] = parts := by
  induction parts with
  | nil => rfl
  | cons part parts ih =>
      rw [List.flatMap_cons, List.foldr_append, ih h.tail]
      cases part with
      | literal t =>
          exact foldr_literal (h.nonempty t List.mem_cons_self) fun u rest => h.ne_literal
      | whole | group => rfl

lemma pieces_render {parts : List Part} (h : Normal parts) :
    pieces (render ⟨parts⟩) = parts.flatMap Part.singles := by
  refine pieces_flatMap fun part hpart rest => ?_
  cases part with
  | literal t => exact pieces_literal pieces_renderChar t rest
  | whole => rfl
  | group n => exact pieces_group (h.group n hpart).1 (Nat.lt_succ_of_le (h.group n hpart).2) rest

/-- A normal template is read back from its printed form. -/
lemma compile_render_of_normal {parts : List Part} (h : Normal parts) :
    compile (render ⟨parts⟩) = ⟨parts⟩ := by
  rw [compile, pieces_render h, foldr_singles h]

/-- A template that was read from a script is read back from its printed form, with the same parts
and the same highest group; and the templates that are read back from their printed forms are just
the normal ones. -/
theorem compile_render :
    (∀ r, (compile (compile r).render).parts = (compile r).parts ∧
      (compile (compile r).render).maxGroup = (compile r).maxGroup) ∧
    ∀ parts, compile (render ⟨parts⟩) = ⟨parts⟩ ↔ Normal parts := by
  refine ⟨fun r => ?_, fun parts => ⟨fun h => ?_, compile_render_of_normal⟩⟩
  · have hback : compile (compile r).render = compile r :=
      compile_render_of_normal (normal_compile r)
    rw [hback]
    exact ⟨rfl, rfl⟩
  · have hnormal := normal_compile (render ⟨parts⟩)
    rwa [h] at hnormal

/-- Digits behind a group, a letter behind a newline, and each sign. -/
example : compile (render ⟨[.group 1, .literal (Text.ofString "2\nd065/&\\"), .whole, .group 9]⟩) =
    ⟨[.group 1, .literal (Text.ofString "2\nd065/&\\"), .whole, .group 9]⟩ := by decide

end StreamEditor.Template
