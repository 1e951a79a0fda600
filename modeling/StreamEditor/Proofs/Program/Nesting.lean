import StreamEditor.Program.Parser
import StreamEditor.Proofs.Program.WellFormed

/-!
How blocks come to be nested while a program is read.

* `Nested`: the blocks of a sequence of commands are nested, but for those still open, which lie
  around all that follows.
* `Nested.concat`, `Nested.open`, `Nested.close`: what adding a command, opening a block and
  closing the innermost one do to it.
-/

namespace StreamEditor

section Places

variable {commands : List Command} {c : Command} {i stop : ℕ}

private lemma exists_getElem?_concat {α : Type} {l : List α} {a : α} {i : ℕ} {P : α → Prop} :
    (∃ x, (l ++ [a])[i]? = some x ∧ P x) ↔ (∃ x, l[i]? = some x ∧ P x) ∨ i = l.length ∧ P a := by
  rcases lt_trichotomy i l.length with h | rfl | h
  · rw [List.getElem?_append_left h]
    simp [h.ne]
  · simp
  · rw [List.getElem?_eq_none (by simp; omega), List.getElem?_eq_none (by omega)]
    simp [h.ne']

lemma opens_concat :
    Opens (commands ++ [c]) i stop ↔
      Opens commands i stop ∨ i = commands.length ∧ c.action = .block stop :=
  exists_getElem?_concat

lemma closes_concat :
    Closes (commands ++ [c]) i ↔ Closes commands i ∨ i = commands.length ∧ c.action = .blockEnd :=
  exists_getElem?_concat

/-- Only commands that open a block are changed by its end. -/
lemma action_closed_eq_block {s : ℕ} :
    (Parser.closed stop c).action = .block s ↔ (∃ t, c.action = .block t) ∧ s = stop := by
  rw [Parser.closed]
  split
  · rename_i t ht
    simp [ht, eq_comm]
  · rename_i h
    constructor
    · exact fun hs => absurd hs (h s)
    · rintro ⟨⟨t, ht⟩, -⟩
      exact absurd ht (h t)

/-- All other actions stay as they are. -/
lemma action_closed_eq {a : Action} (ha : ∀ t, a ≠ .block t) :
    (Parser.closed stop c).action = a ↔ c.action = a := by
  rw [Parser.closed]
  split
  · rename_i t ht
    rw [ht]
    exact ⟨fun h => absurd h.symm (ha _), fun h => absurd h.symm (ha _)⟩
  · rfl

/-- Giving a block its end changes where this block ends, and no other. -/
lemma opens_modify {b s : ℕ} :
    Opens (commands.modify b (Parser.closed stop)) i s ↔
      if i = b then (∃ t, Opens commands b t) ∧ s = stop else Opens commands i s := by
  rw [Opens, Opens]
  by_cases hb : i = b
  · subst hb
    simp only [List.getElem?_modify_eq, Option.map_eq_map, Option.map_eq_some_iff, if_true]
    constructor
    · rintro ⟨_, ⟨c, hc, rfl⟩, hs⟩
      obtain ⟨⟨t, ht⟩, rfl⟩ := action_closed_eq_block.1 hs
      exact ⟨⟨t, c, hc, ht⟩, rfl⟩
    · rintro ⟨⟨t, c, hc, ht⟩, rfl⟩
      exact ⟨_, ⟨c, hc, rfl⟩, action_closed_eq_block.2 ⟨⟨t, ht⟩, rfl⟩⟩
  · rw [List.getElem?_modify_ne _ _ (Ne.symm hb), if_neg hb]

lemma closes_modify {b j : ℕ} :
    Closes (commands.modify b (Parser.closed stop)) j ↔ Closes commands j := by
  rw [Closes, Closes]
  by_cases hb : j = b
  · subst hb
    simp only [List.getElem?_modify_eq, Option.map_eq_map, Option.map_eq_some_iff]
    constructor
    · rintro ⟨_, ⟨c, hc, rfl⟩, h⟩
      exact ⟨c, hc, (action_closed_eq (by simp)).1 h⟩
    · rintro ⟨c, hc, h⟩
      exact ⟨_, ⟨c, hc, rfl⟩, (action_closed_eq (by simp)).2 h⟩
  · rw [List.getElem?_modify_ne _ _ (Ne.symm hb)]

end Places

/-- The blocks are nested but for those in `opened`, which have no end yet. -/
structure Nested (commands : List Command) (opened : List ℕ) : Prop where
  opened_opens : ∀ b ∈ opened, ∃ stop, Opens commands b stop
  /-- The innermost block comes first. -/
  sorted : opened.Pairwise (· > ·)
  opens : ∀ i stop, Opens commands i stop → i ∉ opened → i < stop ∧ Closes commands stop
  closes : ∀ j, Closes commands j → ∃ i, Opens commands i j ∧ i ∉ opened
  /-- An open block begins before or after a closed one, not within it. -/
  apart : ∀ i stop, Opens commands i stop → i ∉ opened → ∀ b ∈ opened, b < i ∨ stop < b
  nested : ∀ i j s t, Opens commands i s → i ∉ opened → Opens commands j t → j ∉ opened →
    i < j → s < j ∨ t < s

namespace Nested

variable {commands : List Command} {opened : List ℕ} {c : Command}

lemma nil : Nested [] [] := by
  refine ⟨?_, List.Pairwise.nil, ?_, ?_, ?_, ?_⟩ <;> simp [Opens, Closes]

/-- A block begins before the end of the commands, and so does its end if it has one. -/
lemma stop_lt_length (h : Nested commands opened) {i stop : ℕ} (hi : Opens commands i stop)
    (hclosed : i ∉ opened) : stop < commands.length := (h.opens i stop hi hclosed).2.lt_length

lemma lt_length_of_mem (h : Nested commands opened) {b : ℕ} (hb : b ∈ opened) :
    b < commands.length := by
  obtain ⟨stop, hstop⟩ := h.opened_opens b hb
  exact hstop.lt_length

/-- A command that has nothing to do with blocks changes nothing. -/
lemma concat (h : Nested commands opened) (hblock : ∀ stop, c.action ≠ .block stop)
    (hend : c.action ≠ .blockEnd) : Nested (commands ++ [c]) opened := by
  have hopens : ∀ i stop, Opens (commands ++ [c]) i stop ↔ Opens commands i stop := fun i stop => by
    simp [opens_concat, hblock]
  have hcloses : ∀ j, Closes (commands ++ [c]) j ↔ Closes commands j := fun j => by
    simp [closes_concat, hend]
  refine ⟨?_, h.sorted, ?_, ?_, ?_, ?_⟩
  · simpa only [hopens] using h.opened_opens
  · simpa only [hopens, hcloses] using h.opens
  · simpa only [hopens, hcloses] using h.closes
  · simpa only [hopens] using h.apart
  · simpa only [hopens] using h.nested

/-- A block that is opened comes after all others. -/
lemma open_ (h : Nested commands opened) {stop : ℕ} (hblock : c.action = .block stop) :
    Nested (commands ++ [c]) (commands.length :: opened) := by
  have hold : ∀ i s, Opens (commands ++ [c]) i s → i ∉ commands.length :: opened →
      Opens commands i s ∧ i ∉ opened := by
    intro i s hi hnot
    rw [List.mem_cons, not_or] at hnot
    rcases opens_concat.1 hi with hi | ⟨rfl, -⟩
    · exact ⟨hi, hnot.2⟩
    · exact absurd rfl hnot.1
  have hcloses : ∀ j, Closes (commands ++ [c]) j ↔ Closes commands j := fun j => by
    simp [closes_concat, hblock]
  constructor
  case opened_opens =>
    intro b hb
    rcases List.mem_cons.1 hb with rfl | hb
    · exact ⟨stop, opens_concat.2 (.inr ⟨rfl, hblock⟩)⟩
    · obtain ⟨s, hs⟩ := h.opened_opens b hb
      exact ⟨s, opens_concat.2 (.inl hs)⟩
  case sorted =>
    exact List.pairwise_cons.2 ⟨fun b hb => h.lt_length_of_mem hb, h.sorted⟩
  case opens =>
    intro i s hi hnot
    obtain ⟨hi, hnot⟩ := hold i s hi hnot
    exact ⟨(h.opens i s hi hnot).1, (hcloses s).2 (h.opens i s hi hnot).2⟩
  case closes =>
    intro j hj
    obtain ⟨i, hi, hnot⟩ := h.closes j ((hcloses j).1 hj)
    refine ⟨i, opens_concat.2 (.inl hi), ?_⟩
    rw [List.mem_cons, not_or]
    exact ⟨hi.lt_length.ne, hnot⟩
  case apart =>
    intro i s hi hnot b hb
    obtain ⟨hi, hnot⟩ := hold i s hi hnot
    rcases List.mem_cons.1 hb with rfl | hb
    · exact .inr (h.stop_lt_length hi hnot)
    · exact h.apart i s hi hnot b hb
  case nested =>
    intro i j s t hi hni hj hnj
    obtain ⟨hi, hni⟩ := hold i s hi hni
    obtain ⟨hj, hnj⟩ := hold j t hj hnj
    exact h.nested i j s t hi hni hj hnj

/-- Where the innermost block is closed, it lies after or around all that were closed before. -/
lemma close {block : ℕ} {outer : List ℕ} (h : Nested commands (block :: outer))
    (hend : c.action = .blockEnd) :
    Nested (commands.modify block (Parser.closed commands.length) ++ [c]) outer := by
  set n := commands.length with hn
  have hlength : (commands.modify block (Parser.closed n)).length = n := by simp [hn]
  have hblock : block < n := h.lt_length_of_mem (by simp)
  have hsorted := List.pairwise_cons.1 h.sorted
  have hopens : ∀ i s, Opens (commands.modify block (Parser.closed n) ++ [c]) i s ↔
      (i = block ∧ s = n) ∨ (i ≠ block ∧ Opens commands i s) := by
    intro i s
    rw [opens_concat, opens_modify, hend]
    by_cases hi : i = block
    · simp [hi, h.opened_opens block (by simp)]
    · simp [hi]
  have hcloses : ∀ j, Closes (commands.modify block (Parser.closed n) ++ [c]) j ↔
      Closes commands j ∨ j = n := by
    intro j
    rw [closes_concat, closes_modify, hlength]
    simp [hend]
  have hnot : block ∉ outer := fun hmem => lt_irrefl _ (hsorted.1 block hmem)
  have hold : ∀ i s, i ≠ block → Opens commands i s → i ∉ outer →
      Opens commands i s ∧ i ∉ block :: outer := fun i s hi ho hm =>
    ⟨ho, by rw [List.mem_cons, not_or]; exact ⟨hi, hm⟩⟩
  constructor
  case sorted => exact hsorted.2
  case opened_opens =>
    intro b hb
    obtain ⟨s, hs⟩ := h.opened_opens b (List.mem_cons_of_mem _ hb)
    exact ⟨s, (hopens b s).2 (.inr ⟨fun he => hnot (he ▸ hb), hs⟩)⟩
  case opens =>
    intro i s hi hm
    rw [hcloses]
    rcases (hopens i s).1 hi with ⟨rfl, rfl⟩ | ⟨hne, ho⟩
    · exact ⟨hblock, .inr rfl⟩
    · obtain ⟨ho, hm⟩ := hold i s hne ho hm
      exact ⟨(h.opens i s ho hm).1, .inl (h.opens i s ho hm).2⟩
  case closes =>
    intro j hj
    rcases (hcloses j).1 hj with hj | rfl
    · obtain ⟨i, hi, hm⟩ := h.closes j hj
      rw [List.mem_cons, not_or] at hm
      exact ⟨i, (hopens i j).2 (.inr ⟨hm.1, hi⟩), hm.2⟩
    · exact ⟨block, (hopens block n).2 (.inl ⟨rfl, rfl⟩), hnot⟩
  case apart =>
    intro i s hi hm b hb
    rcases (hopens i s).1 hi with ⟨rfl, rfl⟩ | ⟨hne, ho⟩
    · exact .inl (hsorted.1 b hb)
    · obtain ⟨ho, hm⟩ := hold i s hne ho hm
      exact h.apart i s ho hm b (List.mem_cons_of_mem _ hb)
  case nested =>
    intro i j s t hi hni hj hnj hij
    rcases (hopens i s).1 hi with ⟨rfl, rfl⟩ | ⟨hine, hio⟩
    · rcases (hopens j t).1 hj with ⟨rfl, -⟩ | ⟨hjne, hjo⟩
      · exact absurd hij (lt_irrefl _)
      · obtain ⟨hjo, hnj⟩ := hold j t hjne hjo hnj
        exact .inr (h.stop_lt_length hjo hnj)
    · obtain ⟨hio, hni⟩ := hold i s hine hio hni
      rcases (hopens j t).1 hj with ⟨rfl, rfl⟩ | ⟨hjne, hjo⟩
      · -- the block that is closed now was open, so it does not begin within the other
        rcases h.apart i s hio hni j (by simp) with hlt | hlt
        · exact absurd hij (lt_asymm hlt)
        · exact .inl hlt
      · obtain ⟨hjo, hnj⟩ := hold j t hjne hjo hnj
        exact h.nested i j s t hio hni hjo hnj hij

/-- What closes a block closes no other. -/
lemma opens_unique (h : Nested commands opened) {i j s : ℕ} (hi : Opens commands i s)
    (hni : i ∉ opened) (hj : Opens commands j s) (hnj : j ∉ opened) : i = j := by
  rcases lt_trichotomy i j with hij | hij | hij
  · rcases h.nested i j s s hi hni hj hnj hij with hs | hs
    · exact absurd (h.opens j s hj hnj).1 (lt_asymm hs)
    · exact absurd hs (lt_irrefl _)
  · exact hij
  · rcases h.nested j i s s hj hnj hi hni hij with hs | hs
    · exact absurd (h.opens i s hi hni).1 (lt_asymm hs)
    · exact absurd hs (lt_irrefl _)

end Nested

end StreamEditor
