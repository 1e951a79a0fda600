import StreamEditor.Proofs.Regex.Balanced
import StreamEditor.Proofs.Regex.Generated
import StreamEditor.Regex.Referring.Notation

/-!
Groups are numbered from one.

* `Building.Numbered`: what is read so far has no group that is the whole; each lexeme keeps it so
  (`Building.Numbered.push`), and so do the signs of expressions that refer back
  (`Referring.Building.Numbered.push`).
* `Tree.inner_ofText?`, `Referring.inner_ofText?`: so it is of a pattern that has been read.
-/

namespace StreamEditor.Regex

/-! ### Expressions without references -/

/-- A group is numbered from one, and so are all groups within it. -/
structure Level.Numbered (l : Level) : Prop where
  like : l.Like l
  number : ∀ n ∈ l.number, 0 < n

namespace Level.Numbered

variable {l : Level} (h : l.Numbered)

include h

lemma add {p : Piece} (hp : p.Like p) : (l.add p).Numbered := ⟨h.like.add hp, h.number⟩

lemma endBranch : l.endBranch.Numbered := ⟨h.like.endBranch, h.number⟩

lemma finish : l.finish.tree.Inner := by
  rw [Level.finish]
  have hcontent := h.like.content.left
  cases hnumber : l.number with
  | none => exact hcontent
  | some n => exact ⟨h.number n hnumber, hcontent⟩

end Level.Numbered

lemma Level.numbered_opened {number : Option ℕ} (h : ∀ n ∈ number, 0 < n) :
    (Level.opened number).Numbered :=
  ⟨⟨.nil, .nil⟩, h⟩

/-- A tree without groups that are the whole is like itself. -/
lemma Tree.Inner.like {t : Tree} (h : t.Inner) : t.Like t := ⟨rfl, h, h⟩

/-- All open groups are numbered from one. -/
structure Building.Numbered (b : Building) : Prop where
  current : b.current.Numbered
  outer : ∀ l ∈ b.outer, l.Numbered

lemma Building.Numbered.push {b b' : Building} (h : b.Numbered) {lexeme : Lexeme}
    (hpush : b.push lexeme = some b') : b'.Numbered := by
  cases lexeme with
  | set | look =>
      obtain rfl := Option.some.inj hpush
      exact ⟨h.current.add (.tree (Tree.Inner.like trivial)), h.outer⟩
  | openGroup name =>
      rw [Building.push] at hpush
      split at hpush
      · cases hpush
      · obtain rfl := Option.some.inj hpush
        refine ⟨Level.numbered_opened fun n hn => ?_, List.forall_mem_cons.2 ⟨h.current, h.outer⟩⟩
        obtain rfl := Option.some.inj hn
        exact Nat.succ_pos _
  | openPlain _ =>
      obtain rfl := Option.some.inj hpush
      exact ⟨Level.numbered_opened (by simp), List.forall_mem_cons.2 ⟨h.current, h.outer⟩⟩
  | setFlags _ =>
      obtain rfl := Option.some.inj hpush
      exact ⟨h.current.add .flags, h.outer⟩
  | close =>
      rw [Building.push] at hpush
      split at hpush
      · cases hpush
      · rename_i level outer houter
        obtain rfl := Option.some.inj hpush
        have hall := h.outer
        rw [houter] at hall
        obtain ⟨hlevel, houter⟩ := List.forall_mem_cons.1 hall
        exact ⟨hlevel.add (.tree h.current.finish.like), houter⟩
  | bar =>
      obtain rfl := Option.some.inj hpush
      exact ⟨h.current.endBranch, h.outer⟩
  | loop least most greedy =>
      obtain ⟨⟨number, branches, pieces⟩, outer, groups, names⟩ := b
      obtain ⟨⟨⟨hbranches, hpieces⟩, hnumber⟩, houter⟩ := h
      -- Only a tree can be repeated.
      cases hpieces with
      | nil => cases hpush
      | cons hp hrest =>
          cases hp with
          | flags => cases hpush
          | tree hn =>
              obtain rfl := Option.some.inj hpush
              exact ⟨⟨⟨hbranches, .cons (.tree (hn.loopOf least most greedy)) hrest⟩, hnumber⟩,
                houter⟩

lemma Building.Numbered.foldlM {b b' : Building} (h : b.Numbered) {lexemes : List Lexeme}
    (hpush : lexemes.foldlM Building.push b = some b') : b'.Numbered := by
  induction lexemes generalizing b with
  | nil =>
      obtain rfl := Option.some.inj hpush
      exact h
  | cons lexeme lexemes ih =>
      obtain ⟨b₁, hfirst, hrest⟩ := Option.bind_eq_some_iff.1 hpush
      exact ih (h.push hfirst) hrest

/-- No group of a pattern is the whole. -/
lemma Tree.inner_ofText? {flags : Flags} {pattern : Text} {t : Tree}
    (h : Tree.ofText? flags pattern = some t) : t.Inner := by
  obtain ⟨lexemes, -, h⟩ := Option.bind_eq_some_iff.1 h
  rw [ofLexemes?] at h
  split at h
  · rename_i nested hread
    split at h
    · obtain rfl := Option.some.inj h
      obtain ⟨b, hpush, hfinish⟩ := Option.bind_eq_some_iff.1 hread
      have hstart : Building.start.Numbered :=
        ⟨Level.numbered_opened (by simp), List.forall_mem_nil _⟩
      rw [Building.finish] at hfinish
      split at hfinish
      · obtain rfl := Option.some.inj hfinish
        exact (hstart.foldlM hpush).current.like.content.left
      · cases hfinish
    · cases h
  · cases h

/-! ### Expressions that refer back -/

namespace Referring

lemma inner_catAll {es : List Referring} (h : ∀ e ∈ es, e.Inner) : (catAll es).Inner := by
  induction es with
  | nil => trivial
  | cons e es ih =>
      obtain ⟨he, hes⟩ := List.forall_mem_cons.1 h
      cases es with
      | nil => exact he
      | cons _ _ => exact ⟨he, ih hes⟩

lemma inner_altAll {es : List Referring} (h : ∀ e ∈ es, e.Inner) : (altAll es).Inner := by
  induction es with
  | nil => trivial
  | cons e es ih =>
      obtain ⟨he, hes⟩ := List.forall_mem_cons.1 h
      cases es with
      | nil => exact he
      | cons _ _ => exact ⟨he, ih hes⟩

/-- A group is numbered from one, and so are all groups within it. -/
structure Level.Numbered (l : Level) : Prop where
  branches : ∀ e ∈ l.branches, e.Inner
  pieces : ∀ e ∈ l.pieces, e.Inner
  number : ∀ n ∈ l.number, 0 < n

namespace Level.Numbered

variable {l : Level} (h : l.Numbered)

include h

lemma add {e : Referring} (he : e.Inner) : (l.add e).Numbered where
  branches := h.branches
  pieces := by
    rw [Level.add]
    dsimp only
    split
    · exact h.pieces
    · exact List.forall_mem_cons.2 ⟨he, h.pieces⟩
  number := h.number

lemma endBranch : l.endBranch.Numbered where
  branches := List.forall_mem_cons.2
    ⟨inner_catAll fun e he => h.pieces e (List.mem_reverse.1 he), h.branches⟩
  pieces := List.forall_mem_nil _
  number := h.number

lemma content : l.content.Inner :=
  inner_altAll fun e he => h.endBranch.branches e (List.mem_reverse.1 he)

lemma finish : l.finish.Inner := by
  have hcontent := h.content
  rw [Level.finish]
  split
  · rename_i n hnumber
    exact ⟨h.number n hnumber, hcontent⟩
  · rename_i hcat
    rwa [hcat] at hcontent
  · exact hcontent

end Level.Numbered

lemma Level.numbered_opened {number : Option ℕ} (h : ∀ n ∈ number, 0 < n) :
    (Level.opened number).Numbered :=
  ⟨List.forall_mem_nil _, List.forall_mem_nil _, h⟩

/-- All open groups are numbered from one. -/
structure Building.Numbered (b : Building) : Prop where
  current : b.current.Numbered
  outer : ∀ l ∈ b.outer, l.Numbered

/-- A sign that is an expression by itself has no groups. -/
def Sign.Bare : Sign → Prop
  | .atom e => e.Inner
  | _ => True

lemma Building.Numbered.push {b b' : Building} (h : b.Numbered) {sign : Sign} (hsign : sign.Bare)
    (hpush : b.push sign = some b') : b'.Numbered := by
  cases sign with
  | atom e =>
      obtain rfl := Option.some.inj hpush
      exact ⟨h.current.add hsign, h.outer⟩
  | openGroup name =>
      obtain rfl := Option.some.inj hpush
      refine ⟨Level.numbered_opened fun n hn => ?_, List.forall_mem_cons.2 ⟨h.current, h.outer⟩⟩
      obtain rfl := Option.some.inj hn
      exact Nat.succ_pos _
  | openPlain _ =>
      obtain rfl := Option.some.inj hpush
      exact ⟨Level.numbered_opened (by simp), List.forall_mem_cons.2 ⟨h.current, h.outer⟩⟩
  | setFlags _ =>
      obtain rfl := Option.some.inj hpush
      exact ⟨h.current.add trivial, h.outer⟩
  | close =>
      rw [Building.push] at hpush
      split at hpush
      · cases hpush
      · rename_i level outer houter
        obtain rfl := Option.some.inj hpush
        have hall := h.outer
        rw [houter] at hall
        obtain ⟨hlevel, houter⟩ := List.forall_mem_cons.1 hall
        exact ⟨hlevel.add h.current.finish, houter⟩
  | bar =>
      obtain rfl := Option.some.inj hpush
      exact ⟨h.current.endBranch, h.outer⟩
  | loop least most greedy holds =>
      rw [Building.push] at hpush
      split at hpush
      · rename_i e pieces _ hpieces
        obtain rfl := Option.some.inj hpush
        have hall := h.current.pieces
        rw [hpieces] at hall
        obtain ⟨he, hrest⟩ := List.forall_mem_cons.1 hall
        refine ⟨⟨h.current.branches, List.forall_mem_cons.2 ⟨?_, hrest⟩, h.current.number⟩, h.outer⟩
        split
        · exact he
        · exact he
      · cases hpush

lemma bare_escaped {flags : Flags} {size : ℕ} {c : Char} {rest : Text} {sign : Sign} {used : ℕ}
    (h : escaped flags size c rest = some (sign, used)) : sign.Bare := by
  unfold escaped at h
  dsimp only at h
  split at h
  · split at h
    · obtain rfl := (Prod.mk.inj (Option.some.inj h)).1
      trivial
    · cases h
  · split at h
    all_goals grind [Sign.Bare, Inner, Option.map_eq_some_iff]

lemma bare_read {flags : Flags} {size : ℕ} {c : Char} {rest : Text} {sign : Sign} {used : ℕ}
    (h : read flags size c rest = some (sign, used)) : sign.Bare := by
  unfold read at h
  dsimp only at h
  split at h
  all_goals grind [Sign.Bare, Inner, repetition, bare_escaped, Option.map_eq_some_iff]

lemma Building.Numbered.readAll {size n : ℕ} {flags : Flags} {outer : List Flags}
    {b b' : Building} {t : Text} (h : b.Numbered)
    (hread : readAll size n flags outer b t = some b') :
    b'.Numbered := by
  induction t generalizing n flags outer b with
  | nil =>
      rw [Referring.readAll.eq_def] at hread
      obtain rfl := Option.some.inj hread
      exact h
  | cons c rest ih =>
      cases n with
      | succ n => exact ih h hread
      | zero =>
          rw [Referring.readAll] at hread
          dsimp only at hread
          split at hread
          · cases hread
          · rename_i sign used hsign
            split at hread
            · rename_i b₁ hpush
              refine ih (h.push ?_ hpush) hread
              split at hsign
              · obtain rfl := (Prod.mk.inj (Option.some.inj hsign)).1
                trivial
              · exact bare_read hsign
            · cases hread

/-- No group of a pattern is the whole. -/
lemma inner_ofText? {flags : Flags} {size : ℕ} {pattern : Text} {e : Referring}
    (h : ofText? flags size pattern = some e) : e.Inner := by
  rw [ofText?] at h
  split at h
  · rename_i b hread
    have hstart : Building.start.Numbered :=
      ⟨Level.numbered_opened (by simp), List.forall_mem_nil _⟩
    dsimp only at h
    split at h
    · obtain rfl := Option.some.inj h
      exact (hstart.readAll hread).current.content
    · cases h
  · cases h

end Referring

end StreamEditor.Regex
