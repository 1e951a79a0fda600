import StreamEditor.Proofs.Regex.Thinned
import StreamEditor.Regex
import StreamEditor.Regex.Notation

/-!
Trees that lexemes write, whatever groups are open around them.

* `Tree.Like`: two expressions that differ in nothing but the numbers of their groups, and in
  groups that only one of them has.
* `Lexeme.Balanced`: lexemes in which each group that is opened is closed again; where they are
  read does not matter (`Balanced.foldlM_push`).
* `Lexeme.Single`: lexemes that write a single part, which can be repeated; `Lexeme.Writes` says
  what part, also of repetitions and groups.
* `Options.lexemes`: the flags before a pattern as lexemes, which are no part of the expression.
-/

namespace StreamEditor.Regex

/-! ### Alike but for groups -/

/-- Expressions that differ in nothing but their groups, none of which is the whole. -/
structure Tree.Like (t t' : Tree) : Prop where
  bare : t'.bare = t.bare
  left : t.Inner
  right : t'.Inner

namespace Tree.Like

variable {t t' : Tree}

lemma loopOf (h : t.Like t') (least : ℕ) (most : Option ℕ) (greedy : Bool) :
    (Tree.loopOf t least most greedy).Like (Tree.loopOf t' least most greedy) where
  bare := by rw [Tree.bare_loopOf, Tree.bare_loopOf, h.bare]
  left := h.left.loopOf least most greedy
  right := h.right.loopOf least most greedy

/-- A group around each of two expressions. -/
lemma groups {n n' : ℕ} (h : t.Like t') (hn : 0 < n) (hn' : 0 < n') :
    (Tree.group n t).Like (.group n' t') :=
  ⟨h.bare, ⟨hn, h.left⟩, hn', h.right⟩

lemma catAll {trees trees' : List Tree} (h : List.Forall₂ Tree.Like trees trees') :
    (Tree.catAll trees).Like (.catAll trees') := by
  induction h with
  | nil => exact ⟨rfl, trivial, trivial⟩
  | cons ht _ ih =>
      exact ⟨congrArg₂ Tree.cat ht.bare ih.bare, ⟨ht.left, ih.left⟩, ht.right, ih.right⟩

lemma altAll {trees trees' : List Tree} (h : List.Forall₂ Tree.Like trees trees') :
    (Tree.altAll trees).Like (.altAll trees') := by
  induction h with
  | nil => exact ⟨rfl, trivial, trivial⟩
  | cons ht hrest ih =>
      cases hrest with
      | nil => exact ht
      | cons _ _ =>
          exact ⟨congrArg₂ Tree.alt ht.bare ih.bare, ⟨ht.left, ih.left⟩, ht.right, ih.right⟩

end Tree.Like

/-- Parts of sequences that differ in nothing but their groups. -/
inductive Piece.Like : Piece → Piece → Prop
  | tree {n n' : Nested} (h : n.tree.Like n'.tree) : Like (.tree n) (.tree n')
  | flags : Like .flags .flags

/-- Groups of which the same is read, but for groups within them. -/
structure Level.Like (l l' : Level) : Prop where
  branches : List.Forall₂ (fun n n' => n.tree.Like n'.tree) l.branches l'.branches
  pieces : List.Forall₂ Piece.Like l.pieces l'.pieces

lemma Nested.sequence_like {pieces pieces' : List Piece}
    (h : List.Forall₂ Piece.Like pieces pieces') :
    (sequence pieces).tree.Like (sequence pieces').tree := by
  have hempty : Tree.empty.Like .empty := ⟨rfl, trivial, trivial⟩
  have htrees : List.Forall₂ Tree.Like (pieces.filterMap Piece.tree?)
      (pieces'.filterMap Piece.tree?) := by
    clear hempty
    induction h with
    | nil => exact .nil
    | cons hp _ ih =>
        cases hp with
        | tree hn => exact .cons hn ih
        | flags => exact ih
  cases h with
  | nil => exact hempty
  | cons hp hrest =>
      cases hrest with
      | nil =>
          cases hp with
          | tree hn => exact hn
          | flags => exact hempty
      | cons hp' hrest =>
          cases hp <;> cases hp' <;> exact Tree.Like.catAll htrees

lemma Nested.choice_like {branches branches' : List Nested}
    (h : List.Forall₂ (fun n n' => n.tree.Like n'.tree) branches branches') :
    (choice branches).tree.Like (choice branches').tree := by
  have htrees : List.Forall₂ Tree.Like (branches.map (·.tree)) (branches'.map (·.tree)) :=
    List.forall₂_map_left_iff.2 (List.forall₂_map_right_iff.2 h)
  cases h with
  | nil => exact ⟨rfl, trivial, trivial⟩
  | cons hn hrest =>
      cases hrest with
      | nil => exact hn
      | cons _ _ => exact Tree.Like.altAll htrees

namespace Level.Like

variable {l l' : Level} (h : l.Like l')

include h

lemma add {p p' : Piece} (hp : p.Like p') : (l.add p).Like (l'.add p') :=
  ⟨h.branches, .cons hp h.pieces⟩

lemma endBranch : l.endBranch.Like l'.endBranch :=
  ⟨.cons (Nested.sequence_like (List.forall₂_reverse_iff.2 h.pieces)) h.branches, .nil⟩

lemma content : l.content.tree.Like l'.content.tree :=
  Nested.choice_like (List.forall₂_reverse_iff.2 h.endBranch.branches)

end Level.Like

/-! ### Balanced lexemes -/

namespace Lexeme

/-- True for the lexemes that are read within the innermost open group. -/
def isFlat : Lexeme → Bool
  | .set _ | .look _ | .bar | .loop _ _ _ => true
  | _ => false

/-- Lexemes in which each group that is opened is closed again. -/
inductive Balanced : List Lexeme → Prop
  | nil : Balanced []
  | cons {lexeme : Lexeme} {lexemes : List Lexeme} (hflat : lexeme.isFlat = true)
      (h : Balanced lexemes) : Balanced (lexeme :: lexemes)
  | group {inner lexemes : List Lexeme} (hinner : Balanced inner) (h : Balanced lexemes) :
      Balanced (.openGroup none :: (inner ++ .close :: lexemes))

/-- What becomes of two stacks of open groups when the same is read in the innermost group of
each. -/
structure Adds (b b' b₁ b₁' : Building) : Prop where
  like : b₁.current.Like b₁'.current
  number : b₁.current.number = b.current.number
  number' : b₁'.current.number = b'.current.number
  outer : b₁.outer = b.outer
  outer' : b₁'.outer = b'.outer

lemma Adds.trans {b b' b₁ b₁' b₂ b₂' : Building} (h : Adds b b' b₁ b₁')
    (h' : Adds b₁ b₁' b₂ b₂') : Adds b b' b₂ b₂' where
  like := h'.like
  number := h'.number.trans h.number
  number' := h'.number'.trans h.number'
  outer := h'.outer.trans h.outer
  outer' := h'.outer'.trans h.outer'

variable {b b' b₁ : Building} (hlike : b.current.Like b'.current)

include hlike

/-- A lexeme within the innermost group adds the same wherever that group stands. -/
lemma push_flat {lexeme : Lexeme} (hflat : lexeme.isFlat = true)
    (hpush : b.push lexeme = some b₁) :
    ∃ b₁', b'.push lexeme = some b₁' ∧ Adds b b' b₁ b₁' := by
  cases lexeme with
  | set | look =>
      obtain rfl := Option.some.inj hpush
      exact ⟨_, rfl, hlike.add (.tree ⟨rfl, trivial, trivial⟩), rfl, rfl, rfl, rfl⟩
  | bar =>
      obtain rfl := Option.some.inj hpush
      exact ⟨_, rfl, hlike.endBranch, rfl, rfl, rfl, rfl⟩
  | loop least most greedy =>
      obtain ⟨⟨number, branches, pieces⟩, outer, groups, names⟩ := b
      obtain ⟨⟨number', branches', pieces'⟩, outer', groups', names'⟩ := b'
      obtain ⟨hbranches, hpieces⟩ := hlike
      cases hpieces with
      | nil => cases hpush
      | cons hp hrest =>
          cases hp with
          | flags => cases hpush
          | tree hn =>
              obtain rfl := Option.some.inj hpush
              exact ⟨_, rfl, ⟨hbranches, .cons (.tree (hn.loopOf least most greedy)) hrest⟩,
                rfl, rfl, rfl, rfl⟩
  | openGroup | openPlain | setFlags | close => cases hflat

omit hlike in
/-- A group adds a part to what stands around it. -/
lemma push_group {b b₁ : Building} {inner : List Lexeme}
    (hinner : ∀ {b b' b₁ : Building}, b.current.Like b'.current →
      inner.foldlM Building.push b = some b₁ →
      ∃ b₁', inner.foldlM Building.push b' = some b₁' ∧ Adds b b' b₁ b₁')
    (hpush : (.openGroup none :: (inner ++ [.close])).foldlM Building.push b = some b₁)
    (b' : Building) :
    ∃ b₁' n n', (.openGroup none :: (inner ++ [.close])).foldlM Building.push b' = some b₁' ∧
      n.tree.Like n'.tree ∧ b₁.current = b.current.add (.tree n) ∧ b₁.outer = b.outer ∧
      b₁'.current = b'.current.add (.tree n') ∧ b₁'.outer = b'.outer := by
  have hopen : ∀ b : Building, (.openGroup none :: (inner ++ [.close])).foldlM Building.push b =
      (inner.foldlM Building.push ⟨.opened (some (b.groups + 1)), b.current :: b.outer,
        b.groups + 1, b.names⟩).bind (Building.push · .close) := fun b => by
    have hfirst : b.push (.openGroup none) = some ⟨.opened (some (b.groups + 1)),
        b.current :: b.outer, b.groups + 1, b.names⟩ := rfl
    simp only [List.foldlM_cons, hfirst, Option.bind_eq_bind, Option.bind_some,
      List.foldlM_append, List.foldlM_nil, Option.pure_def, Option.bind_fun_some]
  have hclose : ∀ (b₂ : Building) (level : Level) (outer : List Level),
      b₂.outer = level :: outer →
      b₂.push .close = some { b₂ with current := level.add (.tree b₂.current.finish), outer } :=
    fun b₂ level outer houter => by rw [Building.push, houter]
  rw [hopen] at hpush
  obtain ⟨b₂, hrun, hpush⟩ := Option.bind_eq_some_iff.1 hpush
  have hopened : (Level.opened (some (b.groups + 1))).Like (.opened (some (b'.groups + 1))) :=
    ⟨.nil, .nil⟩
  obtain ⟨b₂', hrun', hadds⟩ := @hinner _
    ⟨.opened (some (b'.groups + 1)), b'.current :: b'.outer, b'.groups + 1, b'.names⟩ _ hopened hrun
  -- Both groups are finished with numbers of their own, which only differ from zero.
  have hfinish : b₂.current.finish.tree.Like b₂'.current.finish.tree := by
    rw [Level.finish, Level.finish, hadds.number, hadds.number']
    exact hadds.like.content.groups (Nat.succ_pos _) (Nat.succ_pos _)
  rw [hclose b₂ _ _ hadds.outer] at hpush
  obtain rfl := Option.some.inj hpush
  refine ⟨{ b₂' with
    current := b'.current.add (.tree b₂'.current.finish), outer := b'.outer },
    b₂.current.finish, b₂'.current.finish, ?_, hfinish, rfl, rfl, rfl, rfl⟩
  rw [hopen, hrun', Option.bind_some, hclose b₂' _ _ hadds.outer']

/-- Balanced lexemes add the same wherever the innermost group stands, but for the numbers of
groups. -/
lemma Balanced.foldlM_push {lexemes : List Lexeme} (h : Balanced lexemes)
    (hpush : lexemes.foldlM Building.push b = some b₁) :
    ∃ b₁', lexemes.foldlM Building.push b' = some b₁' ∧ Adds b b' b₁ b₁' := by
  induction h generalizing b b' b₁ with
  | nil =>
      obtain rfl := Option.some.inj hpush
      exact ⟨_, rfl, hlike, rfl, rfl, rfl, rfl⟩
  | cons hflat _ ih =>
      rw [List.foldlM_cons] at hpush
      obtain ⟨b₂, hfirst, hpush⟩ := Option.bind_eq_some_iff.1 hpush
      obtain ⟨b₂', hfirst', hadds⟩ := push_flat hlike hflat hfirst
      obtain ⟨b₁', hrest', hadds'⟩ := ih hadds.like hpush
      refine ⟨b₁', ?_, hadds.trans hadds'⟩
      rw [List.foldlM_cons, hfirst']
      exact hrest'
  | @group inner lexemes _ _ ihinner ih =>
      -- A group is pushed up to where it is closed, and then the lexemes behind it.
      have hsplit : ∀ b : Building,
          (.openGroup none :: (inner ++ .close :: lexemes)).foldlM Building.push b =
            ((.openGroup none :: (inner ++ [.close])).foldlM Building.push b).bind
              (lexemes.foldlM Building.push ·) := fun b => by
        have happend : .openGroup none :: (inner ++ .close :: lexemes) =
            (.openGroup none :: (inner ++ [.close])) ++ lexemes := by simp
        rw [happend, List.foldlM_append]
        rfl
      rw [hsplit] at hpush
      obtain ⟨b₂, hgroup, hpush⟩ := Option.bind_eq_some_iff.1 hpush
      obtain ⟨b₂', n, n', hgroup', hn, hcurrent, houter, hcurrent', houter'⟩ :=
        push_group (fun hlike hpush => ihinner hlike hpush) hgroup b'
      have hadds : Adds b b' b₂ b₂' := by
        refine ⟨?_, ?_, ?_, houter, houter'⟩
        · rw [hcurrent, hcurrent']
          exact hlike.add (.tree hn)
        · rw [hcurrent]
          rfl
        · rw [hcurrent']
          rfl
      obtain ⟨b₁', hrest', hadds'⟩ := ih hadds.like hpush
      exact ⟨b₁', by rw [hsplit, hgroup', Option.bind_some, hrest'], hadds.trans hadds'⟩

/-! ### Repeated parts -/

omit hlike

/-- Lexemes that write a single part of a sequence. -/
inductive Single : List Lexeme → Prop
  | set (s : CharSet) : Single [.set s]
  | look (l : Look) : Single [.look l]
  | group {inner : List Lexeme} (h : Balanced inner) :
      Single (.openGroup none :: (inner ++ [.close]))

/-- A single part is added wherever it is read. -/
lemma Single.foldlM_push {lexemes : List Lexeme} (h : Single lexemes) {b b₁ : Building}
    (hpush : lexemes.foldlM Building.push b = some b₁) (b' : Building) :
    ∃ b₁' n n', lexemes.foldlM Building.push b' = some b₁' ∧ n.tree.Like n'.tree ∧
      b₁.current = b.current.add (.tree n) ∧ b₁.outer = b.outer ∧
      b₁'.current = b'.current.add (.tree n') ∧ b₁'.outer = b'.outer := by
  cases h with
  | set s =>
      obtain rfl := Option.some.inj hpush
      exact ⟨_, ⟨.set s, 0⟩, ⟨.set s, 0⟩, rfl, ⟨rfl, trivial, trivial⟩, rfl, rfl, rfl, rfl⟩
  | look l =>
      obtain rfl := Option.some.inj hpush
      exact ⟨_, ⟨.look l, 0⟩, ⟨.look l, 0⟩, rfl, ⟨rfl, trivial, trivial⟩, rfl, rfl, rfl, rfl⟩
  | group hinner =>
      exact push_group (fun hlike hpush => hinner.foldlM_push hlike hpush) hpush b'

/-- The expression that lexemes write as a single part, without its groups. -/
def part? (lexemes : List Lexeme) : Option Tree :=
  (lexemes.foldlM Building.push .start).bind fun b =>
    (b.current.pieces.head?.bind Piece.tree?).map Tree.bare

/-- Lexemes write a single part wherever they are read, which is an expression but for its groups,
none of which is the whole. -/
def Writes (lexemes : List Lexeme) (bare : Option Tree) : Prop :=
  ∀ b b₁, lexemes.foldlM Building.push b = some b₁ →
    ∃ n : Nested, b₁.current = b.current.add (.tree n) ∧ b₁.outer = b.outer ∧
      bare = some n.tree.bare ∧ n.tree.Inner

/-- A single part is the same wherever it is read. -/
lemma Single.writes {lexemes : List Lexeme} (h : Single lexemes) :
    Writes lexemes (part? lexemes) := by
  intro b b₁ hpush
  obtain ⟨b₁', n, n', hpush', hn, hcurrent, houter, hcurrent', -⟩ := h.foldlM_push hpush .start
  refine ⟨n, hcurrent, houter, ?_, hn.left⟩
  rw [part?, hpush', Option.bind_some, hcurrent', ← hn.bare]
  rfl

namespace Writes

variable {lexemes : List Lexeme} {bare : Option Tree} (h : Writes lexemes bare)

include h

/-- A repetition applies to the part before it. -/
lemma loop (least : ℕ) (most : Option ℕ) (greedy : Bool) :
    Writes (lexemes ++ [.loop least most greedy])
      (bare.map fun t => Tree.loopOf t least most greedy) := by
  intro b b₁ hpush
  rw [List.foldlM_append] at hpush
  obtain ⟨b₂, hpush₂, hloop⟩ := Option.bind_eq_some_iff.1 hpush
  obtain ⟨n, hcurrent, houter, rfl, hinner⟩ := h b b₂ hpush₂
  obtain ⟨current, outer, groups, names⟩ := b₂
  obtain rfl : current = _ := hcurrent
  obtain rfl : outer = _ := houter
  obtain rfl := Option.some.inj hloop
  refine ⟨⟨Tree.loopOf n.tree least most greedy, n.depth + 1⟩, rfl, rfl, ?_,
    hinner.loopOf least most greedy⟩
  rw [Tree.bare_loopOf, Option.map_some]

/-- A group is a part that differs from what stands in it in nothing but itself. -/
lemma group : Writes (.openGroup none :: (lexemes ++ [.close])) bare := by
  intro b b₁ hpush
  have hopen : b.push (.openGroup none) = some ⟨.opened (some (b.groups + 1)),
      b.current :: b.outer, b.groups + 1, b.names⟩ := rfl
  rw [List.foldlM_cons, hopen, Option.bind_eq_bind, Option.bind_some, List.foldlM_append] at hpush
  obtain ⟨b₂, hpush₂, hclose⟩ := Option.bind_eq_some_iff.1 hpush
  obtain ⟨n, hcurrent, houter, rfl, hinner⟩ := h _ b₂ hpush₂
  obtain ⟨current, outer, groups, names⟩ := b₂
  obtain rfl : current = _ := hcurrent
  obtain rfl : outer = _ := houter
  obtain rfl := Option.some.inj hclose
  exact ⟨Level.finish ⟨some (b.groups + 1), [], [.tree n]⟩, rfl, rfl, rfl, Nat.succ_pos _, hinner⟩

end Writes

end Lexeme

/-! ### Flags before a pattern -/

/-- The flags with which a pattern is read behind those that options write. -/
def Options.read (o : Options) : Flags := ⟨o.ignoreCase, o.multiLine, true, false, false⟩

/-- The lexemes of the flags that options write. -/
def Options.lexemes (o : Options) : List Lexeme :=
  .setFlags ⟨false, false, true, false, false⟩ ::
    ((if o.ignoreCase then [.setFlags ⟨true, false, true, false, false⟩] else []) ++
      (if o.multiLine then [.setFlags ⟨o.ignoreCase, true, true, false, false⟩] else []))

/-- The flags before a pattern are read by themselves. -/
lemma Lexeme.ofText?_flags (o : Options) (t : Text) :
    ofText? .none (o.flags ++ t) = (readAll 0 o.read [] t).map (o.lexemes ++ ·) := by
  have hlines (flags : Flags) (hverbose : flags.verbose = false) :
      readAll 0 flags [] (Text.ofString "(?m)" ++ t) =
        (readAll 0 { flags with multiLine := true } [] t).map
          (.setFlags { flags with multiLine := true } :: ·) := by
    obtain ⟨ignoreCase, multiLine, dotAll, swapGreed, verbose⟩ := flags
    obtain rfl : verbose = false := hverbose
    rfl
  have hcase (rest : Text) : readAll 0 ⟨false, false, true, false, false⟩ []
      (Text.ofString "(?i)" ++ rest) =
        (readAll 0 ⟨true, false, true, false, false⟩ [] rest).map
          (.setFlags ⟨true, false, true, false, false⟩ :: ·) := rfl
  have hdot (rest : Text) : ofText? .none (Text.ofString "(?s)" ++ rest) =
      (readAll 0 ⟨false, false, true, false, false⟩ [] rest).map
        (.setFlags ⟨false, false, true, false, false⟩ :: ·) := rfl
  obtain ⟨extended, ignoreCase, multiLine⟩ := o
  rw [Options.flags, List.append_assoc, List.append_assoc, hdot]
  cases ignoreCase <;> cases multiLine <;>
    simp [hcase, hlines, Options.read, Options.lexemes, Function.comp_def]

/-- They are no parts of the expression. -/
lemma Options.foldlM_lexemes (o : Options) :
    ∃ k, o.lexemes.foldlM Building.push .start =
      some ⟨⟨none, [], List.replicate (k + 1) .flags⟩, [], 0, []⟩ := by
  obtain ⟨extended, ignoreCase, multiLine⟩ := o
  cases ignoreCase <;> cases multiLine
  · exact ⟨0, rfl⟩
  · exact ⟨1, rfl⟩
  · exact ⟨1, rfl⟩
  · exact ⟨2, rfl⟩

end StreamEditor.Regex
