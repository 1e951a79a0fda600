import StreamEditor.Proofs.Program.Parsed

/-!
The commands of a program as a tree, in which a block holds its commands.

* `Body`: a sequence of commands and blocks; `Body.ofCommands?` recovers it from the braces alone.
* `Body.Lies`: a body lies at consecutive places of the flat commands, each block ending where it
  says; such a body is the one that the braces give (`Body.Lies.ofCommands?_eq`).
* `Program.WellFormed.exists_lies`: the commands of a well-formed program are a body.
* `Program.selection_blockEnd`: a closing brace has no addresses; `Program.Unbranched`: there are
  no jumps but over blocks.
-/

namespace StreamEditor

variable {library : Regex.Library}

/-- A sequence of commands, in which a block holds the commands between its braces. -/
inductive Body where
  | done
  | command (c : Command) (rest : Body)
  /-- The block that `c` opens, and what follows its closing brace. -/
  | block (c : Command) (inner rest : Body)

namespace Body

/-- The bodies that commands begin or go on with, the innermost first: a closing brace ends one
more than those that go on after it, and an opening brace takes up the innermost. -/
def levels? : List Command → Option (List Body)
  | [] => some [.done]
  | c :: rest =>
      match c.action, levels? rest with
      | .blockEnd, some levels => some (.done :: levels)
      | .block _, some (inner :: outer :: levels) => some (.block c inner outer :: levels)
      | .block _, _ => none
      | _, some (inner :: levels) => some (.command c inner :: levels)
      | _, _ => none

/-- The body that commands form, if their braces match. -/
def ofCommands? (commands : List Command) : Option Body :=
  match levels? commands with
  | some [body] => some body
  | _ => none

/-- A body lies in the commands from number `i` up to number `j`. -/
inductive Lies (commands : List Command) : ℕ → Body → ℕ → Prop
  | done {i : ℕ} : Lies commands i .done i
  | command {i j : ℕ} {c : Command} {rest : Body} : commands[i]? = some c →
      (∀ stop, c.action ≠ .block stop) → c.action ≠ .blockEnd →
      Lies commands (i + 1) rest j → Lies commands i (.command c rest) j
  | block {i j stop : ℕ} {c : Command} {inner rest : Body} : commands[i]? = some c →
      c.action = .block stop → Lies commands (i + 1) inner stop → Closes commands stop →
      Lies commands (stop + 1) rest j → Lies commands i (.block c inner rest) j

section Levels

variable {c : Command} {rest : List Command} {inner outer : Body} {levels : List Body}

lemma levels?_blockEnd (hc : c.action = .blockEnd) (h : levels? rest = some levels) :
    levels? (c :: rest) = some (.done :: levels) := by
  rw [levels?, hc, h]

lemma levels?_block {stop : ℕ} (hc : c.action = .block stop)
    (h : levels? rest = some (inner :: outer :: levels)) :
    levels? (c :: rest) = some (.block c inner outer :: levels) := by
  rw [levels?, hc, h]

lemma levels?_command (hblock : ∀ stop, c.action ≠ .block stop) (hend : c.action ≠ .blockEnd)
    (h : levels? rest = some (inner :: levels)) :
    levels? (c :: rest) = some (.command c inner :: levels) := by
  rw [levels?, h]
  cases hc : c.action with
  | block stop => exact absurd hc (hblock stop)
  | blockEnd => exact absurd hc hend
  | _ => rfl

end Levels

namespace Lies

variable {commands : List Command} {i j : ℕ} {body : Body} {levels : List Body}

/-- From where a body begins, the braces give the body, if none is left open where it ends. -/
lemma levels?_eq (h : Lies commands i body j)
    (hend : levels? (commands.drop j) = some (.done :: levels)) :
    levels? (commands.drop i) = some (body :: levels) := by
  induction h generalizing levels with
  | done => exact hend
  | command hc hblock hclose _ ih =>
      rw [List.drop_eq_getElem?_toList_append, hc]
      exact levels?_command hblock hclose (ih hend)
  | block hc hblock _ hclose _ ihinner ihrest =>
      obtain ⟨d, hd, hdend⟩ := hclose
      rw [List.drop_eq_getElem?_toList_append, hc]
      refine levels?_block hblock (ihinner ?_)
      rw [List.drop_eq_getElem?_toList_append, hd]
      exact levels?_blockEnd hdend (ihrest hend)

/-- The body of all commands is what their braces give. -/
lemma ofCommands?_eq (h : Lies commands 0 body commands.length) :
    ofCommands? commands = some body := by
  have hlevels : levels? commands = some [body] := h.levels?_eq (by rw [List.drop_length]; rfl)
  rw [ofCommands?, hlevels]

end Lies

end Body

/-! ### Commands that are nested -/

/-- The blocks that begin from number `i` on and before number `j` end there too, and no others
do. -/
structure Balanced (commands : List Command) (i j : ℕ) : Prop where
  le_length : j ≤ commands.length
  stop_lt : ∀ k stop, i ≤ k → k < j → Opens commands k stop → stop < j
  opened : ∀ stop, i ≤ stop → stop < j → Closes commands stop → ∃ k, i ≤ k ∧ Opens commands k stop

lemma Opens.unique {commands : List Command} {i s t : ℕ} (hs : Opens commands i s)
    (ht : Opens commands i t) : s = t := by
  obtain ⟨c, hc, hcs⟩ := hs
  obtain ⟨d, hd, hdt⟩ := ht
  rw [hc] at hd
  cases hd
  rw [hcs] at hdt
  cases hdt
  rfl

/-- What closes a block opens none. -/
lemma Closes.not_opens {commands : List Command} {i s : ℕ} (h : Closes commands i) :
    ¬Opens commands i s := by
  rintro ⟨c, hc, hcs⟩
  obtain ⟨d, hd, hend⟩ := h
  rw [hc] at hd
  cases hd
  rw [hcs] at hend
  cases hend

namespace Program.WellFormed

variable {p : Program} {i j stop : ℕ}

/-- All commands together are balanced. -/
lemma balanced (hp : p.WellFormed) : Balanced p.commands 0 p.commands.length where
  le_length := le_rfl
  stop_lt k stop _ _ hk := (hp.opens k stop hk).2.lt_length
  opened stop _ _ hstop := by
    obtain ⟨k, hk, -⟩ := hp.closes stop hstop
    exact ⟨k, Nat.zero_le k, hk⟩

/-- A command that is no brace leaves the rest balanced. -/
lemma balanced_succ (h : Balanced p.commands i j) (hi : ∀ stop, ¬Opens p.commands i stop) :
    Balanced p.commands (i + 1) j where
  le_length := h.le_length
  stop_lt k stop hk := h.stop_lt k stop (by omega)
  opened stop hs hlt hclose := by
    obtain ⟨k, hk, ho⟩ := h.opened stop (by omega) hlt hclose
    have hne : k ≠ i := fun he => hi stop (he ▸ ho)
    exact ⟨k, by omega, ho⟩

/-- What lies between the braces of a block is balanced. -/
lemma balanced_inner (hp : p.WellFormed) (h : Balanced p.commands i j) (hij : i < j)
    (hi : Opens p.commands i stop) : Balanced p.commands (i + 1) stop where
  le_length := ((h.stop_lt i stop le_rfl hij hi).trans_le h.le_length).le
  stop_lt k t hk hlt ho := by
    obtain hs | ht := hp.nested i k stop t hi ho (by omega)
    · omega
    · exact ht
  opened t ht hlt hclose := by
    have hj := h.stop_lt i stop le_rfl hij hi
    obtain ⟨k, hk, ho⟩ := h.opened t (by omega) (by omega) hclose
    have hne : k ≠ i := by
      rintro rfl
      exact absurd (hi.unique ho) (by omega)
    exact ⟨k, by omega, ho⟩

/-- What follows a block is balanced. -/
lemma balanced_rest (hp : p.WellFormed) (h : Balanced p.commands i j) (hij : i < j)
    (hi : Opens p.commands i stop) : Balanced p.commands (stop + 1) j where
  le_length := h.le_length
  stop_lt k t hk hlt := h.stop_lt k t (by have := (hp.opens i stop hi).1; omega) hlt
  opened t ht hlt hclose := by
    have his := hp.opens i stop hi
    obtain ⟨k, hk, ho⟩ := h.opened t (by omega) hlt hclose
    have hki : k ≠ i := by
      rintro rfl
      exact absurd (hi.unique ho) (by omega)
    have hks : k ≠ stop := by
      rintro rfl
      exact his.2.not_opens ho
    -- a block that begins within this one ends within it, too
    obtain hs | ht' := hp.nested i k stop t hi ho (by omega)
    · exact ⟨k, by omega, ho⟩
    · omega

/-- Balanced commands are a body. -/
lemma exists_lies_of_balanced (hp : p.WellFormed) (i j : ℕ) (h : Balanced p.commands i j)
    (hij : i ≤ j) : ∃ body, Body.Lies p.commands i body j := by
  obtain rfl | hlt := hij.eq_or_lt
  · exact ⟨.done, .done⟩
  · obtain ⟨c, hc⟩ : ∃ c, p.commands[i]? = some c :=
      ⟨_, List.getElem?_eq_getElem (hlt.trans_le h.le_length)⟩
    have hclose : ¬Closes p.commands i := fun hclose => by
      obtain ⟨k, hk, ho⟩ := h.opened i le_rfl hlt hclose
      have := (hp.opens k i ho).1
      omega
    by_cases hopen : ∃ stop, Opens p.commands i stop
    · obtain ⟨stop, hi⟩ := hopen
      have his := hp.opens i stop hi
      have hsj := h.stop_lt i stop le_rfl hlt hi
      obtain ⟨inner, hinner⟩ := exists_lies_of_balanced hp _ _ (balanced_inner hp h hlt hi) his.1
      obtain ⟨rest, hrest⟩ := exists_lies_of_balanced hp _ _ (balanced_rest hp h hlt hi) hsj
      obtain ⟨c, hc, hblock⟩ := hi
      exact ⟨.block c inner rest, .block hc hblock hinner his.2 hrest⟩
    · rw [not_exists] at hopen
      obtain ⟨rest, hrest⟩ := exists_lies_of_balanced hp _ _ (balanced_succ h hopen) hlt
      refine ⟨.command c rest, .command hc (fun stop hs => ?_) (fun he => ?_) hrest⟩
      · exact hopen stop ⟨c, hc, hs⟩
      · exact hclose ⟨c, hc, he⟩
termination_by j - i

/-- The commands of a well-formed program are a body. -/
lemma exists_lies (hp : p.WellFormed) : ∃ body, Body.Lies p.commands 0 body p.commands.length :=
  exists_lies_of_balanced hp _ _ (balanced hp) (Nat.zero_le _)

end Program.WellFormed

/-! ### Braces and branches -/

/-- True for branches, tests among them. -/
def Action.isBranch : Action → Bool
  | .branch _ _ _ => true
  | _ => false

/-- In a program without branches nothing is skipped but blocks. -/
def Program.Unbranched (p : Program) : Prop := ∀ c ∈ p.commands, c.action.isBranch = false

/-- Where a statement or a closing brace is added, closing braces still have no addresses. -/
lemma Parser.Draft.Step.selection_blockEnd {d d' : Draft} (hstep : d.Step d')
    (h : ∀ c ∈ d.commands, c.action = .blockEnd → c.selection = .all) :
    ∀ c ∈ d'.commands, c.action = .blockEnd → c.selection = .all := by
  cases hstep with
  | command _ hread _ _ =>
      rw [List.forall_mem_append]
      refine ⟨h, ?_⟩
      rintro c hc hend
      rw [List.mem_singleton.1 hc] at hend
      rw [hend] at hread
      exact hread.elim
  | openBlock _ hblock _ =>
      rw [List.forall_mem_append]
      exact ⟨h, by simp [hblock]⟩
  | closeBlock _ hall hend =>
      rw [List.forall_mem_append, forall_mem_modify_closed fun c => by
        rw [selection_closed, action_closed_eq (by simp)]]
      exact ⟨h, by simp [hall]⟩

/-- In a program that is read from a script, closing braces have no addresses. -/
lemma Program.selection_blockEnd {script : Script} {options : Options} {p : Program}
    (h : Program.parse script options = .ok p) :
    ∀ c ∈ p.commands, c.action = .blockEnd → c.selection = .all := by
  obtain ⟨q, labels, hrun, -, -, rfl⟩ := parse_eq_ok h
  obtain ⟨hsteps, -⟩ := Parser.yields_wholeScript _ _ _ hrun
  have hq : ∀ c ∈ q.draft.commands, c.action = .blockEnd → c.selection = .all := by
    generalize q.draft = d at hsteps
    induction hsteps with
    | refl => exact fun c hc => nomatch hc
    | tail _ hstep ih => exact hstep.selection_blockEnd ih
  refine List.forall_mem_map.2 fun c hc hend => ?_
  rw [selection_resolve]
  exact hq c hc ((action_resolve_eq (by simp)).1 hend)

end StreamEditor
