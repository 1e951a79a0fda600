import StreamEditor.Proofs.Parser.Fuel
import StreamEditor.Proofs.Parser.Settled
import StreamEditor.Proofs.Scanner.Spent

/-!
Reading a script comes to an end.

* `Parser.Draft.BlocksPlaced`: the blocks that are open are commands read before.
* `Parser.Unhurried`: a number of turns that suffices for the rest of the script cuts nothing short,
  and the loop stops of itself. `Parser.PastFlags`: at a token that is no flag, or behind a file.
* `Parser.reading_ends`: the loop ends for each script, after at most two turns for each character.
-/

namespace StreamEditor.Parser

variable {library : Regex.Library}

open Setting (turn)

/-! ### The blocks that are open -/

/-- The blocks that are open begin at commands that have been read. -/
def Draft.BlocksPlaced (d : Draft) : Prop := ∀ block ∈ d.openBlocks, block < d.commands.length

lemma Draft.BlocksPlaced.step {d d' : Draft} (h : d.BlocksPlaced) (hstep : d.Step d') :
    d'.BlocksPlaced := by
  have hmore (c : Command) : ∀ block ∈ d.openBlocks, block < (d.commands ++ [c]).length := by
    intro block hblock
    rw [List.length_append]
    exact Nat.lt_add_right _ (h block hblock)
  cases hstep with
  | command => exact hmore _
  | openBlock =>
      refine List.forall_mem_cons.2 ⟨?_, hmore _⟩
      rw [List.length_append]
      exact Nat.lt_succ_self _
  | closeBlock hopen =>
      intro block hblock
      rw [List.length_append, List.length_modify]
      exact Nat.lt_add_right _ (h block (hopen ▸ List.mem_cons_of_mem _ hblock))

lemma Draft.BlocksPlaced.steps {d d' : Draft} (h : d.BlocksPlaced)
    (hsteps : Relation.ReflTransGen Draft.Step d d') : d'.BlocksPlaced := by
  induction hsteps with
  | refl => exact h
  | tail _ hstep ih => exact ih.step hstep

/-- A turn takes a step, or none. -/
lemma yields_turn (kind : Token.Kind) : Yields (turn kind) fun d _ d' =>
    Relation.ReflTransGen Draft.Step d d' := by
  unfold turn
  split
  · exact keeps_advance.mono fun _ _ _ he => he ▸ .refl
  · exact keeps_advance.mono fun _ _ _ he => he ▸ .refl
  · exact yields_closeBlock.mono fun _ _ _ hstep => .single hstep
  · exact yields_statement.mono fun _ _ _ hstep => .single hstep

/-- So it is all along. -/
lemma blocksPlaced_of_turns {p q : Parser} (h : p.draft.BlocksPlaced)
    (hturns : Relation.ReflTransGen Turns p q) : q.draft.BlocksPlaced := by
  induction hturns with
  | refl => exact h
  | tail _ hturn ih => exact ih.steps (yields_turn _ _ _ _ hturn.2)

/-! ### The loops over flags -/

/-- Once the number of turns suffices for the rest of the script, more of them change nothing, and
the loop has stopped of itself wherever it succeeds. -/
structure Unhurried {α : Type} (loop : ℕ → Parse α) (Stops : α → Parser → Prop) : Prop where
  steady : ∀ p fuel, p.bound ≤ fuel → (loop fuel).run p = (loop p.bound).run p
  stops : ∀ p fuel, p.bound ≤ fuel → Gives (loop fuel) p Stops

/-- The flags of a substitution have ended: the current token is none, or a file was named, behind
which there is no other flag. -/
def PastFlags (flags : SubstitutionFlags) (p : Parser) : Prop :=
  p.token.kind ≠ .number ∧ p.token.kind ≠ .word ∨ flags.write.isSome

section Flags

variable {p : Parser} {fuel fuel' : ℕ}

lemma run_bind_congr_right {α β : Type} {m : Parse α} {f g : α → Parse β}
    (h : ∀ a q, m.run p = .ok (a, q) → (f a).run q = (g a).run q) :
    (m >>= f).run p = (m >>= g).run p := by
  rw [run_bind, run_bind]
  cases hm : m.run p with
  | error failure => rfl
  | ok r => exact h r.1 r.2 hm

lemma run_patternFlags_eq (hfuel : p.left ≤ fuel) (hfuel' : p.left ≤ fuel')
    (options : Regex.Options) :
    (patternFlags fuel options).run p = (patternFlags fuel' options).run p := by
  induction fuel generalizing fuel' p options with
  | zero =>
      have heof : p.token.kind = .eof := eof_of_left hfuel
      rw [Setting.patternFlags_of_ne _ _ (by simp [heof]),
        Setting.patternFlags_of_ne _ _ (by simp [heof])]
  | succ fuel ih =>
      by_cases hword : p.token.kind = .word
      · have hlt := left_advanced (p := p) (by simp [hword])
        obtain ⟨fuel', rfl⟩ : ∃ k, fuel' = k + 1 := ⟨fuel' - 1, by omega⟩
        rw [patternFlags, patternFlags]
        refine run_bind_congr_right fun b q hq => ?_
        cases hq
        rw [decide_eq_true hword]
        exact ih (by omega) (by omega) _
      · rw [Setting.patternFlags_of_ne _ _ hword, Setting.patternFlags_of_ne _ _ hword]

lemma run_substitutionFlags_eq (hfuel : p.left ≤ fuel) (hfuel' : p.left ≤ fuel')
    (place : Location) (flags : SubstitutionFlags) :
    (substitutionFlags place fuel flags).run p = (substitutionFlags place fuel' flags).run p := by
  induction fuel generalizing fuel' p flags with
  | zero =>
      have heof : p.token.kind = .eof := eof_of_left hfuel
      rw [Setting.substitutionFlags_of_ne _ _ (by simp [heof]) (by simp [heof]),
        Setting.substitutionFlags_of_ne _ _ (by simp [heof]) (by simp [heof])]
  | succ fuel ih =>
      by_cases hflag : p.token.kind = .number ∨ p.token.kind = .word
      · have hlt := left_advanced (p := p) (by rcases hflag with h | h <;> simp [h])
        obtain ⟨fuel', rfl⟩ : ∃ k, fuel' = k + 1 := ⟨fuel' - 1, by omega⟩
        -- A flag is a token, and what is left of them bounds both units of fuel.
        have hrest (flags : SubstitutionFlags) :
            (substitutionFlags place fuel flags).run p.advanced =
              (substitutionFlags place fuel' flags).run p.advanced :=
          ih (by omega) (by omega) flags
        refine (run_get_bind _).trans (Eq.trans ?_ (run_get_bind _).symm)
        rcases hflag with hkind | hkind
        · rw [hkind]
          dsimp only
          split
          · rfl
          · refine run_bind_congr_right fun k q hk => ?_
            obtain rfl : q = p := by
              rw [number, run_get_bind] at hk
              dsimp only at hk
              split at hk <;> cases hk
              rfl
            split
            · rfl
            · exact hrest _
        · rw [hkind]
          dsimp only
          refine run_bind_congr_right fun letter q hq => ?_
          cases hq
          split
          · rfl
          · split
            · exact hrest _
            · rfl
      · obtain ⟨hnumber, hword⟩ := not_or.1 hflag
        rw [Setting.substitutionFlags_of_ne _ _ hnumber hword,
          Setting.substitutionFlags_of_ne _ _ hnumber hword]

/-- Behind the flags of an address there is none. -/
lemma gives_patternFlags (hfuel : p.left ≤ fuel) (options : Regex.Options) :
    Gives (patternFlags fuel options) p fun _ q => q.token.kind ≠ .word := by
  induction fuel generalizing p options with
  | zero =>
      have heof : p.token.kind = .eof := eof_of_left hfuel
      exact .pure (by simp [heof])
  | succ fuel ih =>
      refine .ifAt (fun hword => ?_) fun hword => .pure hword
      have hlt := left_advanced (p := p) (by simp [hword])
      exact .currentChar (.advance (ih (by omega) _))

lemma gives_substitutionFlags (hfuel : p.left ≤ fuel) (place : Location)
    (flags : SubstitutionFlags) : Gives (substitutionFlags place fuel flags) p PastFlags := by
  induction fuel generalizing p flags with
  | zero =>
      have heof : p.token.kind = .eof := eof_of_left hfuel
      exact .pure (.inl (by simp [heof]))
  | succ fuel ih =>
      refine .get ?_
      split
      · rename_i hnumber
        have hlt := left_advanced (p := p) (by simp [hnumber])
        refine .ite (fun _ => gives_complain _) fun _ => .number fun n _ => ?_
        exact .ite (fun _ => gives_complain _) fun _ => .advance (ih (by omega) _)
      · rename_i hword
        have hlt := left_advanced (p := p) (by simp [hword])
        refine .currentChar (.ite (fun _ => ?_) fun _ => ?_)
        · have hany {α : Type} (m : Parse α) (q : Parser) : Gives m q fun _ _ => True :=
            fun _ _ _ => trivial
          refine (hany fileName p).bind fun name q _ => (hany (target name place) q).bind ?_
          exact fun t r _ => .pure (.inr rfl)
        · split
          · exact .advance (ih (by omega) _)
          · exact gives_complain _
      · rename_i hnumber hword
        exact .pure (.inl ⟨hnumber, hword⟩)

lemma unhurried_patternFlags (options : Regex.Options) :
    Unhurried (patternFlags · options) fun _ q => q.token.kind ≠ .word where
  steady p _ hfuel := run_patternFlags_eq ((left_le_bound p).trans hfuel) (left_le_bound p) options
  stops p _ hfuel := gives_patternFlags ((left_le_bound p).trans hfuel) options

lemma unhurried_substitutionFlags (place : Location) (flags : SubstitutionFlags) :
    Unhurried (substitutionFlags place · flags) PastFlags where
  steady p _ hfuel :=
    run_substitutionFlags_eq ((left_le_bound p).trans hfuel) (left_le_bound p) place flags
  stops p _ hfuel := gives_substitutionFlags ((left_le_bound p).trans hfuel) place flags

end Flags

/-! ### Whole scripts -/

lemma left_start (script : Script) (o : Options) : (start script o).left ≤ 2 * script.text.length :=
  left_advanced_le (unread script o)

/-- Reading comes to an end, whatever the script. The scanner alone comes to the end after no more
than two tokens for each character, and stays there. The loop over statements ends, at the end of
the script or with a fault, after no more turns than that and than it is given; all along, the
blocks that are open are commands read before. The loops over flags are never cut short: where they
succeed they stop at a token that is no flag, or behind the name of a file. The scanner never reads
a character beyond the end of the text. -/
theorem reading_ends (script : Script) (o : Options) :
    (∃ k ≤ 2 * script.text.length,
      ∀ i, ((Scanner.start script.text).nth i).kind = .eof ↔ k ≤ i) ∧
    (∃ turns r, Loops turns (start script o) r ∧ turns ≤ 2 * script.text.length ∧
      turns ≤ (start script o).bound ∧
      (∀ q, r = .ok ((), q) → q.token.kind = .eof) ∧
      ∀ fuel, turns ≤ fuel → (statements fuel).run (start script o) = r) ∧
    (∀ q, Relation.ReflTransGen Turns (start script o) q →
      ∀ block ∈ q.openBlocks, block < q.commands.length) ∧
    (∀ options, Unhurried (patternFlags · options) fun _ q => q.token.kind ≠ .word) ∧
    (∀ place flags, Unhurried (substitutionFlags place · flags) PastFlags) ∧
    ∀ s : Scanner, s.next? = some s.next := by
  obtain ⟨turns, hturns, r, hloops⟩ := (Setting.stands_itself script o).loops
  refine ⟨Scanner.start_ends script.text, ⟨turns, r, hloops, ?_, ?_, ?_, ?_⟩, ?_,
    unhurried_patternFlags, unhurried_substitutionFlags, Scanner.next?_eq⟩
  · exact hturns.trans (left_start script o)
  · exact hturns.trans (left_le_bound _)
  · rintro q rfl
    exact hloops.eof
  · exact fun fuel hfuel => hloops.run_statements hfuel
  · exact fun q hq => blocksPlaced_of_turns (p := start script o) (fun _ h => by cases h) hq

end StreamEditor.Parser
