import StreamEditor.Proofs.Parser.Tandem
import StreamEditor.Proofs.Program.Joined

/-!
How many turns a script is given.

* `Setting.itself`: a script as a passage of itself.
* `Turns`, `Loops`: one turn of the loop over statements, and the whole loop, whose turns nothing
  bounds; it takes no more turns than what is left of the script.
* `Loops.run_statements`: a bound which is large enough makes no difference.
* `run_wholeScript_start`: so a script may be given any number of turns that suffices.
-/

namespace StreamEditor.Parser

variable {library : Regex.Library}

open Setting (turn run_statements_succ run_statements_of_eof)

namespace Setting

variable {script : Script} {o : Options} {n n' : ℕ} {p : Parser}

/-- A script as a passage of itself. -/
def itself (script : Script) (o : Options) : Setting where
  passage := ⟨[], script.text, [], by simp, by simp⟩
  own := script
  whole := script
  options := o
  own_text := rfl
  whole_text := (List.append_nil _).symm
  places := fun position _ _ => by rw [List.length_nil, Nat.zero_add]
  commands := []
  files := []
  ranges := 0

lemma stands_itself (script : Script) (o : Options) :
    (itself script o).Stands (start script o).left (start script o).left (start script o)
      (start script o) := by
  refine (itself script o).stands_start (unread script o) rfl rfl ?_
    ⟨⟨[], rfl, .nil⟩, rfl, rfl, rfl⟩
  simp [unread, itself, Passage.scanner, Passage.cursor, Scanner.start, Cursor.start]

/-- As long as a script goes on its reader stands in it. -/
lemma Stands.within_itself (h : (itself script o).Stands n n' p p)
    (hnewline : p.token.kind = .newline) :
    (itself script o).Within n n' p p ∧ p.scanner.pending = [] := by
  cases h with
  | within h tidy =>
      refine ⟨h, ?_⟩
      rwa [Passage.Tidy, hnewline] at tidy
  | done h hkind hprevious hscanner hdone => exact absurd rfl hdone.follows
  | lost h hlost =>
      cases hlost with
      | illegal hkind | pattern _ hkind | first _ hkind | second _ _ _ hkind =>
          rw [hnewline] at hkind
          cases hkind

end Setting

/-! ### The loop over statements -/

/-- A turn of the loop leads from one state to another. -/
def Turns [Regex.Library] (p q : Parser) : Prop :=
  p.token.kind ≠ .eof ∧ (turn p.token.kind).run p = .ok ((), q)

/-- The loop from a state on: how many turns it takes, and with what it ends. -/
inductive Loops [Regex.Library] : ℕ → Parser → Except Failure (Unit × Parser) → Prop
  | done {p : Parser} (heof : p.token.kind = .eof) : Loops 0 p (.ok ((), p))
  | failed {p : Parser} {failure : Failure} (heof : p.token.kind ≠ .eof)
      (hturn : (turn p.token.kind).run p = .error failure) : Loops 1 p (.error failure)
  | turned {p q : Parser} {n : ℕ} {r : Except Failure (Unit × Parser)} (hturn : Turns p q)
      (rest : Loops n q r) : Loops (n + 1) p r

section Loops

variable {p q : Parser} {n : ℕ} {r : Except Failure (Unit × Parser)}

/-- More turns than the loop takes change nothing. -/
lemma Loops.run_statements (h : Loops n p r) {fuel : ℕ} (hfuel : n ≤ fuel) :
    (statements fuel).run p = r := by
  induction h generalizing fuel with
  | done heof => exact run_statements_of_eof heof fuel
  | failed heof hturn =>
      obtain ⟨fuel, rfl⟩ := Nat.exists_eq_add_of_le' hfuel
      rw [run_statements_succ heof, run_bind, hturn]
      rfl
  | turned hturn rest ih =>
      obtain ⟨fuel, rfl⟩ : ∃ k, fuel = k + 1 := ⟨fuel - 1, by omega⟩
      rw [run_statements_succ hturn.1, run_bind_of_ok hturn.2]
      exact ih (Nat.le_of_succ_le_succ hfuel)

/-- A loop without a fault ends at the end of the script. -/
lemma Loops.eof (h : Loops n p (.ok ((), q))) : q.token.kind = .eof := by
  generalize hr : Except.ok ((), q) = r at h
  induction h with
  | done heof =>
      cases hr
      exact heof
  | failed => cases hr
  | turned _ _ ih => exact ih hr

/-- Each turn uses up some of the script. -/
lemma Setting.Stands.loops {script : Script} {o : Options} {n' : ℕ}
    (h : (itself script o).Stands n n' p p) : ∃ turns ≤ n, ∃ r, Loops turns p r := by
  induction n using Nat.strong_induction_on generalizing n' p with
  | _ n ih =>
    by_cases heof : p.token.kind = .eof
    · exact ⟨0, Nat.zero_le n, _, .done heof⟩
    · have hpos : 0 < n := (left_pos heof).trans_le h.agree.left
      cases hturn : (Setting.turn p.token.kind).run p with
      | error failure => exact ⟨1, hpos, _, .failed heof hturn⟩
      | ok result =>
          obtain ⟨⟨⟩, q⟩ := result
          obtain ⟨⟨⟩, q', hturn', hq⟩ := h.turn heof h.within_itself _ _ hturn
          rw [hturn] at hturn'
          cases hturn'
          obtain ⟨turns, hle, r, hloops⟩ := ih (n - 1) (Nat.sub_lt hpos Nat.one_pos) hq
          exact ⟨turns + 1, by omega, r, .turned ⟨heof, hturn⟩ hloops⟩

end Loops

/-- A script may be given any number of turns that suffices. -/
lemma run_wholeScript_start {script : Script} {o : Options} {fuel : ℕ}
    (hfuel : (start script o).bound ≤ fuel) : wholeScript.run (start script o) =
      (statements fuel >>= fun _ => allClosed).run (start script o) := by
  obtain ⟨turns, hturns, r, hloops⟩ := (Setting.stands_itself script o).loops
  have hbound := hturns.trans (left_le_bound (start script o))
  rw [wholeScript_eq]
  refine (run_get_bind _).trans ?_
  rw [run_bind, run_bind, hloops.run_statements hbound, hloops.run_statements (hbound.trans hfuel)]

end StreamEditor.Parser
