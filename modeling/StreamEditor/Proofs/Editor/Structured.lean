import StreamEditor.Proofs.Editor.Bounds
import StreamEditor.Proofs.Program.Body
import StreamEditor.Regex.Builtin

/-!
Running a program by the structure of its blocks.

* `Editor.runBody`: runs a body in order, entering a block where its command applies, up to the
  first command that ends the cycle; `Editor.cycle` is a whole cycle of it.
* `Editor.execute`: runs the flat commands by their numbers, as the steps of a run do
  (`Editor.exists_advance_eq`).
* `Editor.onward_eq_cycle`: without branches both come to the same; what carries the induction
  over the body is that the flat run reaches the number at which the body ends.
-/

namespace StreamEditor.Editor

/-! ### Bodies -/

/-- How the cycle ends with a command, if it does not go on after it. -/
def Flow.ending? : Flow → Option Flow
  | .goOn _ => none
  | flow => some flow

/-- Does what a command says; none if the cycle goes on after it. -/
def act (c : Command) : Edit (Option Flow) := Flow.ending? <$> perform c 0

/-- Runs `second` if the cycle goes on after `first`. -/
def andThen (first second : Edit (Option Flow)) : Edit (Option Flow) := do
  match ← first with
  | none => second
  | some flow => return some flow

/-- Runs a body in order; none if the cycle goes on after it. -/
def runBody : Body → Edit (Option Flow)
  | .done => return none
  | .command c rest => do
      if ← applies c then andThen (act c) (runBody rest)
      else runBody rest
  | .block c inner rest => do
      if ← applies c then andThen (runBody inner) (runBody rest)
      else runBody rest

/-- Runs a body as the commands of a cycle, which ends after them. -/
def cycle (body : Body) : Edit Flow := do return (← runBody body).getD (.endCycle true)

/-! ### Flat commands -/

/-- Runs the flat commands from the one with this number on, at most `fuel` of them, up to the
first that ends the cycle. -/
def execute (p : Program) : ℕ → ℕ → Edit Flow
  | 0, index => return .goOn index
  | fuel + 1, index =>
      match p.commands[index]? with
      | none => return .endCycle true
      | some c => do
          if ← applies c then
            match ← perform c (index + 1) with
            | .goOn next => execute p fuel next
            | flow => return flow
          else execute p fuel (skip c (index + 1))

section Execute

variable {p : Program} {fuel index : ℕ} {c : Command}

lemma execute_of_none (h : p.commands[index]? = none) :
    execute p (fuel + 1) index = pure (.endCycle true) := by
  rw [execute, h]

lemma execute_of_some (h : p.commands[index]? = some c) :
    execute p (fuel + 1) index =
      applies c >>= fun selected =>
        if selected then
          perform c (index + 1) >>= fun flow =>
            match flow with
            | .goOn next => execute p fuel next
            | flow => pure flow
        else execute p fuel (skip c (index + 1)) := by
  rw [execute, h]

/-- The steps of a run execute the flat commands, and then go on as their flow says. -/
lemma exists_advance_eq (p : Program) (fuel index : ℕ) (e : Editor) :
    ∃ k ≤ fuel, advance p k (.running index) e =
      goOnWith p 0 ((execute p fuel index >>= follow).run e) := by
  -- A command is one step, and takes one unit of fuel; the flow that ends the commands is followed
  -- within the last step.
  induction fuel generalizing index e with
  | zero => exact ⟨0, le_rfl, rfl⟩
  | succ fuel ih =>
    cases hc : p.commands[index]? with
    | none =>
        refine ⟨1, by omega, ?_⟩
        rw [execute_of_none hc, pure_bind, advance_succ, step_of_none hc]
    | some c =>
        rw [execute_of_some hc, bind_assoc]
        rcases happ : (applies c).run e with ⟨failure | selected, e₁⟩
        · refine ⟨1, by omega, ?_⟩
          rw [advance_succ, step_of_some hc, run_bind_of_error happ, run_bind_of_error happ]
        · cases selected with
          | false =>
              obtain ⟨k, hk, hrun⟩ := ih (skip c (index + 1)) e₁
              refine ⟨k + 1, by omega, ?_⟩
              rw [advance_succ, step_of_some hc, run_bind_of_ok happ, run_bind_of_ok happ]
              exact hrun
          | true =>
              rcases hperform : (perform c (index + 1)).run e₁ with ⟨failure | flow, e₂⟩
              · refine ⟨1, by omega, ?_⟩
                rw [advance_succ, step_of_some hc, run_bind_of_ok happ, run_bind_of_ok happ,
                  if_pos rfl, if_pos rfl, bind_assoc, run_bind_of_error hperform,
                  run_bind_of_error hperform]
              · cases flow with
                | goOn next =>
                    obtain ⟨k, hk, hrun⟩ := ih next e₂
                    refine ⟨k + 1, by omega, ?_⟩
                    rw [advance_succ, step_of_some hc, run_bind_of_ok happ, run_bind_of_ok happ,
                      if_pos rfl, if_pos rfl, bind_assoc, run_bind_of_ok hperform,
                      run_bind_of_ok hperform]
                    exact hrun
                | _ =>
                    refine ⟨1, by omega, ?_⟩
                    rw [advance_succ, step_of_some hc, run_bind_of_ok happ, run_bind_of_ok happ,
                      if_pos rfl, if_pos rfl, bind_assoc, run_bind_of_ok hperform,
                      run_bind_of_ok hperform]
                    rfl

end Execute

/-! ### Programs without branches -/

/-- A command that is no branch does the same wherever it stands. -/
lemma perform_eq_act {c : Command} (hc : c.action.isBranch = false) (following : ℕ) :
    perform c following = act c >>= fun ending => pure (ending.getD (.goOn following)) := by
  rw [act, bind_map_left, perform, perform, bind_assoc]
  refine bind_congr fun e => ?_
  have hgoOn : ∀ m : Edit PUnit, (m >>= fun _ => pure (.goOn following)) =
      (m >>= fun _ => pure (.goOn 0)) >>= fun flow =>
        pure ((Flow.ending? flow).getD (.goOn following)) := fun m => by
    rw [bind_assoc]
    rfl
  cases ha : c.action with
  | branch condition label target =>
      rw [ha] at hc
      cases hc
  | block | blockEnd | label | delete | quit => rfl
  | deleteFirstLine =>
      rcases Text.splitLine e.pattern with ⟨first, _ | rest⟩ <;> rfl
  | change text =>
      by_cases h : (c.negated || rangeEnded c e) = true
      · simp only [h, if_true, bind_assoc]
        rfl
      · simp only [h]
        rfl
  | next =>
      simp only [next, bind_assoc]
      refine bind_congr fun ended => ?_
      cases ended with
      | true => rfl
      | false =>
          simp only [Bool.false_eq_true, if_false, bind_assoc]
          refine bind_congr fun _ => bind_congr fun record => ?_
          cases record <;> rfl
  | appendNext =>
      simp only [appendNext, bind_assoc]
      refine bind_congr fun ended => ?_
      cases ended with
      | true => rfl
      | false =>
          simp only [Bool.false_eq_true, if_false, bind_assoc]
          refine bind_congr fun _ => bind_congr fun record => ?_
          cases record <;> rfl
  | appendFileLine name =>
      simp only [bind_assoc]
      refine bind_congr fun line => ?_
      cases line <;> rfl
  | printFirstLine =>
      rcases Text.splitLine e.pattern with ⟨first, _ | rest⟩ <;> exact hgoOn _
  | _ => exact hgoOn _

section Unbranched

variable {p : Program} {i j fuel index : ℕ} {c : Command} {body : Body}

/-- Runs the flat commands from the one with this number on. -/
def onward (p : Program) (index : ℕ) : Edit Flow := execute p (p.commands.length + 1) index

/-- Goes on with the command of this number, unless the cycle has ended. -/
def onwardAt (p : Program) (index : ℕ) (ending : Option Flow) : Edit Flow :=
  ending.elim (onward p index) pure

lemma execute_of_unbranched (hp : p.Unbranched) (hc : p.commands[index]? = some c) :
    execute p (fuel + 1) index =
      applies c >>= fun selected =>
        if selected then act c >>= fun ending => ending.elim (execute p fuel (index + 1)) pure
        else execute p fuel (skip c (index + 1)) := by
  rw [execute_of_some hc]
  refine bind_congr fun selected => ?_
  rw [perform_eq_act (hp c (List.mem_of_getElem? hc)), act, bind_map_left, bind_map_left,
    bind_assoc]
  congr 1
  refine bind_congr fun flow => ?_
  cases flow <;> rfl

/-- Nothing is skipped backwards. -/
lemma lt_skip (hp : p.WellFormed) (hc : p.commands[index]? = some c) :
    index < skip c (index + 1) := by
  rw [skip]
  split
  · rename_i stop ha
    exact (hp.opens index stop ⟨c, hc, ha⟩).1
  · exact Nat.lt_succ_self index

/-- Each command is run at most once, so no more fuel is needed than there are commands. -/
lemma execute_succ (hp : p.WellFormed) (hb : p.Unbranched)
    (h : p.commands.length ≤ fuel + index) :
    execute p (fuel + 2) index = execute p (fuel + 1) index := by
  induction fuel generalizing index with
  | zero =>
      have hnone : p.commands[index]? = none := List.getElem?_eq_none (by omega)
      rw [execute_of_none hnone, execute_of_none hnone]
  | succ fuel ih =>
      cases hc : p.commands[index]? with
      | none => rw [execute_of_none hc, execute_of_none hc]
      | some c =>
          have hskip := lt_skip hp hc
          have hskipped : p.commands.length ≤ fuel + skip c (index + 1) := by omega
          rw [execute_of_unbranched hb hc, execute_of_unbranched hb hc, ih (by omega),
            ih hskipped]

lemma onward_of_some (hp : p.WellFormed) (hb : p.Unbranched) (hc : p.commands[index]? = some c) :
    onward p index =
      applies c >>= fun selected =>
        if selected then act c >>= onwardAt p (index + 1)
        else onward p (skip c (index + 1)) := by
  have hlt : index < p.commands.length := (List.getElem?_eq_some_iff.1 hc).1
  have hskip := lt_skip hp hc
  have hfuel : ∀ next, index < next →
      execute p p.commands.length next = onward p next := fun next hnext => by
    obtain ⟨n, hn⟩ : ∃ n, p.commands.length = n + 1 := ⟨_, (Nat.sub_add_cancel (by omega)).symm⟩
    rw [onward, hn]
    exact (execute_succ hp hb (by omega)).symm
  rw [onward, execute_of_unbranched hb hc, hfuel _ (Nat.lt_succ_self index), hfuel _ hskip]
  rfl

/-- A closing brace does nothing. -/
lemma onward_of_closes (hp : p.WellFormed) (hb : p.Unbranched)
    (hall : ∀ c ∈ p.commands, c.action = .blockEnd → c.selection = .all)
    (h : Closes p.commands index) : onward p index = onward p (index + 1) := by
  obtain ⟨c, hc, hend⟩ := h
  rw [onward_of_some hp hb hc, applies, hall c (List.mem_of_getElem? hc) hend, pure_bind,
    pure_bind]
  have hact : act c = pure none := by
    rw [act, perform, hend]
    rfl
  rw [hact, pure_bind, skip, hend]
  exact ite_self _

lemma andThen_bind (first second : Edit (Option Flow)) (index : ℕ) :
    andThen first second >>= onwardAt p index =
      first >>= fun ending => ending.elim (second >>= onwardAt p index) pure := by
  rw [andThen, bind_assoc]
  refine bind_congr fun ending => ?_
  cases ending with
  | none => rfl
  | some flow => exact pure_bind _ _

/-- From where a body begins, the flat run is the body's and then goes on where it ends. -/
lemma onward_of_lies (hp : p.WellFormed) (hb : p.Unbranched)
    (hall : ∀ c ∈ p.commands, c.action = .blockEnd → c.selection = .all)
    (h : Body.Lies p.commands i body j) : onward p i = runBody body >>= onwardAt p j := by
  induction h with
  | done => exact (pure_bind _ _).symm
  | @command i j c rest hc hblock hend _ ih =>
      have hskip : skip c (i + 1) = i + 1 := by
        rw [skip]
        split
        · rename_i stop ha
          exact absurd ha (hblock stop)
        · rfl
      rw [onward_of_some hp hb hc, hskip, runBody, bind_assoc]
      refine bind_congr fun selected => ?_
      cases selected with
      | false => exact ih
      | true =>
          rw [if_pos rfl, if_pos rfl, andThen_bind, ← ih]
          rfl
  | @block i j stop c inner rest hc hblock hinner hclose _ ihinner ihrest =>
      have hafter : onward p stop = runBody rest >>= onwardAt p j := by
        rw [onward_of_closes hp hb hall hclose, ihrest]
      have hact : act c = pure none := by
        rw [act, perform, hblock]
        rfl
      have hskip : skip c (i + 1) = stop := by rw [skip, hblock]
      rw [onward_of_some hp hb hc, hskip, runBody, bind_assoc]
      refine bind_congr fun selected => ?_
      cases selected with
      | false => exact hafter
      | true =>
          rw [if_pos rfl, if_pos rfl, hact, pure_bind, andThen_bind, ← hafter]
          exact ihinner

/-- The flat run of all commands is the cycle of the body that they form. -/
lemma onward_eq_cycle (hp : p.WellFormed) (hb : p.Unbranched)
    (hall : ∀ c ∈ p.commands, c.action = .blockEnd → c.selection = .all)
    (h : Body.Lies p.commands 0 body p.commands.length) : onward p 0 = cycle body := by
  have hend : onward p p.commands.length = pure (.endCycle true) :=
    execute_of_none (List.getElem?_eq_none le_rfl)
  rw [onward_of_lies hp hb hall h, cycle]
  refine bind_congr fun ending => ?_
  cases ending with
  | none => exact hend
  | some flow => rfl

end Unbranched

/-- The braces of a program that is read from a script match. If it has no branches, its flat
commands do from every state what the body between these braces does, with the same flow or
failure; and that is what the steps of a run lead to from the first command on. -/
theorem execute_eq_cycle [Regex.Library] (script : Script) (options : Options) (p : Program)
    (h : Program.parse script options = .ok p) (hb : p.Unbranched) :
    ∃ body, Body.ofCommands? p.commands = some body ∧ ∀ e,
      (execute p (p.commands.length + 1) 0).run e = (cycle body).run e ∧
        ∃ k ≤ p.commands.length + 1, advance p k (.running 0) e =
          goOnWith p 0 ((cycle body >>= follow).run e) := by
  have hp := Program.wellFormed_of_parse h
  obtain ⟨body, hlies⟩ := hp.exists_lies
  have heq := onward_eq_cycle hp hb (Program.selection_blockEnd h) hlies
  refine ⟨body, hlies.ofCommands?_eq, fun e => ⟨by rw [← heq]; rfl, ?_⟩⟩
  obtain ⟨k, hk, hrun⟩ := exists_advance_eq p (p.commands.length + 1) 0 e
  refine ⟨k, hk, ?_⟩
  rw [hrun, ← heq]
  rfl

/-- A block that a range selects within a negated one, with commands in it that end the cycle. -/
theorem execute_eq_cycle_blocks :
    ∃ p body,
      Program.parse (.ofText (Text.ofString "1!\x7b/a/,$\x7bs/a/b/;n;\x7d;D;\x7d;p")) .standard
        = .ok p ∧ p.Unbranched ∧ Body.ofCommands? p.commands = some body ∧ ∀ e,
      (execute p (p.commands.length + 1) 0).run e = (cycle body).run e ∧
        ∃ k ≤ p.commands.length + 1, advance p k (.running 0) e =
          goOnWith p 0 ((cycle body >>= follow).run e) := by
  have hok : ((Program.parse (.ofText (Text.ofString "1!\x7b/a/,$\x7bs/a/b/;n;\x7d;D;\x7d;p"))
      .standard).toOption.any fun p => p.commands.all fun c => !c.action.isBranch) = true := by
    decide +kernel
  rcases hp : Program.parse (.ofText (Text.ofString "1!\x7b/a/,$\x7bs/a/b/;n;\x7d;D;\x7d;p"))
    .standard with _ | p
  · rw [hp] at hok
    cases hok
  · rw [hp] at hok
    have hb : p.Unbranched := by simpa [Except.toOption, Program.Unbranched] using hok
    obtain ⟨body, hbody, hruns⟩ := execute_eq_cycle _ _ p hp hb
    exact ⟨p, body, rfl, hb, hbody, hruns⟩

end StreamEditor.Editor
