import StreamEditor.Proofs.Editor.Flushed
import StreamEditor.Proofs.Output.Calls

/-!
The records that commands direct at targets.

* `Editor.Directed`: a record that a command writes to a target; `Editor.actionWrites`,
  `Editor.stepWrites`, `Editor.runWrites`: those of a command, of a step and of a run.
* `Editor.Rests`: nothing is written but to the output. What no command directs at a target leaves
  it so.
* `Editor.Deals`: these records are written to their targets one after the other, and nothing else
  is written but to the output.
* `Editor.deals_advance`: so a run does with its records.
* `Editor.Deals.utters`: what it sends to the standard error stream.
-/

namespace StreamEditor

/-! ### The standard error stream -/

/-- These bytes were said one after the other. Besides them problems with the input were reported at
most. -/
structure Environment.Utters (said : List Bytes) (env env' : Environment) : Prop where
  among : ∃ more, env'.said = more ++ env.said ∧ said.reverse.Sublist more
  only : env'.status = 0 → env.status = 0 ∧ env'.said = said.reverse ++ env.said

namespace Environment.Utters

variable {env env' env'' : Environment} {said said' : List Bytes}

lemma of_same (hstatus : env'.status = env.status) (hsaid : env'.said = env.said) :
    Utters [] env env' :=
  ⟨⟨[], hsaid, List.Sublist.refl _⟩, fun h => ⟨hstatus ▸ h, hsaid⟩⟩

lemma refl (env : Environment) : Utters [] env env := of_same rfl rfl

lemma trans (h : Utters said env env') (h' : Utters said' env' env'') :
    Utters (said ++ said') env env'' := by
  obtain ⟨more, hmore, hsub⟩ := h.among
  obtain ⟨more', hmore', hsub'⟩ := h'.among
  refine ⟨⟨more' ++ more, ?_, ?_⟩, fun hstatus => ?_⟩
  · rw [hmore', hmore, List.append_assoc]
  · rw [List.reverse_append]
    exact hsub'.append hsub
  · obtain ⟨hstatus', honly'⟩ := h'.only hstatus
    obtain ⟨hstatus₀, honly⟩ := h.only hstatus'
    refine ⟨hstatus₀, ?_⟩
    rw [honly', honly, List.reverse_append, List.append_assoc]

lemma report (hsaid : env'.said = env.said) (message : Text) :
    Utters [] env (env'.report message) := by
  refine ⟨⟨[Environment.line message], congrArg _ hsaid, List.nil_sublist _⟩, fun h => ?_⟩
  rw [Environment.report] at h
  cases h

/-- What is said last. -/
lemma note (env : Environment) (b : Bytes) : Utters [b] env (env.note (.bytes b)) :=
  ⟨⟨[b], rfl, List.Sublist.refl _⟩, fun h => ⟨h, rfl⟩⟩

end Environment.Utters

open Environment (Utters)
open Storage (Drains)

/-- Reading says nothing, but may report problems. -/
lemma Environment.Served.utters {env env' : Environment} (h : env.Served env') :
    Utters [] env env' := by
  induction h with
  | refl => exact .refl _
  | drained _ _ ih => exact ih.trans (.of_same rfl rfl)
  | reported _ message ih => exact ih.trans (.report rfl message)

namespace Editor

/-! ### What is directed at targets -/

/-- A record that a command directs at a target. -/
structure Directed where
  target : Target
  text : Text
  terminated : Bool
  deriving DecidableEq, Repr

/-- The write that this is. -/
def Directed.write (d : Directed) : Output.Write := .record d.text d.terminated

/-- What is directed at one target. -/
def writesAt (target : Target) (ds : List Directed) : List Output.Write :=
  (ds.filter (·.target = target)).map Directed.write

lemma writesAt_append (target : Target) (ds ds' : List Directed) :
    writesAt target (ds ++ ds') = writesAt target ds ++ writesAt target ds' := by
  rw [writesAt, List.filter_append, List.map_append]
  rfl

lemma writesAt_singleton (target : Target) (d : Directed) :
    writesAt target [d] = if d.target = target then [d.write] else [] := by
  by_cases h : d.target = target
  · rw [if_pos h, writesAt, List.filter_singleton, decide_eq_true h]
    rfl
  · rw [if_neg h, writesAt, List.filter_singleton, decide_eq_false h]
    rfl

/-- The result of a substitution becomes the pattern space, and is printed if that is asked for. -/
def showResult (s : Substitution) (result : Text) (count : ℕ) : Edit Unit := do
  tell (.substituted count)
  modify fun e => { e with pattern := result, substituted := true }
  if s.print then printPattern

/-- What a substitution for the matches of an expression directs at its target. Nothing is written
if it cannot be printed before. -/
def substituteWrites (c : Command) (s : Substitution) (regex : Regex) (e : Editor) :
    List Directed :=
  sequel (searched c (regex.replace s.template s.occurrence s.everywhere e.pattern))
    (fun found e₁ =>
      if found.2 = 0 then []
      else
        sequel (showResult s found.1 found.2)
          (fun _ _ => s.write.elim [] fun target => [⟨target, found.1, e.terminated⟩]) e₁) e

/-- What a command directs at its target. -/
def actionWrites (c : Command) (e : Editor) : Action → List Directed
  | .write target => [⟨target, e.pattern, e.terminated⟩]
  | .writeFirstLine target => [⟨target, (Text.splitLine e.pattern).1, true⟩]
  | .substitute s =>
      sequel (resolve c s.regex)
        (fun regex e =>
          if regex.groupCount ≤ s.template.maxGroup then [] else substituteWrites c s regex e) e
  | _ => []

/-- What is directed at a target in a step. -/
def stepWrites (p : Program) (stage : Stage) (e : Editor) : List Directed :=
  match stage with
  | .running index =>
      match p.commands[index]? with
      | none => []
      | some c =>
          sequel (applies c)
            (fun selected e => if selected then actionWrites c e c.action else []) e
  | .reading | .finished _ => []

/-- What is directed at targets in a number of steps. -/
def runWrites (p : Program) : ℕ → Stage → Editor → List Directed
  | 0, _, _ => []
  | count + 1, stage, e =>
      stepWrites p stage e ++ sequel (step p stage) (runWrites p count) e

/-! ### Nothing is directed -/

/-- Nothing was written but to the output. -/
structure Rests (e e' : Editor) : Prop where
  options : e'.options = e.options
  writers : e'.writers = e.writers
  storage : Drains e.environment.storage e'.environment.storage
  utters : Utters [] e.environment e'.environment

instance : IsTrans Editor Rests where
  trans _ _ _ h h' :=
    ⟨h'.options.trans h.options, h'.writers.trans h.writers, h.storage.trans h'.storage,
      h.utters.trans h'.utters⟩

lemma calm_rests : Calm Rests where
  aside ho henv _ _ hw _ :=
    ⟨ho, hw, by rw [henv]; exact .refl _, by rw [henv]; exact .refl _⟩
  requeue _ _ := ⟨rfl, rfl, .refl _, .refl _⟩
  tell event := Moves.modify fun e => by
    split
    · exact ⟨rfl, rfl, .refl _, .of_same rfl rfl⟩
    · exact ⟨rfl, rfl, .refl _, .refl _⟩
  emit f _ e := by
    rw [run_emit]
    exact ⟨rfl, rfl, .refl _, .refl _⟩
  readRecord e :=
    have hserved := e.input.served_readFrom e.environment e.input.pending
    ⟨rfl, rfl, hserved.drains, hserved.utters⟩
  hasNext e :=
    have hserved := e.input.served_hasNextFrom e.environment e.input.pending
    ⟨rfl, rfl, hserved.drains, hserved.utters⟩
  readFile name := Moves.get fun e => by
    have hread := e.environment.storage.drains_read? name
    rcases hr : e.environment.storage.read? name with ⟨fault | contents, storage⟩ <;>
      rw [hr] at hread
    · exact ⟨rfl, rfl, hread, .of_same rfl rfl⟩
    · let e₁ := { e with environment := { e.environment with storage } }
      change Rests e ((emit (·.writeRaw contents)).run e₁).2
      rw [run_emit]
      exact ⟨rfl, rfl, hread, .of_same rfl rfl⟩
  readLineOf name := Moves.modifyGet fun e => by
    dsimp only
    split
    · exact ⟨rfl, rfl, .refl _, .refl _⟩
    · exact ⟨rfl, rfl, Reader.drains_read _ _ _, .of_same rfl rfl⟩

/-! ### Records one after the other -/

/-- These records are written to their targets one after the other, and nothing else is written but
to the output. -/
inductive Deals : List Directed → Editor → Editor → Prop
  | rest {e e' : Editor} (h : Rests e e') : Deals [] e e'
  | direct (d : Directed) (e : Editor) :
      Deals [d] e ((writeTo d.target d.text d.terminated).run e).2
  | trans {ds ds' : List Directed} {e e' e'' : Editor} (h : Deals ds e e') (h' : Deals ds' e' e'') :
      Deals (ds ++ ds') e e''

/-- A change directs these records at their targets, and no others. -/
def Directs {α : Type} (m : Edit α) (writes : Editor → List Directed) : Prop :=
  ∀ e, Deals (writes e) e (m.run e).2

section Directs

variable {α β : Type} {m m' : Edit α} {f : α → Edit β} {writes writes' : Editor → List Directed}
  {next : α → Editor → List Directed}

lemma Directs.of_moves (h : Moves Rests m) : Directs m fun _ => [] := fun e => .rest (h e)

lemma Directs.bind (hm : Directs m writes) (hf : ∀ a, Directs (f a) (next a)) :
    Directs (m >>= f) fun e => writes e ++ sequel m next e := by
  intro e
  have hfirst := hm e
  change Deals (writes e ++ sequel m next e) e _
  rw [run_bind, sequel]
  rcases hrun : m.run e with ⟨failure | a, e₁⟩ <;> rw [hrun] at hfirst
  · rwa [List.append_nil]
  · exact hfirst.trans (hf a e₁)

/-- What comes after a change that directs nothing. -/
lemma Directs.after (hm : Moves Rests m) (hf : ∀ a, Directs (f a) (next a)) :
    Directs (m >>= f) (sequel m next) := Directs.bind (.of_moves hm) hf

/-- What comes before a change that directs nothing. -/
lemma Directs.before (hm : Directs m writes) (hf : ∀ a, Moves Rests (f a)) :
    Directs (m >>= f) writes := by
  intro e
  have hall : Deals (writes e ++ sequel m (fun _ _ => []) e) e ((m >>= f).run e).2 :=
    hm.bind (fun a => .of_moves (hf a)) e
  rwa [sequel_nil, List.append_nil] at hall

/-- The editor that is looked at is the one from which the rest goes on. -/
lemma Directs.get {f : Editor → Edit α} (h : ∀ e, Deals (writes e) e ((f e).run e).2) :
    Directs (MonadState.get >>= f) writes := h

lemma Directs.ite {c : Prop} [Decidable c] (hm : Directs m writes) (hm' : Directs m' writes') :
    Directs (if c then m else m') fun e => if c then writes e else writes' e := by
  by_cases h : c
  · simpa only [if_pos h] using hm
  · simpa only [if_neg h] using hm'

end Directs

lemma directs_writeTo (target : Target) (text : Text) (terminated : Bool) :
    Directs (writeTo target text terminated) fun _ => [⟨target, text, terminated⟩] :=
  fun e => .direct ⟨target, text, terminated⟩ e

lemma directs_writeResult (s : Substitution) (text : Text) (terminated : Bool) :
    Directs (writeResult s text terminated) fun _ =>
      s.write.elim [] fun target => [⟨target, text, terminated⟩] := by
  rw [writeResult]
  cases s.write with
  | none => exact .of_moves (calm_rests.pure _)
  | some target => exact directs_writeTo _ _ _

lemma moves_showResult (s : Substitution) (result : Text) (count : ℕ) :
    Moves Rests (showResult s result count) := by
  refine (calm_rests.tell _).bind fun _ => Moves.bind (Moves.modify fun _ => ?_) fun _ => ?_
  · exact calm_rests.aside rfl rfl rfl rfl rfl rfl
  · exact Moves.ite calm_rests.printPattern (calm_rests.pure _)

/-- A substitution taken apart once more. -/
lemma substituteFor_eq (c : Command) (s : Substitution) (regex : Regex) :
    substituteFor c s regex = MonadState.get >>= fun e =>
      searched c (regex.replace s.template s.occurrence s.everywhere e.pattern) >>= fun found =>
        if found.2 = 0 then pure ()
        else showResult s found.1 found.2 >>= fun _ => writeResult s found.1 e.terminated := by
  rw [substituteFor]
  refine congrArg _ (funext fun e => congrArg _ (funext fun found => ?_))
  rw [showResult]
  cases s.print <;> simp [bind_assoc]

lemma directs_substituteFor (c : Command) (s : Substitution) (regex : Regex) :
    Directs (substituteFor c s regex) (substituteWrites c s regex) := by
  rw [substituteFor_eq]
  refine Directs.get fun e => ?_
  refine Directs.after (calm_rests.searched c _) (fun found => Directs.ite ?_ ?_) e
  · exact .of_moves (calm_rests.pure _)
  · exact Directs.after (moves_showResult s _ _) fun _ => directs_writeResult s _ _

lemma directs_substitute (c : Command) (s : Substitution) :
    Directs (substitute c s) fun e => actionWrites c e (.substitute s) := by
  rw [substitute_eq]
  refine Directs.after (calm_rests.resolve c _) fun regex =>
    Directs.ite ?_ (directs_substituteFor c s regex)
  intro e
  exact .rest (calm_rests.throw _ e)

lemma directs_perform (c : Command) (following : ℕ) :
    Directs (perform c following) fun e => actionWrites c e c.action := by
  cases hc : c.action with
  | write target =>
      refine Directs.get fun e => ?_
      rw [hc]
      exact (directs_writeTo target e.pattern e.terminated).before (fun _ => calm_rests.pure _) e
  | writeFirstLine target =>
      refine Directs.get fun e => ?_
      rw [hc]
      exact (directs_writeTo target (Text.splitLine e.pattern).1 true).before
        (fun _ => calm_rests.pure _) e
  | substitute s =>
      refine Directs.get fun e => ?_
      rw [hc]
      exact (directs_substitute c s).before (fun _ => calm_rests.pure _) e
  | _ => exact .of_moves (calm_rests.perform (by rw [hc]; rfl) following)

lemma directs_step (p : Program) (stage : Stage) : Directs (step p stage) (stepWrites p stage) := by
  cases stage with
  | reading =>
      refine .of_moves (calm_rests.readRecord.bind fun record => ?_)
      cases record with
      | none => exact calm_rests.pure _
      | some record => exact (calm_rests.load _ _).bind fun _ => calm_rests.beginCycle
  | running index =>
      intro e
      rw [stepWrites]
      cases hc : p.commands[index]? with
      | none =>
          rw [step_of_none hc]
          exact .rest (calm_rests.follow _ e)
      | some c =>
          rw [step_of_some hc]
          refine Directs.after (calm_rests.applies c) (fun selected => ?_) e
          exact Directs.ite ((directs_perform c _).before fun flow => calm_rests.follow flow)
            (.of_moves (calm_rests.pure _))
  | finished result => exact .of_moves (calm_rests.pure _)

/-- A run directs its records at their targets one after the other. -/
lemma deals_advance (p : Program) (count : ℕ) (stage : Stage) (e : Editor) :
    Deals (runWrites p count stage e) e (advance p count stage e).2 := by
  induction count generalizing stage e with
  | zero => exact .rest (calm_rests.aside rfl rfl rfl rfl rfl rfl)
  | succ count ih =>
      have hstep := directs_step p stage e
      rw [advance_succ, runWrites, sequel]
      rcases hrun : (step p stage).run e with ⟨failure | stage', e₁⟩ <;> rw [hrun] at hstep
      · rwa [List.append_nil]
      · exact hstep.trans (ih stage' e₁)

/-! ### What comes of it -/

section Deals

variable {ds : List Directed} {e e' : Editor}

lemma Deals.options (h : Deals ds e e') : e'.options = e.options := by
  induction h with
  | rest h => exact h.options
  | direct d e =>
      cases hd : d.target with
      | output =>
          rw [writeTo, printRecord, run_emit]
      | errors => rfl
      | file index =>
          rw [writeTo]
          cases hw : e.writers[index]? with
          | none => rw [run_writeToFile_of_none hw]
          | some w => rw [run_writeToFile hw]
  | trans _ _ ih ih' => exact ih'.trans ih

/-- Each record that is directed at the standard error stream appears there with the separator that
it has, and without one if it has none. -/
lemma Deals.utters (h : Deals ds e e') : Utters
    ((writesAt .errors ds).map (·.bytes e.options.separator)) e.environment e'.environment := by
  induction h with
  | rest h => exact h.utters
  | direct d e =>
      obtain ⟨target, text, terminated⟩ := d
      cases target with
      | output =>
          rw [writeTo, printRecord, run_emit]
          exact .refl _
      | errors => exact .note _ _
      | file index =>
          rw [writeTo]
          cases hw : e.writers[index]? with
          | none =>
              rw [run_writeToFile_of_none hw]
              exact .refl _
          | some w =>
              rw [run_writeToFile hw]
              exact .of_same rfl rfl
  | trans h h' ih ih' =>
      rw [h.options] at ih'
      rw [writesAt_append, List.map_append]
      exact ih.trans ih'

end Deals

end Editor

end StreamEditor
