import StreamEditor.Proofs.Editor.Confined
import StreamEditor.Proofs.Editor.Directed
import StreamEditor.Proofs.Editor.Printing

/-!
What a run does with its output and with what waits for the end of a cycle.

* `Editor.Act`: something is printed, begins to wait, or is released; or it is cut between what
  comes before and what comes after.
* `Editor.actionActs`, `Editor.stepActs`, `Editor.runActs`: what a command, a step and a run do.
* `Editor.Enacts`: what acts make of the output and of what waits.
* `Editor.Does`: a change that succeeds has done these acts. Changes put together from such are of
  this kind too.
* `Editor.enacts_advance`: a run does its acts, whatever its output takes, as long as it does not
  fail.
-/

namespace StreamEditor.Editor

open Output (Write)

/-! ### Acts -/

/-- What a run does with its output, and with what waits. -/
inductive Act where
  | printed (w : Write)
  | queued (q : Queued)
  /-- What has waited longest is output. The files are like this then. -/
  | released (files : Storage) (q : Queued)
  /-- A cycle ends or begins again, or the next record is read within it. -/
  | cut
  deriving DecidableEq, Repr

namespace Act

/-- What is written to the output. -/
def writes : Act → List Write
  | printed w => [w]
  | released files q => (queuedPrints files q).1.map (·.write)
  | queued _ | cut => []

/-- What begins to wait. -/
def queued? : Act → Option Queued
  | queued q => some q
  | printed _ | released _ _ | cut => none

/-- What waits afterwards. -/
def requeue (queue : List Queued) : Act → List Queued
  | queued q => queue ++ [q]
  | released _ _ => queue.tail
  | printed _ | cut => queue

end Act

/-- What is asked for is printed. -/
def printed (prints : List Print) : List Act := prints.map fun p => .printed p.write

/-- What the queue does when it is released. The files are those that are left by what was released
before. -/
def queueActs (files : Storage) : List Queued → List Act
  | [] => []
  | q :: queue => .released files q :: queueActs (queuedPrints files q).2 queue

/-- All that waits is released. -/
def releaseActs (e : Editor) : List Act := queueActs e.environment.storage e.queue

/-- What is done at the end of a cycle. -/
def endActs (autoprint : Bool) (e : Editor) : List Act :=
  (if autoprint && !e.options.quiet then [.printed (.record e.pattern e.terminated)] else []) ++
    releaseActs e

/-- It is cut where a record was read. -/
def readActs (found : Option Record) : List Act := if found.isSome then [.cut] else []

/-- What a command does. -/
def actionActs (c : Command) (e : Editor) : Action → List Act
  | .append text => [.queued (.text text)]
  | .appendFile name => [.queued (.file name)]
  | .appendFileLine name =>
      sequel (readLineOf name) (fun line _ => line.elim [] fun line => [.queued (.text line)]) e
  | .next =>
      sequel atEnd
        (fun ended e =>
          if ended then []
          else
            endActs true e ++
              sequel (endCycle true >>= fun _ => readRecord) (fun found _ => readActs found) e) e
  | .appendNext =>
      sequel atEnd
        (fun ended e =>
          if ended then []
          else
            releaseActs e ++
              sequel (release >>= fun _ => readRecord) (fun found _ => readActs found) e) e
  | action => printed (actionPrints c e action)

/-- What is done on going on as a command asks. -/
def flowActs (flow : Flow) (e : Editor) : List Act :=
  match flow with
  | .goOn _ => []
  | .endCycle autoprint => endActs autoprint e ++ [.cut]
  | .restart => endActs false e ++ [.cut]
  | .quit autoprint _ => if autoprint then endActs true e else []

/-- What is done in a step. -/
def stepActs (p : Program) (stage : Stage) (e : Editor) : List Act :=
  match stage with
  | .running index =>
      match p.commands[index]? with
      | none => endActs true e ++ [.cut]
      | some c =>
          sequel (applies c)
            (fun selected e =>
              if selected then
                actionActs c e c.action ++ sequel (perform c (index + 1)) flowActs e
              else []) e
  | .reading | .finished _ => []

/-- What is done in a number of steps. -/
def runActs (p : Program) : ℕ → Stage → Editor → List Act
  | 0, _, _ => []
  | count + 1, stage, e => stepActs p stage e ++ sequel (step p stage) (runActs p count) e

/-! ### What acts come to -/

/-- The output and what waits are what these acts make of them. -/
structure Enacts (acts : List Act) (e e' : Editor) : Prop where
  output : e'.output = e.output.after (acts.flatMap Act.writes)
  queue : e'.queue = acts.foldl Act.requeue e.queue

section Enacts

variable {e e' e'' : Editor} {acts acts' : List Act}

lemma Enacts.of_same (houtput : e'.output = e.output) (hqueue : e'.queue = e.queue) :
    Enacts [] e e' := ⟨houtput, hqueue⟩

lemma Enacts.append (h : Enacts acts e e') (h' : Enacts acts' e' e'') :
    Enacts (acts ++ acts') e e'' := by
  refine ⟨?_, ?_⟩
  · rw [h'.output, h.output, List.flatMap_append, Output.after_append]
  · rw [h'.queue, h.queue, List.foldl_append]

/-- A cut makes no difference. -/
lemma Enacts.cut (h : Enacts acts e e') : Enacts (acts ++ [.cut]) e e' :=
  h.append ⟨rfl, rfl⟩

lemma Enacts.readActs (h : Enacts acts e e') (found : Option Record) :
    Enacts (acts ++ readActs found) e e' := by
  cases found with
  | none => exact h.append (.of_same rfl rfl)
  | some _ => exact h.cut

instance : IsTrans Editor (Enacts []) where
  trans _ _ _ h h' := h.append h'

/-- What neither prints nor touches what waits. -/
lemma still_enacts : Still (Enacts []) where
  aside _ _ _ houtput _ hqueue := .of_same houtput hqueue
  tell _ := Moves.modify fun e => by split <;> exact .of_same rfl rfl
  readRecord _ := .of_same rfl rfl
  hasNext _ := .of_same rfl rfl
  readLineOf _ := Moves.modifyGet fun e => by
    dsimp only
    split <;> exact .of_same rfl rfl

end Enacts

/-- If `m` succeeds, it has done these acts. -/
def Does {α : Type} (m : Edit α) (acts : Editor → List Act) : Prop :=
  ∀ e a e', m.run e = (.ok a, e') → Enacts (acts e) e e'

section Does

variable {α β : Type} {m m' : Edit α} {f : α → Edit β} {acts acts' : Editor → List Act}
  {next : α → Editor → List Act}

lemma Does.of_moves (h : Moves (Enacts []) m) : Does m fun _ => [] := by
  intro e a e' hrun
  have hmoved := h e
  rwa [hrun] at hmoved

lemma Does.bind (hm : Does m acts) (hf : ∀ a, Does (f a) (next a)) :
    Does (m >>= f) fun e => acts e ++ sequel m next e := by
  intro e b e' hrun
  obtain ⟨a, e₁, hfirst, hrest⟩ := run_bind_eq_ok hrun
  have hnext : sequel m next e = next a e₁ := by rw [sequel, hfirst]
  dsimp only
  rw [hnext]
  exact (hm e a e₁ hfirst).append (hf a e₁ b e' hrest)

/-- What comes after a change that does nothing of the kind. -/
lemma Does.after (hm : Moves (Enacts []) m) (hf : ∀ a, Does (f a) (next a)) :
    Does (m >>= f) (sequel m next) := Does.bind (.of_moves hm) hf

/-- What comes before a change that does nothing of the kind. -/
lemma Does.before (hm : Does m acts) (hf : ∀ a, Moves (Enacts []) (f a)) : Does (m >>= f) acts := by
  intro e b e' hrun
  obtain ⟨a, e₁, hfirst, hrest⟩ := run_bind_eq_ok hrun
  have hboth := (hm e a e₁ hfirst).append (Does.of_moves (hf a) e₁ b e' hrest)
  rwa [List.append_nil] at hboth

lemma Does.goOn (hm : Does m acts) (b : β) : Does (m >>= fun _ => Pure.pure b) acts :=
  hm.before fun _ => still_enacts.pure _

/-- The editor that is looked at is the one from which the rest goes on. -/
lemma Does.get {f : Editor → Edit α}
    (h : ∀ e a e', (f e).run e = (.ok a, e') → Enacts (acts e) e e') :
    Does (MonadState.get >>= f) acts := h

lemma Does.ite {c : Prop} [Decidable c] (hm : Does m acts) (hm' : Does m' acts') :
    Does (if c then m else m') fun e => if c then acts e else acts' e := by
  by_cases h : c
  · simpa only [if_pos h] using hm
  · simpa only [if_neg h] using hm'

/-! ### Output -/

/-- What is printed changes the output only. -/
lemma eq_of_emit {f : Output → Output.Attempt} {e e' : Editor} {a : Unit}
    (h : (emit f).run e = (.ok a, e')) : e' = { e with output := (f e.output).1 } := by
  rw [run_emit] at h
  exact (congrArg Prod.snd h).symm

lemma does_emit (w : Write) : Does (emit w.attempt) fun _ => [.printed w] := by
  intro e a e' hrun
  rw [eq_of_emit hrun]
  exact ⟨rfl, rfl⟩

lemma does_printRecord (text : Text) (terminated : Bool) :
    Does (printRecord text terminated) fun _ => [.printed (.record text terminated)] :=
  does_emit (.record text terminated)

lemma does_printText (text : Text) : Does (printText text) fun _ => [.printed (.line text)] :=
  does_emit (.line text)

lemma does_printPattern :
    Does printPattern fun e => [.printed (.record e.pattern e.terminated)] :=
  Does.get fun e => does_printRecord e.pattern e.terminated e

lemma does_enqueue (q : Queued) : Does (enqueue q) fun _ => [.queued q] := by
  intro e a e' hrun
  cases hrun
  exact ⟨rfl, rfl⟩

lemma does_writeTo (target : Target) (text : Text) (terminated : Bool) :
    Does (writeTo target text terminated) fun _ =>
      printed (targetPrints target text terminated) := by
  cases target with
  | output => exact does_printRecord text terminated
  | errors => exact .of_moves (Moves.modify fun _ => .of_same rfl rfl)
  | file index =>
      refine .of_moves fun e => ?_
      rw [writeTo]
      cases hw : e.writers[index]? with
      | none =>
          rw [run_writeToFile_of_none hw]
          exact .of_same rfl rfl
      | some w =>
          rw [run_writeToFile hw]
          exact .of_same rfl rfl

lemma does_writeResult (s : Substitution) (text : Text) (terminated : Bool) :
    Does (writeResult s text terminated) fun _ =>
      printed (s.write.elim [] fun target => targetPrints target text terminated) := by
  rw [writeResult]
  cases s.write with
  | none => exact .of_moves (still_enacts.pure _)
  | some target => exact does_writeTo _ _ _

/-! ### Releasing what waits -/

/-- Something that waited is written, and nothing else happens to what waits. -/
lemma output_deliver {q : Queued} {e e' : Editor} {a : Unit} (h : (deliver q).run e = (.ok a, e')) :
    e'.output = e.output.after (Act.writes (.released e.environment.storage q)) ∧
      e'.queue = e.queue ∧
      e'.environment.storage = (queuedPrints e.environment.storage q).2 := by
  cases q with
  | text t =>
      have hemit : (emit (·.writeText t)).run e = (.ok a, e') := h
      rw [eq_of_emit hemit]
      exact ⟨rfl, rfl, rfl⟩
  | file name =>
      have hread : (readWhole name).run e = (.ok (e.environment.storage.read? name).1,
          { e with environment :=
            { e.environment with storage := (e.environment.storage.read? name).2 } }) := rfl
      rw [run_deliver_file, run_bind_of_ok hread] at h
      rw [Act.writes, queuedPrints]
      generalize e.environment.storage.read? name = found at h
      obtain ⟨fault | contents, storage⟩ := found
      · cases h
        exact ⟨rfl, rfl, rfl⟩
      · have hemit : (emit (·.writeRaw contents)).run
            { e with environment := { e.environment with storage } } = (.ok a, e') := h
        rw [eq_of_emit hemit]
        exact ⟨rfl, rfl, rfl⟩

lemma output_deliverAll {queue : List Queued} {e e' : Editor} {a : PUnit}
    (h : (queue.forM deliver).run e = (.ok a, e')) :
    e'.output = e.output.after ((queueActs e.environment.storage queue).flatMap Act.writes) ∧
      e'.queue = e.queue := by
  induction queue generalizing e with
  | nil =>
      cases h
      exact ⟨rfl, rfl⟩
  | cons q queue ih =>
      obtain ⟨_, e₁, hfirst, hrest⟩ := run_bind_eq_ok h
      obtain ⟨houtput, hqueue, hstorage⟩ := output_deliver hfirst
      obtain ⟨houtput', hqueue'⟩ := ih hrest
      refine ⟨?_, hqueue'.trans hqueue⟩
      rw [houtput', hstorage, houtput, queueActs, List.flatMap_cons, Output.after_append]

/-- Nothing waits after all that waited was released. -/
lemma requeue_queueActs (files : Storage) (queue : List Queued) :
    (queueActs files queue).foldl Act.requeue queue = [] := by
  induction queue generalizing files with
  | nil => rfl
  | cons q queue ih => exact ih _

lemma does_release : Does release releaseActs := by
  refine Does.get fun e a e' hrun => ?_
  obtain ⟨houtput, hqueue⟩ := output_deliverAll hrun
  exact ⟨houtput, hqueue.trans (requeue_queueActs _ _).symm⟩

lemma does_endCycle (autoprint : Bool) : Does (endCycle autoprint) (endActs autoprint) := by
  refine Does.get fun e a e' hrun => ?_
  rw [endActs]
  by_cases hprint : (autoprint && !e.options.quiet) = true
  · rw [if_pos hprint] at hrun ⊢
    obtain ⟨_, e₁, hpattern, hrelease⟩ := run_bind_eq_ok hrun
    have hprinted := does_printPattern e _ e₁ hpattern
    have hsame : releaseActs e₁ = releaseActs e := by
      have hemit : (emit (·.writeRecord e.pattern e.terminated)).run e = (.ok _, e₁) := hpattern
      rw [eq_of_emit hemit]
      rfl
    have hreleased := does_release e₁ a e' hrelease
    rw [hsame] at hreleased
    exact hprinted.append hreleased
  · rw [if_neg hprint] at hrun ⊢
    exact does_release e a e' hrun

/-! ### Commands -/

lemma does_showResult (s : Substitution) (result : Text) (count : ℕ) :
    Does (showResult s result count) fun e =>
      printed (if s.print then [.asked (.record result e.terminated)] else []) := by
  intro e a e' hrun
  obtain ⟨e₁, hset, rfl, hterminated, hshown⟩ : ∃ e₁, Enacts [] e e₁ ∧ e₁.pattern = result ∧
      e₁.terminated = e.terminated ∧
      (if s.print then printPattern else pure ()).run e₁ = (.ok a, e') := by
    have htold := Does.of_moves (still_enacts.tell (.substituted count)) e _ _ rfl
    refine ⟨{ told (.substituted count) e with pattern := result, substituted := true },
      .of_same htold.output htold.queue, rfl, ?_, hrun⟩
    change (told (.substituted count) e).terminated = e.terminated
    rw [told]
    split <;> rfl
  dsimp only
  rw [← hterminated]
  cases hprint : s.print with
  | false =>
      rw [hprint] at hshown
      obtain rfl : e₁ = e' := congrArg Prod.snd hshown
      exact hset
  | true =>
      rw [hprint] at hshown
      exact hset.append (does_printPattern e₁ a e' hshown)

lemma does_substituteFor (c : Command) (s : Substitution) (regex : Regex) :
    Does (substituteFor c s regex) fun e => printed (substitutePrints s regex e) := by
  rw [substituteFor_eq]
  refine Does.get fun e a e' hrun => ?_
  obtain ⟨found, e₁, hsearch, hrest⟩ := run_bind_eq_ok hrun
  rw [substitutePrints]
  cases hreplace : regex.replace s.template s.occurrence s.everywhere e.pattern with
  | error _ =>
      rw [hreplace] at hsearch
      cases hsearch
  | ok _ =>
      rw [hreplace] at hsearch
      cases hsearch
      dsimp only
      by_cases hcount : found.2 = 0
      · rw [if_pos hcount] at hrest ⊢
        cases hrest
        exact .of_same rfl rfl
      · rw [if_neg hcount] at hrest ⊢
        obtain ⟨_, e₂, hshow, hwrite⟩ := run_bind_eq_ok hrest
        have hshown := does_showResult s found.1 found.2 e _ e₂ hshow
        have hwritten := does_writeResult s found.1 e.terminated e₂ a e' hwrite
        rw [printed, List.map_append]
        exact hshown.append hwritten

lemma does_substitute (c : Command) (s : Substitution) :
    Does (substitute c s) fun e => actionActs c e (.substitute s) := by
  intro e a e' hrun
  rw [substitute_eq] at hrun
  obtain ⟨regex, e₁, hresolve, hrest⟩ := run_bind_eq_ok hrun
  have hbefore := Does.of_moves (still_enacts.resolve c s.regex) e regex e₁ hresolve
  change Enacts (printed (sequel (resolve c s.regex) _ e)) e e'
  rw [sequel, hresolve]
  dsimp only
  by_cases hgroups : regex.groupCount ≤ s.template.maxGroup
  · rw [if_pos hgroups] at hrest
    obtain ⟨_, _, hfail, -⟩ := run_bind_eq_ok hrest
    cases hfail
  · rw [if_neg hgroups] at hrest ⊢
    exact hbefore.append (does_substituteFor c s regex e₁ a e' hrest)

/-- Reading on within a cycle, after something else was done. -/
lemma does_readOn {m : Edit Unit} (hm : Does m acts) {f : Option Record → Edit β}
    (hf : ∀ found, Moves (Enacts []) (f found)) :
    Does (m >>= fun _ => readRecord >>= f) fun e =>
      acts e ++ sequel (m >>= fun _ => readRecord) (fun found _ => readActs found) e := by
  intro e b e' hrun
  obtain ⟨_, e₁, hfirst, hrest⟩ := run_bind_eq_ok hrun
  obtain ⟨found, e₂, hread, hlast⟩ := run_bind_eq_ok hrest
  have hfound : (m >>= fun _ => readRecord).run e = (.ok found, e₂) := by
    rw [run_bind_of_ok hfirst, hread]
  have hbefore := (hm e _ e₁ hfirst).append
    (Does.of_moves still_enacts.readRecord e₁ found e₂ hread)
  have hall := (hbefore.append (Does.of_moves (hf found) e₂ b e' hlast)).readActs found
  rw [List.append_nil, List.append_nil] at hall
  simpa only [sequel, hfound] using hall

/-- What is done unless the input ends. -/
lemma does_unlessEnded {m : Edit Flow} (flow : Flow) (hm : Does m acts) :
    Does (atEnd >>= fun ended => if ended then Pure.pure flow else m) fun e =>
      sequel atEnd (fun ended e => if ended then [] else acts e) e :=
  Does.after still_enacts.atEnd fun _ => Does.ite (.of_moves (still_enacts.pure _)) hm

lemma does_next (c : Command) (following : ℕ) :
    Does (Editor.next following) fun e => actionActs c e .next := by
  refine does_unlessEnded _ (does_readOn (does_endCycle true) fun found => ?_)
  cases found with
  | none => exact still_enacts.pure _
  | some record => exact still_enacts.goOn (still_enacts.load _ _) _

lemma does_appendNext (c : Command) (following : ℕ) :
    Does (appendNext following) fun e => actionActs c e .appendNext := by
  refine does_unlessEnded _ (does_readOn does_release fun found => ?_)
  cases found with
  | none => exact still_enacts.pure _
  | some record => exact Moves.get_bind fun _ => still_enacts.goOn (still_enacts.load _ _) _

/-- A command that is done does what it does with the output and with what waits. -/
lemma does_perform (c : Command) (following : ℕ) :
    Does (perform c following) fun e => actionActs c e c.action := by
  refine Does.get fun e flow e' hrun => ?_
  cases hc : c.action <;> rw [hc] at hrun
  case block | blockEnd | label | delete | quit | hold | holdAppend | get | getAppend | exchange =>
    cases hrun
    exact .of_same rfl rfl
  case branch condition label target =>
    refine Does.of_moves ((still_enacts.test _).bind fun _ => Moves.ite ?_ ?_) e flow e' hrun
    · exact still_enacts.goOn (still_enacts.tell _) _
    · exact still_enacts.pure _
  case deleteFirstLine =>
    refine Does.of_moves ?_ e flow e' hrun
    rcases Text.splitLine e.pattern with ⟨first, _ | rest⟩
    · exact still_enacts.pure _
    · exact still_enacts.goOn (still_enacts.edit _) _
  case transliterate | zap =>
    exact Does.of_moves (still_enacts.goOn (still_enacts.edit _) _) e flow e' hrun
  case substitute s => exact (does_substitute c s).goOn _ e flow e' hrun
  case next => exact does_next c _ e flow e' hrun
  case appendNext => exact does_appendNext c _ e flow e' hrun
  case append | appendFile => exact (does_enqueue _).goOn _ e flow e' hrun
  case appendFileLine name =>
    obtain ⟨line, e₁, hread, hrest⟩ := run_bind_eq_ok hrun
    have hbefore := Does.of_moves (still_enacts.readLineOf name) e line e₁ hread
    rw [actionActs, sequel, hread]
    cases line with
    | none =>
        cases hrest
        exact hbefore
    | some line => exact hbefore.append ((does_enqueue _).goOn _ e₁ flow e' hrest)
  case insert | lineNumber | list | fileName =>
    exact (does_printText _).goOn _ e flow e' hrun
  case change text =>
    change Enacts (printed (if c.negated || rangeEnded c e then _ else _)) e e'
    rw [apply_ite printed]
    exact Does.ite ((does_printText text).goOn _) (.of_moves (still_enacts.pure _)) e flow e' hrun
  case print => exact does_printPattern.goOn _ e flow e' hrun
  case printFirstLine =>
    change Enacts (printed (actionPrints c e .printFirstLine)) e e'
    rw [actionPrints]
    rcases hsplit : Text.splitLine e.pattern with ⟨first, _ | rest⟩ <;> rw [hsplit] at hrun
    · exact does_printPattern.goOn _ e flow e' hrun
    · exact (does_printRecord first true).goOn _ e flow e' hrun
  case write target => exact (does_writeTo target e.pattern e.terminated).goOn _ e flow e' hrun
  case writeFirstLine target =>
    exact (does_writeTo target (Text.splitLine e.pattern).1 true).goOn _ e flow e' hrun

/-! ### Steps and runs -/

/-- What is told makes no difference to the end of a cycle. -/
lemma endActs_told (autoprint : Bool) (event : Event) (e : Editor) :
    endActs autoprint (told event e) = endActs autoprint e := by
  rw [told]
  split <;> rfl

lemma does_follow (flow : Flow) : Does (follow flow) (flowActs flow) := by
  cases flow with
  | goOn next => exact .of_moves (still_enacts.pure _)
  | endCycle autoprint =>
      intro e stage e' hrun
      exact ((does_endCycle autoprint).goOn _ e stage e' hrun).cut
  | restart =>
      intro e stage e' hrun
      exact ((does_endCycle false).before (fun _ => still_enacts.beginCycle) e stage e' hrun).cut
  | quit autoprint exitCode =>
      cases autoprint with
      | false =>
          refine .of_moves (Moves.get_bind fun _ => ?_)
          exact (still_enacts.tell _).bind fun _ => still_enacts.pure _
      | true =>
          intro e stage e' hrun
          rw [run_quit] at hrun
          have htold := Does.of_moves (still_enacts.tell (.quit e.lineNumber exitCode)) e _ _ rfl
          have hend := (does_endCycle true).goOn _ _ stage e' hrun
          rw [endActs_told] at hend
          exact htold.append hend

lemma does_step (p : Program) (stage : Stage) : Does (step p stage) (stepActs p stage) := by
  cases stage with
  | reading =>
      refine .of_moves (still_enacts.readRecord.bind fun found => ?_)
      cases found with
      | none => exact still_enacts.pure _
      | some record => exact (still_enacts.load _ _).bind fun _ => still_enacts.beginCycle
  | running index =>
      intro e stage e' hrun
      rw [stepActs]
      cases hc : p.commands[index]? with
      | none =>
          rw [step_of_none hc] at hrun
          exact does_follow _ e stage e' hrun
      | some c =>
          rw [step_of_some hc] at hrun
          refine Does.after (still_enacts.applies c) (fun selected => ?_) e stage e' hrun
          exact Does.ite ((does_perform c _).bind fun flow => does_follow flow)
            (.of_moves (still_enacts.pure _))
  | finished result => exact .of_moves (still_enacts.pure _)

/-- A run that has not failed has done its acts. -/
lemma enacts_advance (p : Program) (count : ℕ) {stage stage' : Stage} {e e' : Editor}
    (h : advance p count stage e = (stage', e'))
    (hfine : ∀ failure, stage' ≠ .finished (.error failure)) :
    Enacts (runActs p count stage e) e e' := by
  induction count generalizing stage e with
  | zero =>
      cases h
      exact .of_same rfl rfl
  | succ count ih =>
      rw [advance_succ] at h
      rw [runActs, sequel]
      rcases hrun : (step p stage).run e with ⟨failure | stage₁, e₁⟩ <;> rw [hrun] at h
      · cases h
        exact absurd rfl (hfine failure)
      · exact (does_step p stage e stage₁ e₁ hrun).append (ih h)

end Does

end StreamEditor.Editor
