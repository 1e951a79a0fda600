import StreamEditor.Proofs.Editor.Capped
import StreamEditor.Proofs.Output.Replayed

/-!
What a run prints.

* `Editor.Print`: a write to the output, and whether it is the print of the pattern space with
  which a cycle ends.
* `Editor.actionPrints`, `Editor.stepPrints`, `Editor.runPrints`: what a command, a step and a run
  print.
* `Editor.printing`: the editor with another output, and quiet or not.
* `Editor.Prints`: a change writes these prints and nothing else. In the quiet editor it has the
  same result, and writes those of them that are not automatic. Changes put together from such are
  of this kind too.
* `Editor.prints_perform`: a command is.
-/

namespace StreamEditor.Editor

/-! ### What is printed -/

/-- A write to the output. -/
structure Print where
  write : Output.Write
  /-- A cycle ends, and the pattern space is printed without a command that asks for it. -/
  automatic : Bool
  deriving DecidableEq, Repr

/-- A write that a command asks for. -/
def Print.asked (write : Output.Write) : Print := ⟨write, false⟩

/-- The prints that commands ask for. -/
def deliberate (prints : List Print) : List Print := prints.filter (!·.automatic)

/-- What something that waited prints, and the files after it was read. A file that cannot be read
prints nothing. -/
def queuedPrints (s : Storage) : Queued → List Print × Storage
  | .text t => ([.asked (.line t)], s)
  | .file name =>
      match s.read? name with
      | (.ok contents, s) => ([.asked (.raw contents)], s)
      | (.error _, s) => ([], s)

/-- What the queue prints. -/
def queuePrints (s : Storage) : List Queued → List Print
  | [] => []
  | q :: queue => (queuedPrints s q).1 ++ queuePrints (queuedPrints s q).2 queue

/-- What is printed when all that waited is written. -/
def releasePrints (e : Editor) : List Print := queuePrints e.environment.storage e.queue

/-- What the end of a cycle prints. -/
def endPrints (autoprint : Bool) (e : Editor) : List Print :=
  (if autoprint && !e.options.quiet then [⟨.record e.pattern e.terminated, true⟩] else [])
    ++ releasePrints e

/-- What is printed where a record is written to a target. -/
def targetPrints (target : Target) (text : Text) (terminated : Bool) : List Print :=
  match target with
  | .output => [.asked (.record text terminated)]
  | .errors | .file _ => []

/-- What a substitution for the matches of an expression prints. -/
def substitutePrints (s : Substitution) (regex : Regex) (e : Editor) : List Print :=
  match regex.replace s.template s.occurrence s.everywhere e.pattern with
  | .error _ => []
  | .ok (result, count) =>
      if count = 0 then []
      else
        (if s.print then [.asked (.record result e.terminated)] else [])
          ++ s.write.elim [] fun target => targetPrints target result e.terminated

/-- What a command prints. -/
def actionPrints (c : Command) (e : Editor) : Action → List Print
  | .change text => if c.negated || rangeEnded c e then [.asked (.line text)] else []
  | .insert text => [.asked (.line text)]
  | .next => sequel atEnd (fun ended e => if ended then [] else endPrints true e) e
  | .appendNext => sequel atEnd (fun ended e => if ended then [] else releasePrints e) e
  | .print => [.asked (.record e.pattern e.terminated)]
  | .printFirstLine =>
      match Text.splitLine e.pattern with
      | (first, some _) => [.asked (.record first true)]
      | (_, none) => [.asked (.record e.pattern e.terminated)]
  | .write target => targetPrints target e.pattern e.terminated
  | .writeFirstLine target => targetPrints target (Text.splitLine e.pattern).1 true
  | .substitute s =>
      sequel (resolve c s.regex)
        (fun regex e =>
          if regex.groupCount ≤ s.template.maxGroup then [] else substitutePrints s regex e) e
  | .lineNumber => [.asked (.line (Text.decimal e.lineNumber))]
  | .list width =>
      [.asked (.line (Listing.render e.pattern (width.getD e.options.lineWrap)))]
  | .fileName => [.asked (.line e.input.recordName)]
  | _ => []

/-- What is printed on going on as a command asks. -/
def flowPrints (flow : Flow) (e : Editor) : List Print :=
  match flow with
  | .goOn _ => []
  | .endCycle autoprint => endPrints autoprint e
  | .restart => endPrints false e
  | .quit autoprint _ => if autoprint then endPrints true e else []

/-- What a step prints. -/
def stepPrints (p : Program) (stage : Stage) (e : Editor) : List Print :=
  match stage with
  | .running index =>
      match p.commands[index]? with
      | none => endPrints true e
      | some c =>
          sequel (applies c)
            (fun selected e =>
              if selected then
                actionPrints c e c.action ++ sequel (perform c (index + 1)) flowPrints e
              else []) e
  | .reading | .finished _ => []

/-- What a number of steps print. -/
def runPrints (p : Program) : ℕ → Stage → Editor → List Print
  | 0, _, _ => []
  | count + 1, stage, e =>
      stepPrints p stage e ++ sequel (step p stage) (runPrints p count) e

/-- The output after some prints. -/
def shown (o : Output) (prints : List Print) : Output := o.after (prints.map (·.write))

lemma shown_append (o : Output) (prints prints' : List Print) :
    shown o (prints ++ prints') = shown (shown o prints) prints' := by
  rw [shown, List.map_append, Output.after_append]
  rfl

lemma endless_shown {o : Output} (h : o.Endless) (prints : List Print) : (shown o prints).Endless :=
  h.after _

lemma deliberate_append (prints prints' : List Print) :
    deliberate (prints ++ prints') = deliberate prints ++ deliberate prints' :=
  List.filter_append ..

/-! ### Printing or not -/

/-- The editor with another output, and quiet or not. -/
def printing (quiet : Bool) (output : Output) (e : Editor) : Editor :=
  { e with options := { e.options with quiet }, output }

/-- From `e`, `m` writes just these prints. In the quiet editor it has the same result, and these
prints are the same but for the automatic ones. -/
structure PrintsAt {α : Type} (m : Edit α) (prints : Editor → List Print) (e : Editor) : Prop where
  output : (m.run e).2.output = shown e.output (prints e)
  quiet : ∀ o : Output, o.Endless → m.run (e.printing true o) =
    ((m.run e).1, (m.run e).2.printing true (shown o (deliberate (prints e))))
  deletes : ∀ o : Output, o.Endless → prints (e.printing true o) = deliberate (prints e)

/-- While its output takes all bytes, `m` writes just these prints; and so it does in the quiet
editor, but for the automatic ones. -/
def Prints {α : Type} (m : Edit α) (prints : Editor → List Print) : Prop :=
  ∀ e, e.output.Endless → PrintsAt m prints e

/-- What prints nothing. -/
abbrev Silent {α : Type} (m : Edit α) : Prop := Prints m fun _ => []

section Prints

variable {α β : Type} {m m' : Edit α} {f : α → Edit β} {prints prints' : Editor → List Print}
  {next : α → Editor → List Print} {e : Editor}

lemma PrintsAt.endless (h : PrintsAt m prints e) (he : e.output.Endless) :
    (m.run e).2.output.Endless := by
  rw [h.output]
  exact endless_shown he _

/-! ### Changes put together -/

/-- What neither looks at the output and the option nor changes them. -/
lemma Silent.blind (h : ∀ (e : Editor) quiet output, m.run (e.printing quiet output) =
    ((m.run e).1, (m.run e).2.printing quiet output)) : Silent m := by
  refine fun e he => ⟨?_, fun o ho => h e true o, fun o ho => rfl⟩
  have hself := h e e.options.quiet e.output
  rw [show e.printing e.options.quiet e.output = e from rfl] at hself
  rw [hself]
  rfl

lemma Silent.pure (a : α) : Silent (Pure.pure a : Edit α) := .blind fun _ _ _ => rfl

lemma Silent.throw (failure : Failure) : Silent (throw failure : Edit α) := .blind fun _ _ _ => rfl

lemma Prints.congr (m' : Edit α) (h : ∀ e, m.run e = m'.run e) (hm : Prints m' prints) :
    Prints m prints := by
  refine fun e he => ⟨?_, fun o ho => ?_, (hm e he).deletes⟩
  · rw [h]
    exact (hm e he).output
  · rw [h, h]
    exact (hm e he).quiet o ho

/-- The prints may be described in another way. -/
lemma Prints.of_eq (hm : Prints m prints') (h : ∀ e, e.output.Endless → prints e = prints' e) :
    Prints m prints := by
  refine fun e he => ⟨?_, fun o ho => ?_, fun o ho => ?_⟩
  · rw [h e he]
    exact (hm e he).output
  · rw [h e he]
    exact (hm e he).quiet o ho
  · rw [h e he, h (e.printing true o) ho]
    exact (hm e he).deletes o ho

/-- In a sequence the prints follow each other. -/
lemma Prints.bind (hm : Prints m prints) (hf : ∀ a, Prints (f a) (next a)) :
    Prints (m >>= f) fun e => prints e ++ sequel m next e := by
  intro e he
  obtain ⟨houtput, hquiet, hdeletes⟩ := hm e he
  have he₁ := (hm e he).endless he
  refine ⟨?_, fun o ho => ?_, fun o ho => ?_⟩
  · rw [run_bind, sequel, shown_append, ← houtput]
    rcases hrun : m.run e with ⟨failure | a, e₁⟩ <;> rw [hrun] at he₁
    · rfl
    · exact (hf a e₁ he₁).output
  · rw [run_bind, run_bind, sequel, hquiet o ho, deliberate_append, shown_append]
    rcases hrun : m.run e with ⟨failure | a, e₁⟩ <;> rw [hrun] at he₁
    · rfl
    · exact (hf a e₁ he₁).quiet _ (endless_shown ho _)
  · rw [sequel, sequel, hquiet o ho, hdeletes o ho, deliberate_append]
    rcases hrun : m.run e with ⟨failure | a, e₁⟩ <;> rw [hrun] at he₁
    · rfl
    · exact congrArg _ ((hf a e₁ he₁).deletes _ (endless_shown ho _))

lemma Silent.bind (hm : Silent m) (hf : ∀ a, Prints (f a) (next a)) :
    Prints (m >>= f) (sequel m next) := Prints.bind hm hf

lemma Prints.silently (hm : Prints m prints) (hf : ∀ a, Silent (f a)) :
    Prints (m >>= f) prints := by
  refine (hm.bind hf).of_eq fun e _ => ?_
  rw [sequel]
  rcases m.run e with ⟨_ | _, _⟩ <;> exact (List.append_nil _).symm

/-- A change after which a run goes on. -/
lemma Prints.andGo (hm : Prints m prints) (b : β) : Prints (m >>= fun _ => Pure.pure b) prints :=
  hm.silently fun _ => Silent.pure b

/-- What is looked at may be anything but the output and the option. -/
lemma Prints.look {f : Editor → Edit α} {next : Editor → Editor → List Print}
    (hf : ∀ e, Prints (f e) (next e)) (h : ∀ e o, f (e.printing true o) = f e)
    (hself : ∀ e, prints e = next e e)
    (hquiet : ∀ e o, prints (e.printing true o) = next e (e.printing true o)) :
    Prints (MonadState.get >>= f) prints := by
  refine fun e he => ⟨?_, fun o ho => ?_, fun o ho => ?_⟩
  · rw [hself]
    exact (hf e e he).output
  · rw [run_get_bind, run_get_bind, h, hself]
    exact (hf e e he).quiet o ho
  · rw [hself e, hquiet]
    exact (hf e e he).deletes o ho

lemma Silent.look {f : Editor → Edit α} (h : ∀ e o, f (e.printing true o) = f e)
    (hf : ∀ e, Silent (f e)) : Silent (MonadState.get >>= f) :=
  Prints.look hf h (fun _ => rfl) fun _ _ => rfl

lemma Prints.ite {c : Prop} [Decidable c] (hm : Prints m prints) (hm' : Prints m' prints') :
    Prints (if c then m else m') fun e => if c then prints e else prints' e := by
  by_cases h : c
  · simpa only [if_pos h] using hm
  · simpa only [if_neg h] using hm'

lemma Silent.ite {c : Prop} [Decidable c] (hm : Silent m) (hm' : Silent m') :
    Silent (if c then m else m') := by
  split
  · exact hm
  · exact hm'

/-! ### Output -/

lemma silent_tell (event : Event) : Silent (tell event) :=
  Silent.blind fun e quiet output => by
    show (Except.ok (), told event (e.printing quiet output)) =
      (Except.ok (), (told event e).printing quiet output)
    rw [told, told, printing, printing]
    cases e.options.debug <;> rfl

lemma sequel_tell (event : Event) (prints : Unit → Editor → List Print) (e : Editor) :
    sequel (tell event) prints e = prints () (told event e) := rfl

/-- An output that takes all bytes takes a write. -/
lemma run_emit_of_endless (he : e.output.Endless) (w : Output.Write) :
    (emit w.attempt).run e = (.ok (), { e with output := e.output.after [w] }) := by
  rw [run_emit, (he.attempt w).1]
  rfl

/-- A write that is asked for. -/
lemma prints_emit (w : Output.Write) : Prints (emit w.attempt) fun _ => [.asked w] := by
  refine fun e he => ⟨?_, fun o ho => ?_, fun o ho => rfl⟩
  · rw [run_emit]
    rfl
  · have ho' : (e.printing true o).output.Endless := ho
    rw [run_emit_of_endless he, run_emit_of_endless ho']
    rfl

lemma prints_printRecord (text : Text) (terminated : Bool) :
    Prints (printRecord text terminated) fun _ => [.asked (.record text terminated)] :=
  prints_emit (.record text terminated)

lemma prints_printText (text : Text) : Prints (printText text) fun _ => [.asked (.line text)] :=
  prints_emit (.line text)

lemma prints_printPattern :
    Prints printPattern fun e => [.asked (.record e.pattern e.terminated)] :=
  Prints.look (fun e => prints_printRecord e.pattern e.terminated) (fun _ _ => rfl) (fun _ => rfl)
    fun _ _ => rfl

lemma silent_writeToFile (index : ℕ) (text : Text) (terminated : Bool) :
    Silent (writeToFile index text terminated) :=
  Silent.blind fun e quiet output => by
    cases h : e.writers[index]? with
    | none =>
        have h' : (e.printing quiet output).writers[index]? = none := h
        rw [run_writeToFile_of_none h, run_writeToFile_of_none h']
    | some writer =>
        have h' : (e.printing quiet output).writers[index]? = some writer := h
        rw [run_writeToFile h, run_writeToFile h']
        rfl

lemma prints_writeTo (target : Target) (text : Text) (terminated : Bool) :
    Prints (writeTo target text terminated) fun _ => targetPrints target text terminated := by
  cases target with
  | output => exact prints_printRecord _ _
  | errors => exact Silent.blind fun _ _ _ => rfl
  | file index => exact silent_writeToFile _ _ _

lemma silent_enqueue (q : Queued) : Silent (enqueue q) := Silent.blind fun _ _ _ => rfl

lemma prints_deliver (q : Queued) :
    Prints (deliver q) fun e => (queuedPrints e.environment.storage q).1 := by
  cases q with
  | text t => exact prints_printText t
  | file name =>
      have hread : Silent (readWhole name) := Silent.blind fun _ _ _ => rfl
      refine Prints.congr _ (run_deliver_file name) ((@Silent.bind _ _ _ _ (fun contents _ =>
        contents.toOption.elim [] fun contents => [.asked (.raw contents)]) hread ?_).of_eq ?_)
      · rintro (fault | contents)
        · exact Silent.pure _
        · exact prints_emit (.raw contents)
      · intro e _
        rw [queuedPrints, sequel]
        show _ = Option.elim (e.environment.storage.read? name).1.toOption _ _
        rcases e.environment.storage.read? name with ⟨_ | contents, storage⟩ <;> rfl

/-- Something that waited is written to an output that takes all bytes. -/
lemma run_deliver_of_endless (he : e.output.Endless) (q : Queued) :
    ∃ output, (deliver q).run e =
      (.ok (), { e with
        output
        environment :=
          { e.environment with storage := (queuedPrints e.environment.storage q).2 } }) := by
  cases q with
  | text t => exact ⟨_, run_emit_of_endless he (.line t)⟩
  | file name =>
      have hread : (readWhole name).run e = (.ok _, _) := rfl
      rw [run_deliver_file, run_bind_of_ok hread, queuedPrints]
      rcases e.environment.storage.read? name with ⟨_ | contents, storage⟩
      · exact ⟨_, rfl⟩
      · let e₁ := { e with environment := { e.environment with storage } }
        have he₁ : e₁.output.Endless := he
        exact ⟨_, run_emit_of_endless he₁ (.raw contents)⟩

lemma prints_queue (queue : List Queued) :
    Prints (queue.forM deliver) fun e => queuePrints e.environment.storage queue := by
  induction queue with
  | nil => exact Silent.pure _
  | cons q queue ih =>
      refine ((prints_deliver q).bind fun _ => ih).of_eq fun e he => ?_
      obtain ⟨output, hrun⟩ := run_deliver_of_endless he q
      rw [sequel, hrun, queuePrints]

lemma prints_release : Prints release releasePrints := by
  have htake : Silent (modifyGet fun e : Editor => (e.queue, { e with queue := [] })) :=
    Silent.blind fun _ _ _ => rfl
  exact Prints.congr _ (fun e => rfl) (htake.bind prints_queue)

lemma prints_endCycle (autoprint : Bool) : Prints (endCycle autoprint) (endPrints autoprint) := by
  intro e he
  have hquiet (o : Output) : (endCycle autoprint).run (e.printing true o) =
      release.run (e.printing true o) := by
    rw [endCycle, run_get_bind, printing, Bool.not_true, Bool.and_false]
    rfl
  by_cases hprint : (autoprint && !e.options.quiet) = true
  · -- The pattern space is printed first; the quiet editor goes on at once.
    let e₁ := { e with output := e.output.after [.record e.pattern e.terminated] }
    have hpattern : printPattern.run e = (.ok (), e₁) :=
      run_emit_of_endless he (.record e.pattern e.terminated)
    have hrun : (endCycle autoprint).run e = release.run e₁ := by
      rw [endCycle, run_get_bind, hprint]
      exact run_bind_of_ok hpattern
    have hprints : endPrints autoprint e =
        ⟨.record e.pattern e.terminated, true⟩ :: releasePrints e₁ := by
      rw [endPrints, if_pos hprint]
      rfl
    obtain ⟨houtput, hsilent, hdeletes⟩ := prints_release e₁ (he.after _)
    refine ⟨?_, fun o ho => ?_, fun o ho => ?_⟩
    · rw [hrun, houtput, hprints]
      rfl
    · rw [hrun, hquiet, hprints]
      exact hsilent o ho
    · rw [endPrints, hprints, printing, Bool.not_true, Bool.and_false]
      exact hdeletes o ho
  · have hrun : (endCycle autoprint).run e = release.run e := by
      rw [endCycle, run_get_bind, if_neg hprint]
    have hprints : endPrints autoprint e = releasePrints e := by
      rw [endPrints, if_neg hprint, List.nil_append]
    obtain ⟨houtput, hsilent, hdeletes⟩ := prints_release e he
    refine ⟨?_, fun o ho => ?_, fun o ho => ?_⟩
    · rw [hrun, houtput, hprints]
    · rw [hrun, hquiet, hprints]
      exact hsilent o ho
    · rw [endPrints, hprints, printing, Bool.not_true, Bool.and_false]
      exact hdeletes o ho

/-! ### Input and selection -/

lemma silent_readRecord : Silent readRecord := Silent.blind fun _ _ _ => rfl

lemma silent_hasNext : Silent hasNext := Silent.blind fun _ _ _ => rfl

lemma silent_load (record : Record) (pattern : Text) : Silent (load record pattern) :=
  Silent.blind fun _ _ _ => rfl

lemma silent_readLineOf (name : Text) : Silent (readLineOf name) :=
  Silent.blind fun e quiet output => by
    rw [readLineOf, run_modifyGet, run_modifyGet]
    dsimp only [printing]
    split <;> rfl

lemma silent_fail (c : Command) (reason : Text) : Silent (fail c reason : Edit α) :=
  Silent.throw _

lemma silent_resolve (c : Command) (regex : Option Regex) : Silent (resolve c regex) :=
  Silent.blind fun e quiet output => by
    rw [resolve, run_get_bind, run_get_bind]
    dsimp only [printing]
    cases regex.or e.lastRegex <;> rfl

lemma silent_searched (c : Command) (result : Except Regex.Exhausted α) :
    Silent (searched c result) := by
  cases result with
  | ok found => exact Silent.pure found
  | error _ => exact silent_fail _ _

lemma silent_atLast : Silent atLast := silent_hasNext.silently fun _ => Silent.pure _

lemma silent_meets (c : Command) (a : Address) : Silent (meets c a) := by
  refine Silent.look (fun _ _ => rfl) fun e => ?_
  cases a with
  | line number => exact Silent.pure _
  | last => exact silent_atLast
  | pattern regex =>
      refine (silent_resolve c regex).silently fun regex => ?_
      exact Silent.look (fun _ _ => rfl) fun e => silent_searched c _
  | step first step => cases step <;> exact Silent.pure _
  | zero => exact Silent.pure _

lemma silent_endLine (stop : RangeEnd) (line : ℕ) : Silent (endLine stop line) := by
  unfold endLine
  split
  · exact Silent.pure _
  · exact silent_atLast.silently fun _ => Silent.pure _
  all_goals exact Silent.pure _

lemma silent_advanceRange (c : Command) (first : Address) (stop : RangeEnd) (state : RangeState) :
    Silent (advanceRange c first stop state) := by
  refine Silent.look (fun _ _ => rfl) fun e =>
    Silent.ite ?_ ((silent_meets c first).silently fun _ => Silent.ite ?_ (Silent.pure _))
  · split
    · exact Silent.pure _
    · exact (silent_meets c _).silently fun _ => Silent.pure _
    · exact Silent.pure _
  · exact (silent_endLine _ _).silently fun _ => Silent.pure _

lemma silent_inRange (c : Command) (first : Address) (stop : RangeEnd) (slot : ℕ) :
    Silent (inRange c first stop slot) := by
  have moved (state : RangeState) : Silent (inRange.moved c first stop slot state) :=
    (silent_advanceRange c first stop state).silently fun _ =>
      Prints.andGo (Silent.blind fun _ _ _ => rfl) _
  refine Silent.look (fun _ _ => rfl) fun e => ?_
  cases e.ranges[slot]? with
  | none => exact Silent.pure _
  | some state =>
      dsimp only
      split
      · exact Silent.ite (Silent.pure _) (moved state)
      · exact moved state

lemma silent_applies (c : Command) : Silent (applies c) := by
  rw [applies]
  cases c.selection with
  | all => exact Silent.pure _
  | single a => exact (silent_meets c a).silently fun _ => Silent.pure _
  | range first stop slot =>
      exact (silent_inRange c first stop slot).silently fun _ => Silent.pure _

/-! ### Commands -/

lemma silent_edit (f : Text → Text) : Silent (edit f) := Silent.blind fun _ _ _ => rfl

lemma silent_test (condition : Condition) : Silent (test condition) := by
  cases condition <;> exact Silent.blind fun _ _ _ => rfl

lemma silent_atEnd : Silent atEnd :=
  silent_hasNext.silently fun _ => Silent.look (fun _ _ => rfl) fun _ => Silent.pure _

lemma prints_writeResult (s : Substitution) (text : Text) (terminated : Bool) :
    Prints (writeResult s text terminated) fun _ =>
      s.write.elim [] fun target => targetPrints target text terminated := by
  rw [writeResult]
  cases s.write with
  | none => exact Silent.pure _
  | some target => exact prints_writeTo _ _ _

/-- The result of a substitution is the pattern space when it is printed. -/
lemma prints_result (s : Substitution) (result : Text) (terminated : Bool) :
    Prints (do
        modify fun e => { e with pattern := result, substituted := true }
        if s.print then printPattern
        writeResult s result terminated)
      fun e => (if s.print then [.asked (.record result e.terminated)] else [])
        ++ s.write.elim [] fun target => targetPrints target result terminated := by
  have hset : Silent (modify fun e : Editor => { e with pattern := result, substituted := true }) :=
    Silent.blind fun _ _ _ => rfl
  cases hprint : s.print with
  | false =>
      exact hset.bind fun _ => prints_writeResult s result terminated
  | true =>
      refine (hset.bind fun _ => prints_printPattern.bind fun _ =>
        prints_writeResult s result terminated).of_eq fun e he => ?_
      let e₁ := { e with pattern := result, substituted := true }
      have hpattern : printPattern.run e₁ = (.ok (), _) :=
        run_emit_of_endless (e := e₁) he (.record result e.terminated)
      show _ = _ ++ sequel printPattern _ e₁
      rw [sequel, hpattern]
      rfl

lemma prints_substituteFor (c : Command) (s : Substitution) (regex : Regex) :
    Prints (substituteFor c s regex) (substitutePrints s regex) := by
  refine @Prints.look _ _ _ (fun e e' =>
    match regex.replace s.template s.occurrence s.everywhere e.pattern with
    | .error _ => []
    | .ok (result, count) =>
        if count = 0 then []
        else
          (if s.print then [.asked (.record result e'.terminated)] else [])
            ++ s.write.elim [] fun target => targetPrints target result e.terminated)
    (fun e => ?_) (fun _ _ => rfl) (fun _ => rfl) fun _ _ => rfl
  cases regex.replace s.template s.occurrence s.everywhere e.pattern with
  | error _ => exact silent_fail _ _
  | ok found =>
      obtain ⟨result, count⟩ := found
      refine Prints.ite (Silent.pure _) (((silent_tell _).bind fun _ =>
        prints_result s result e.terminated).of_eq fun e he => ?_)
      have hterminated : (told (.substituted count) e).terminated = e.terminated := by
        rw [told]
        split <;> rfl
      rw [sequel_tell, ← hterminated]

lemma prints_substitute (c : Command) (s : Substitution) :
    Prints (substitute c s) fun e => actionPrints c e (.substitute s) := by
  rw [substitute_eq]
  refine (silent_resolve c _).bind fun regex => Prints.ite ?_ (prints_substituteFor c s regex)
  exact (silent_fail c _).bind fun _ : Unit => prints_substituteFor c s regex

lemma prints_next (c : Command) (following : ℕ) :
    Prints (Editor.next following) fun e => actionPrints c e .next := by
  refine silent_atEnd.bind fun _ => Prints.ite (Silent.pure _) ?_
  refine (prints_endCycle true).silently fun _ => silent_readRecord.silently fun record => ?_
  cases record with
  | none => exact Silent.pure _
  | some record => exact (silent_load _ _).andGo _

lemma prints_appendNext (c : Command) (following : ℕ) :
    Prints (appendNext following) fun e => actionPrints c e .appendNext := by
  refine silent_atEnd.bind fun _ => Prints.ite (Silent.pure _) ?_
  refine prints_release.silently fun _ => silent_readRecord.silently fun record => ?_
  cases record with
  | none => exact Silent.pure _
  | some record => exact Silent.look (fun _ _ => rfl) fun e => (silent_load _ _).andGo _

lemma prints_perform (c : Command) (following : ℕ) :
    Prints (perform c following) fun e => actionPrints c e c.action := by
  rw [perform]
  cases c.action with
  | branch condition label target =>
      refine Silent.look (fun _ _ => rfl) fun _ => (silent_test _).silently fun _ => ?_
      exact Silent.ite ((silent_tell _).andGo _) (Silent.pure _)
  | deleteFirstLine =>
      refine Silent.look (fun _ _ => rfl) fun e => ?_
      dsimp only
      split
      · exact (silent_edit _).andGo _
      · exact Silent.pure _
  | change text =>
      exact Prints.look (fun _ => Prints.ite ((prints_printText _).andGo _) (Silent.pure _))
        (fun _ _ => rfl) (fun _ => rfl) fun _ _ => rfl
  | next =>
      exact Prints.look (fun _ => prints_next c _) (fun _ _ => rfl) (fun _ => rfl) fun _ _ => rfl
  | appendNext =>
      exact Prints.look (fun _ => prints_appendNext c _) (fun _ _ => rfl) (fun _ => rfl)
        fun _ _ => rfl
  | substitute s =>
      exact Prints.look (fun _ => (prints_substitute c s).andGo _) (fun _ _ => rfl) (fun _ => rfl)
        fun _ _ => rfl
  | transliterate | zap => exact Silent.look (fun _ _ => rfl) fun _ => (silent_edit _).andGo _
  | insert | lineNumber | list | fileName =>
      exact Prints.look (fun _ => (prints_printText _).andGo _) (fun _ _ => rfl) (fun _ => rfl)
        fun _ _ => rfl
  | append | appendFile =>
      exact Silent.look (fun _ _ => rfl) fun _ => (silent_enqueue _).andGo _
  | appendFileLine name =>
      refine Silent.look (fun _ _ => rfl) fun _ => (silent_readLineOf _).silently fun line => ?_
      cases line with
      | none => exact Silent.pure _
      | some line => exact (silent_enqueue _).andGo _
  | print =>
      exact Prints.look (fun _ => prints_printPattern.andGo _) (fun _ _ => rfl) (fun _ => rfl)
        fun _ _ => rfl
  | printFirstLine =>
      refine @Prints.look _ _ _ (fun e e' => match Text.splitLine e.pattern with
        | (first, some _) => [.asked (.record first true)]
        | (_, none) => [.asked (.record e'.pattern e'.terminated)]) (fun e => ?_)
        (fun _ _ => rfl) (fun _ => rfl) fun _ _ => rfl
      rcases Text.splitLine e.pattern with ⟨first, _ | rest⟩
      · exact prints_printPattern.andGo _
      · exact (prints_printRecord first true).andGo _
  | write | writeFirstLine =>
      exact Prints.look (fun _ => (prints_writeTo _ _ _).andGo _) (fun _ _ => rfl) (fun _ => rfl)
        fun _ _ => rfl
  | hold | holdAppend | get | getAppend | exchange => exact Silent.blind fun _ _ _ => rfl
  | _ => exact Silent.look (fun _ _ => rfl) fun _ => Silent.pure _

end Prints

end StreamEditor.Editor
