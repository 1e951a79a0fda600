import StreamEditor.Proofs.Editor.Flushed
import StreamEditor.Proofs.Input.Contents
import StreamEditor.Proofs.Output.Resumed
import StreamEditor.Regex.Builtin

/-!
A program without commands copies its input.

* `Editor.Copies`: how the editor stands between two cycles of such a program.
* `Editor.Copies.cycle`: a cycle prints the next record. `Editor.Copies.run`: a run prints all that
  are left, and makes up for a separator where another record follows.
* `Editor.delivered_of_no_commands`: what is delivered are the files one after the other.
-/

namespace StreamEditor

open Storage (Drains)

/-! ### Surroundings -/

/-- Nothing was reported, and no file was changed. -/
structure Environment.Undisturbed (env env' : Environment) : Prop where
  status : env'.status = env.status
  said : env'.said = env.said
  files : Drains env.storage env'.storage

namespace Environment.Undisturbed

variable {env env' env'' : Environment}

lemma refl (env : Environment) : Undisturbed env env := ⟨rfl, rfl, .refl _⟩

lemma trans (h : Undisturbed env env') (h' : Undisturbed env' env'') : Undisturbed env env'' :=
  ⟨h'.status.trans h.status, h'.said.trans h.said, h.files.trans h'.files⟩

end Environment.Undisturbed

open Environment (Undisturbed)

lemma Input.Readable.undisturbed {i : Input} {env : Environment} (h : i.Readable env.storage) :
    Undisturbed env (i.read env).2.2 := by
  obtain ⟨s, henv, -⟩ := h.read
  exact ⟨by rw [henv], by rw [henv]; rfl, (i.served_readFrom env _).drains⟩

namespace Editor

lemma undisturbed_told (event : Event) (e : Editor) :
    ∃ environment, told event e = { e with environment } ∧
      environment.storage = e.environment.storage ∧ Undisturbed e.environment environment := by
  rw [told]
  split
  · exact ⟨_, rfl, rfl, rfl, rfl, .refl _⟩
  · exact ⟨_, rfl, rfl, .refl _⟩

/-! ### A cycle -/

/-- The editor between two cycles of a program that only prints: nothing is left to be printed, and
all that is printed finds room. -/
structure Copies (e : Editor) : Prop where
  printing : e.options.quiet = false
  queue : e.queue = []
  room : e.output.sink.room = none
  writers : e.writers = []
  readable : e.input.Readable e.environment.storage

/-- The records that are left. -/
def due (e : Editor) : List Record := (e.input.left e.environment).map (·.record)

section Cycle

variable {p : Program} {e : Editor} {record : Record} {rest : List Record}

/-- A record is loaded, and the first command is next. -/
lemma step_reading_of_some (h : (e.input.read e.environment).1 = some record) :
    ∃ e₁, (step p .reading).run e = (.ok (.running 0), e₁) ∧
      e₁.pattern = record.content ∧ e₁.terminated = record.terminated ∧
      e₁.options = e.options ∧ e₁.queue = e.queue ∧ e₁.output = e.output ∧ e₁.writers = e.writers ∧
      e₁.input = (e.input.read e.environment).2.1 ∧
      e₁.environment.storage = (e.input.read e.environment).2.2.storage ∧
      Undisturbed (e.input.read e.environment).2.2 e₁.environment := by
  let e₁ := ((load record record.content).run
    { e with
      input := (e.input.read e.environment).2.1
      environment := (e.input.read e.environment).2.2 }).2
  have hrun : (step p .reading).run e =
      (.ok (.running 0), told (.cycle e₁.lineNumber e₁.pattern) e₁) := by
    rw [step, run_bind_of_ok (run_readRecord e), h]
    rfl
  obtain ⟨environment, htold, hstorage, hundisturbed⟩ :=
    undisturbed_told (.cycle e₁.lineNumber e₁.pattern) e₁
  rw [htold] at hrun
  exact ⟨_, hrun, rfl, rfl, rfl, rfl, rfl, rfl, rfl, hstorage, hundisturbed⟩

/-- Where nothing waits for the end of the cycle the pattern space is printed, and no more. -/
lemma run_endCycle_of_idle {output : Output} (hprinting : e.options.quiet = false)
    (hqueue : e.queue = []) (h : e.output.writeRecord e.pattern e.terminated = (output, none)) :
    (endCycle true).run e = (.ok (), { e with output }) := by
  have hprint : printPattern.run e = (.ok (), { e with output }) := by
    rw [printPattern, run_get_bind, printRecord, run_emit, h]
  have hrelease : release.run { e with output } = (.ok (), { e with output }) := by
    rw [release, run_get_bind, run_set_bind, hqueue]
    show (pure ⟨⟩ : Edit Unit).run _ = _
    rw [run_pure, ← hqueue]
  rw [endCycle, run_get_bind, hprinting]
  exact (run_bind_of_ok hprint).trans hrelease

/-- A cycle prints the next record. -/
lemma Copies.cycle (h : Copies e) (hp : p.commands = []) (hdue : e.due = record :: rest) :
    ∃ e', advance p 2 .reading e = (.reading, e') ∧ Copies e' ∧ e'.due = rest ∧
      e'.output.separator = e.output.separator ∧ e'.output.unterminated = !record.terminated ∧
      e'.output.written = e.output.resumed ++
        (Text.utf8 record.content ++ if record.terminated then [e.output.separator] else []) ∧
      Undisturbed e.environment e'.environment := by
  obtain ⟨d, ds, hleft, rfl, rfl⟩ := List.map_eq_cons_iff.1 hdue
  have hreads := Input.reads_readFrom e.input e.environment e.input.pending
  rw [show e.input.leftWith e.environment.storage e.input.pending = d :: ds from hleft] at hreads
  obtain ⟨s, henv, hreadable⟩ := h.readable.read
  obtain ⟨e₁, hstep, hpattern, hterminated, hoptions, hqueue, houtput, hwriters, hinput, hstorage,
    hundisturbed⟩ := step_reading_of_some (p := p) (e := e) hreads.found
  obtain ⟨sink, waiting, hwrite, hroom, hwritten⟩ :=
    Output.writeRecord_of_room h.room e₁.pattern e₁.terminated
  rw [← houtput] at hwrite
  have hend := run_endCycle_of_idle (hoptions ▸ h.printing) (hqueue.trans h.queue) hwrite
  let output : Output := { e₁.output with sink, waiting, unterminated := !e₁.terminated }
  -- Without commands the step behind the reading one ends the cycle.
  have hprint : (step p (.running 0)).run e₁ = (.ok .reading, { e₁ with output }) := by
    rw [step_of_none (by rw [hp]; rfl)]
    exact run_bind_of_ok hend
  refine ⟨{ e₁ with output }, ?_, ⟨?_, ?_, hroom, ?_, ?_⟩, ?_, ?_, ?_, ?_, ?_⟩
  · rw [advance_succ, hstep, goOnWith, advance_succ, hprint]
    rfl
  · exact hoptions ▸ h.printing
  · exact hqueue.trans h.queue
  · exact hwriters.trans h.writers
  · show e₁.input.Readable e₁.environment.storage
    rw [hinput, hstorage, henv]
    exact hreadable
  · show (e₁.input.leftWith e₁.environment.storage e₁.input.pending).map _ = _
    rw [hinput, hstorage]
    exact congrArg (List.map _) hreads.left
  · show e₁.output.separator = e.output.separator
    rw [houtput]
  · exact congrArg (!·) hterminated
  · rw [Output.written, hwritten, hpattern, hterminated]
  · exact h.readable.undisturbed.trans hundisturbed

/-- When nothing is left the run ends. -/
lemma Copies.finish (h : Copies e) (hdue : e.due = []) :
    ∃ e', advance p 1 .reading e = (.finished (.ok 0), e') ∧ e'.output = e.output ∧
      e'.writers = [] ∧ Undisturbed e.environment e'.environment := by
  have hleft : e.input.left e.environment = [] := List.map_eq_nil_iff.1 hdue
  have hreads := Input.reads_readFrom e.input e.environment e.input.pending
  rw [show e.input.leftWith e.environment.storage e.input.pending = [] from hleft] at hreads
  let e' : Editor :=
    { e with
      input := (e.input.read e.environment).2.1
      environment := (e.input.read e.environment).2.2 }
  have hstep : (step p .reading).run e = (.ok (.finished (.ok 0)), e') := by
    rw [step, run_bind_of_ok (run_readRecord e),
      show (e.input.read e.environment).1 = none from hreads.found]
    rfl
  exact ⟨e', by rw [advance_succ, hstep]; rfl, rfl, h.writers, h.readable.undisturbed⟩

/-- A run prints all records that are left. -/
lemma Copies.run (h : Copies e) (hp : p.commands = []) :
    ∃ k e', advance p k .reading e = (.finished (.ok 0), e') ∧ e'.output.sink.room = none ∧
      e'.writers = [] ∧ Undisturbed e.environment e'.environment ∧
      e'.output.written =
        e.output.written ++ (if e.output.unterminated && !e.due.isEmpty then [e.output.separator]
          else []) ++ Record.joined e.output.separator e.due := by
  induction hdue : e.due generalizing e with
  | nil =>
      obtain ⟨e', hrun, houtput, hwriters, hundisturbed⟩ := h.finish (p := p) hdue
      refine ⟨1, e', hrun, houtput ▸ h.room, hwriters, hundisturbed, ?_⟩
      simp [houtput, Record.joined]
  | cons record rest ih =>
      obtain ⟨e₁, hcycle, h₁, hdue₁, hseparator, hunterminated, hwritten, hundisturbed₁⟩ :=
        h.cycle hp hdue
      obtain ⟨k, e', hrun, hroom, hwriters, hundisturbed, hall⟩ := ih h₁ hdue₁
      refine ⟨2 + k, e', ?_, hroom, hwriters, hundisturbed₁.trans hundisturbed, ?_⟩
      · rw [advance_add, hcycle]
        exact hrun
      · rw [hall, hwritten, hunterminated, hseparator, Output.resumed, Record.joined]
        cases record.terminated <;> cases rest <;> simp

end Cycle

/-! ### Whole runs -/

/-- Without output files nothing keeps the output from being delivered. -/
lemma conclude_of_room {e : Editor} (hwriters : e.writers = []) (hroom : e.output.sink.room = none)
    (r : Except Failure ℕ) :
    ∃ output, conclude r e = (r, { e with output }) ∧ output.sink.delivered = e.output.written := by
  obtain ⟨sink, hflush, -, hdelivered⟩ := Output.flush_of_room hroom
  refine ⟨{ e.output with sink, waiting := [] }, ?_, hdelivered⟩
  rw [conclude, run_flush_of_nil hwriters, run_emit, hflush]

/-- Without output files a run can begin. -/
lemma exists_start {p : Program} (h : p.outputFiles = []) (o : Options) (input : Input)
    (sink : Sink) (env : Environment) : ∃ e₀, (start? p o input sink env).1 = .ok e₀ := by
  rw [start?, h]
  exact ⟨_, rfl⟩

/-- A program without commands delivers its files one after the other, each byte for byte. A
separator is put in between after a file that lacks its last one, if another byte follows. Nothing
else is written, nothing is reported, and no file is changed. -/
theorem delivered_of_no_commands {p : Program} {o : Options} {names : List Text}
    {contents : List Bytes} {env : Environment} (hcommands : p.commands = [])
    (hfiles : p.outputFiles = []) (hprinting : (o.quiet || p.quiet) = false)
    (hcontents : Input.Holds env.storage (if names.isEmpty then [['-']] else names) contents)
    (hutf8 : ∀ bytes ∈ contents, ∃ t, bytes = Text.utf8 t) :
    ∃ e₀ e, (start? p o (.ofFiles names o.separator o.separate) .unlimited env).1 = .ok e₀ ∧
      Concludes p e₀ (.ok 0) e ∧
      e.output.sink.delivered = Input.joined o.separator contents ∧
      Undisturbed env e.environment := by
  obtain ⟨e₀, hstart⟩ :=
    exists_start hfiles o (.ofFiles names o.separator o.separate) .unlimited env
  obtain ⟨writers, storage, hopen, he₀⟩ := start?_eq_ok hstart
  rw [hfiles] at hopen
  cases hopen
  have hcopies : Copies e₀ := by
    rw [he₀]
    exact ⟨hprinting, rfl, rfl, rfl, by simp [Input.ofFiles], contents, hcontents⟩
  have hdue : e₀.due = contents.flatMap (Record.all o.separator) := by
    rw [he₀]
    exact Input.records_fromFiles hcontents o.separator 0
  have hseparator : o.separator < 0x80 := by
    rw [Options.separator]
    split <;> decide
  obtain ⟨k, e, hrun, hroom, hwriters, hundisturbed, hwritten⟩ := hcopies.run hcommands
  obtain ⟨output, hconclude, hdelivered⟩ := conclude_of_room hwriters hroom (.ok 0)
  refine ⟨e₀, _, hstart, ⟨k, _, e, hrun, hconclude⟩, ?_, ?_⟩
  · rw [hdelivered, hwritten, hdue, ← Input.joined_records hseparator hutf8, he₀]
    rfl
  · rw [he₀] at hundisturbed
    exact hundisturbed

/-- An unterminated file, an empty one and a terminated one. -/
theorem delivered_of_no_commands_three :
    ∃ p e₀ e, Program.parse (.ofText []) .standard = .ok p ∧
      (start? p .standard (.ofFiles [['f'], ['g'], ['h']] 10 false) .unlimited
        (.start ⟨[([['f']], [195, 169]), ([['g']], []), ([['h']], [122, 10])], [], []⟩)).1 =
          .ok e₀ ∧
      Concludes p e₀ (.ok 0) e ∧ e.output.sink.delivered = [195, 169, 10, 122, 10] := by
  have hcontents : Input.Holds
      ⟨[([['f']], [195, 169]), ([['g']], []), ([['h']], [122, 10])], [], []⟩
      [['f'], ['g'], ['h']] [[195, 169], [], [122, 10]] := by
    exact .file (by decide) rfl (.file (by decide) rfl (.file (by decide) rfl (.nil _)))
  have hutf8 : ∀ bytes ∈ [[195, 169], [], [122, 10]], ∃ t, bytes = Text.utf8 t := by
    simp only [List.forall_mem_cons, List.not_mem_nil, false_implies, implies_true, and_true]
    exact ⟨⟨['é'], rfl⟩, ⟨[], rfl⟩, ⟨['z', '\n'], rfl⟩⟩
  obtain ⟨e₀, e, hstart, hconcludes, hdelivered, -⟩ :=
    @delivered_of_no_commands .empty .standard [['f'], ['g'], ['h']] _ (.start _) rfl rfl rfl
      hcontents hutf8
  exact ⟨_, e₀, e, rfl, hstart, hconcludes, hdelivered⟩

end Editor

end StreamEditor
