import StreamEditor.Proofs.Editor.Asking
import StreamEditor.Proofs.Editor.Copied
import StreamEditor.Proofs.Input.Delivered
import StreamEditor.Proofs.Output.Calls

/-!
Runs that take the records of the input one after the other.

* `Editor.Placed`: the input still stands where it stood. `Editor.Asked`: nothing has changed but by
  asking whether a command applies.
* `Editor.Underway`: how far a run has come, and what it has written so far.
* `Editor.Underway.read`, `Editor.Underway.append`, `Editor.Underway.next`: a cycle begins with the
  next record, a command appends it, and any other step goes on.
* `Editor.Underway.concludes`: when all records are read the run ends, and all that it has written
  is delivered.
-/

namespace StreamEditor

namespace Input

variable {all : List Delivery} {n : ℕ} {i : Input} {env env' : Environment} {d : Delivery}

/-- Where the input stands depends on the files only. -/
lemma Stands.of_storage (h : Stands all n i env) (hs : env'.storage = env.storage) :
    Stands all n i env' := by
  have hleft : i.left env' = i.left env := congrArg (i.leftWith · i.pending) hs
  refine ⟨hleft.trans h.left, h.origin, fun hseparate => ?_⟩
  rw [hleft]
  exact h.current hseparate

/-- After a record is read the present file is that of the record. -/
lemma Stands.recordIndex (h : Stands all (n + 1) i env) (hd : all[n]? = some d) :
    i.recordIndex = d.index := by
  have horigin := h.origin
  rw [List.take_add_one, hd, Option.toList_some, List.getLast?_concat] at horigin
  exact (Prod.mk.inj horigin).2

end Input

namespace Editor

open Output (Write)

/-! ### Where the input stands -/

/-- The input still stands where it stood. -/
structure Placed (e e' : Editor) : Prop where
  separate : e'.input.separate = e.input.separate
  stands : ∀ all n, e.input.Stands all n e.environment → e'.input.Stands all n e'.environment

/-- Nothing has changed but by asking whether a command applies. -/
structure Asked (e e' : Editor) : Prop extends Placed e e' where
  frame : ∃ input environment ranges lastRegex,
    e' = { e with input, environment, ranges, lastRegex }

section Placed

variable {e e' : Editor} {all : List Delivery} {n : ℕ} {d : Delivery}

lemma Placed.of_same (hinput : e'.input = e.input)
    (hstorage : e'.environment.storage = e.environment.storage) : Placed e e' :=
  ⟨by rw [hinput], fun _ _ h => hinput ▸ h.of_storage hstorage⟩

instance : IsTrans Editor Placed where
  trans _ _ _ h h' :=
    ⟨h'.separate.trans h.separate, fun all n hs => h'.stands all n (h.stands all n hs)⟩

instance : IsTrans Editor Asked where
  trans _ _ _ h h' := by
    refine ⟨IsTrans.trans _ _ _ h.toPlaced h'.toPlaced, ?_⟩
    obtain ⟨-, input, environment, ranges, lastRegex, rfl⟩ := h
    obtain ⟨-, input', environment', ranges', lastRegex', rfl⟩ := h'
    exact ⟨_, _, _, _, rfl⟩

lemma Asked.pattern (h : Asked e e') : e'.pattern = e.pattern := by
  obtain ⟨-, _, _, _, _, rfl⟩ := h
  rfl

lemma placed_told (event : Event) (e : Editor) : Placed e (told event e) := by
  obtain ⟨environment, htold, hstorage, -⟩ := undisturbed_told event e
  rw [htold]
  exact .of_same rfl hstorage

lemma placed_hasNext : Moves Placed hasNext := fun e =>
  ⟨(Input.looks_hasNextFrom e.input e.environment e.input.pending).separate, fun _ _ h => h.look.2⟩

lemma looking_asked : Looking Asked where
  aside _ _ _ := ⟨.of_same rfl rfl, _, _, _, _, rfl⟩
  hasNext e := ⟨placed_hasNext e, _, _, _, _, rfl⟩

/-- The next record is read, if there is one. -/
lemma run_readRecord_of_stands (h : e.input.Stands all n e.environment) :
    ∃ input environment, readRecord.run e =
        (.ok (all[n]?.map (·.record)), { e with input, environment }) ∧
      input.Stands all (n + 1) environment ∧ input.separate = e.input.separate := by
  obtain ⟨hread, hstands⟩ := h.read
  refine ⟨_, _, by rw [run_readRecord, hread], hstands, ?_⟩
  exact (Input.reads_readFrom e.input e.environment e.input.pending).separate

/-- The editor after the record of a delivery was loaded, alone or at the end of what was there. -/
def loaded (d : Delivery) (pattern : Text) (e : Editor) : Editor :=
  { e with
    fileIndex := d.index
    lineNumber := (if e.options.separate && d.index ≠ e.fileIndex then 0 else e.lineNumber) + 1
    recordsRead := e.recordsRead + 1
    pattern
    terminated := d.record.terminated
    substituted := false }

lemma run_load (h : e.input.recordIndex = d.index) (pattern : Text) :
    (load d.record pattern).run e = (.ok (), loaded d pattern e) := by
  rw [loaded, ← h]
  rfl

/-- A cycle begins with the next record. -/
lemma run_reading_of_stands (p : Program) (h : e.input.Stands all n e.environment)
    (hd : all[n]? = some d) :
    ∃ input environment, (step p .reading).run e =
        (.ok (.running 0), loaded d d.record.content { e with input, environment }) ∧
      input.Stands all (n + 1) environment ∧ input.separate = e.input.separate := by
  obtain ⟨input, environment, hread, hstands, hseparate⟩ := run_readRecord_of_stands h
  rw [hd, Option.map_some] at hread
  let e₁ : Editor := loaded d d.record.content { e with input, environment }
  obtain ⟨environment', htold, hstorage, -⟩ :=
    undisturbed_told (.cycle e₁.lineNumber e₁.pattern) e₁
  refine ⟨input, environment', ?_, hstands.of_storage hstorage, hseparate⟩
  have hload : (load d.record d.record.content).run { e with input, environment } = (.ok (), e₁) :=
    run_load (hstands.recordIndex hd) _
  have hbegin : beginCycle.run e₁ = (.ok (.running 0), told (.cycle e₁.lineNumber e₁.pattern) e₁) :=
    rfl
  rw [step, run_bind_of_ok hread]
  exact (run_bind_of_ok hload).trans (hbegin.trans (congrArg _ htold))

/-- Where no record is left the run ends. -/
lemma run_reading_at_end (p : Program) (h : e.input.Stands all all.length e.environment) :
    ∃ input environment, (step p .reading).run e =
        (.ok (.finished (.ok 0)), { e with input, environment }) := by
  obtain ⟨input, environment, hread, -⟩ := run_readRecord_of_stands h
  rw [List.getElem?_length, Option.map_none] at hread
  exact ⟨input, environment, by rw [step, run_bind_of_ok hread]; rfl⟩

/-- In a single stream another record follows as long as not all are read. -/
lemma run_hasNext_of_joined (h : e.input.Stands all n e.environment)
    (hjoined : e.input.separate = false) :
    ∃ e', hasNext.run e = (.ok (decide (n < all.length)), e') ∧ Asked e e' := by
  refine ⟨_, ?_, looking_asked.hasNext e⟩
  have hfound : (e.input.hasNext e.environment).1 = decide (n < all.length) := by
    rw [Bool.eq_iff_iff, h.look.1]
    simp [hjoined, ← List.length_pos_iff_exists_mem]
  rw [run_hasNext, hfound]

/-- In a single stream the last record is the last of all. -/
lemma run_atLast_of_joined (h : e.input.Stands all n e.environment)
    (hjoined : e.input.separate = false) :
    ∃ e', atLast.run e = (.ok (decide (all.length ≤ n)), e') ∧ Asked e e' := by
  obtain ⟨e', hnext, hasked⟩ := run_hasNext_of_joined h hjoined
  refine ⟨e', ?_, hasked⟩
  rw [atLast, run_bind_of_ok hnext, run_pure, ← decide_not, decide_eq_decide.2 Nat.not_lt]

/-- In a single stream a command for the last record applies when all are read; if it is negated, as
long as they are not. -/
lemma run_applies_last {c : Command} (h : e.input.Stands all n e.environment)
    (hjoined : e.input.separate = false) (hs : c.selection = .single .last) :
    ∃ e', (applies c).run e = (.ok (decide (decide (all.length ≤ n) ≠ c.negated)), e') ∧
      Asked e e' := by
  obtain ⟨e', hlast, hasked⟩ := run_atLast_of_joined h hjoined
  refine ⟨e', ?_, hasked⟩
  rw [applies, hs]
  exact run_bind_of_ok hlast

end Placed

/-! ### Going on without reading -/

/-- What was read and what waits is as before, and `ws` has been written. -/
structure Onward (ws : List Write) (e e' : Editor) : Prop extends Placed e e' where
  options : e'.options = e.options
  output : e'.output = e.output.after ws
  writers : e'.writers = e.writers
  queue : e'.queue = e.queue
  recordsRead : e'.recordsRead = e.recordsRead
  lineNumber : e'.lineNumber = e.lineNumber
  terminated : e'.terminated = e.terminated

section Onward

variable {e e' e'' : Editor} {ws ws' : List Write}

lemma Onward.append (h : Onward ws e e') (h' : Onward ws' e' e'') : Onward (ws ++ ws') e e'' where
  toPlaced := IsTrans.trans _ _ _ h.toPlaced h'.toPlaced
  options := h'.options.trans h.options
  output := by rw [h'.output, h.output, Output.after_append]
  writers := h'.writers.trans h.writers
  queue := h'.queue.trans h.queue
  recordsRead := h'.recordsRead.trans h.recordsRead
  lineNumber := h'.lineNumber.trans h.lineNumber
  terminated := h'.terminated.trans h.terminated

lemma Onward.refl (e : Editor) : Onward [] e e :=
  ⟨.of_same rfl rfl, rfl, rfl, rfl, rfl, rfl, rfl, rfl⟩

instance : IsTrans Editor (Onward []) where
  trans _ _ _ h h' := h.append h'

lemma Asked.onward (h : Asked e e') : Onward [] e e' := by
  obtain ⟨hplaced, input, environment, ranges, lastRegex, rfl⟩ := h
  exact ⟨hplaced, rfl, rfl, rfl, rfl, rfl, rfl, rfl⟩

lemma onward_told (event : Event) (e : Editor) : Onward [] e (told event e) := by
  refine ⟨placed_told event e, ?_, ?_, ?_, ?_, ?_, ?_, ?_⟩ <;> rw [told] <;> split <;> rfl

/-- A change of the texts and of what is remembered between commands. -/
lemma onward_texts (e : Editor) (pattern hold : Text) (substituted : Bool) :
    Onward [] e { e with pattern, hold, substituted } :=
  ⟨.of_same rfl rfl, rfl, rfl, rfl, rfl, rfl, rfl, rfl⟩

lemma onward_write (ws : List Write) (e : Editor) :
    Onward ws e { e with output := e.output.after ws } :=
  ⟨.of_same rfl rfl, rfl, rfl, rfl, rfl, rfl, rfl, rfl⟩

/-- Where nothing waits for the end of the cycle, only the pattern space is printed. -/
lemma run_endCycle_of_endless (hprinting : e.options.quiet = false) (hqueue : e.queue = [])
    (hendless : e.output.Endless) :
    (endCycle true).run e =
      (.ok (), { e with output := e.output.after [.record e.pattern e.terminated] }) :=
  run_endCycle_of_idle hprinting hqueue
    (Prod.ext rfl (hendless.attempt (.record e.pattern e.terminated)).1)

lemma run_endCycle_false (hqueue : e.queue = []) : (endCycle false).run e = (.ok (), e) :=
  run_release_of_nil hqueue

end Onward

/-! ### Runs -/

/-- A run from `e₀` has come to `stage`. It has read `n` of the records `all` and written `ws`, and
nothing waits. -/
structure Underway (p : Program) (e₀ : Editor) (all : List Delivery) (stage : Stage) (n : ℕ)
    (ws : List Write) (e : Editor) : Prop where
  reached : ∃ k, advance p k .reading e₀ = (stage, e)
  stands : e.input.Stands all n e.environment
  separate : e.input.separate = e.options.separate
  options : e.options = e₀.options
  output : e.output = e₀.output.after ws
  endless : e.output.Endless
  writers : e.writers = []
  queue : e.queue = []
  recordsRead : e.recordsRead = n
  /-- In a single stream every record counts. -/
  lineNumber : e.options.separate = false → e.lineNumber = n

section Underway

variable {p : Program} {c : Command} {e₀ e e' : Editor} {all : List Delivery}
  {stage stage' : Stage} {n : ℕ} {ws ws' : List Write} {d : Delivery}

lemma reached_step {k : ℕ} (h : advance p k .reading e₀ = (stage, e))
    (hstep : (step p stage).run e = (.ok stage', e')) :
    advance p (k + 1) .reading e₀ = (stage', e') := by
  rw [advance_succ_last, h, hstep]
  rfl

/-- A run that writes to no file begins. -/
lemma Underway.start {o : Options} {names : List Text} {sink : Sink} {env : Environment}
    (hfiles : p.outputFiles = []) (hroom : sink.room = none)
    (hstart : (start? p o (.ofFiles names o.separator o.separate) sink env).1 = .ok e₀) :
    Underway p e₀ (Input.deliveries o.separator env.storage names) .reading 0 [] e₀ := by
  obtain ⟨writers, storage, hopen, rfl⟩ := start?_eq_ok hstart
  rw [hfiles] at hopen
  cases hopen
  exact ⟨⟨0, rfl⟩, Input.stands_ofFiles names o.separator o.separate env, rfl, rfl, rfl, hroom, rfl,
    rfl, rfl, fun _ => rfl⟩

/-- What it begins with. -/
lemma exists_underway (hfiles : p.outputFiles = []) (o : Options) (names : List Text) {sink : Sink}
    (hroom : sink.room = none) (env : Environment) :
    ∃ e₀, (start? p o (.ofFiles names o.separator o.separate) sink env).1 = .ok e₀ ∧
      Underway p e₀ (Input.deliveries o.separator env.storage names) .reading 0 [] e₀ ∧
      e₀.options = { o with quiet := o.quiet || p.quiet } ∧
      e₀.output = .toSink sink o.separator o.unbuffered ∧ e₀.hold = [] := by
  obtain ⟨e₀, hstart⟩ := exists_start hfiles o (.ofFiles names o.separator o.separate) sink env
  refine ⟨e₀, hstart, Underway.start hfiles hroom hstart, ?_⟩
  obtain ⟨writers, storage, -, rfl⟩ := start?_eq_ok hstart
  exact ⟨rfl, rfl, rfl⟩

lemma Underway.single (h : Underway p e₀ all stage n ws e) (hjoined : e₀.options.separate = false) :
    e.input.separate = false :=
  h.separate.trans (h.options ▸ hjoined)

/-- A step that reads the next record. -/
lemma Underway.consume {pattern : Text} {input : Input} {environment : Environment}
    (h : Underway p e₀ all stage n ws e)
    (hstep : (step p stage).run e = (.ok stage', loaded d pattern { e' with input, environment }))
    (hsame : Onward [] e e') (hstands : input.Stands all (n + 1) environment)
    (hseparate : input.separate = e'.input.separate) :
    Underway p e₀ all stage' (n + 1) ws (loaded d pattern { e' with input, environment }) where
  reached := h.reached.elim fun k hk => ⟨k + 1, reached_step hk hstep⟩
  stands := hstands
  separate := by
    have hoptions := hsame.options
    exact (hseparate.trans hsame.separate).trans (h.separate.trans (by rw [← hoptions]; rfl))
  options := hsame.options.trans h.options
  output := hsame.output.trans h.output
  endless := by
    have houtput : e'.output = e.output := hsame.output
    exact (congrArg Output.Endless houtput).mpr h.endless
  writers := hsame.writers.trans h.writers
  queue := hsame.queue.trans h.queue
  recordsRead := congrArg (· + 1) (hsame.recordsRead.trans h.recordsRead)
  lineNumber hjoined := by
    have hjoined : e'.options.separate = false := hjoined
    have hnumber := hsame.lineNumber.trans (h.lineNumber (hsame.options ▸ hjoined))
    simp [loaded, hjoined, hnumber]

/-- A cycle begins with the next record. -/
lemma Underway.read (h : Underway p e₀ all .reading n ws e) (hd : all[n]? = some d) :
    ∃ input environment,
      (step p .reading).run e =
        (.ok (.running 0), loaded d d.record.content { e with input, environment }) ∧
      Underway p e₀ all (.running 0) (n + 1) ws
        (loaded d d.record.content { e with input, environment }) := by
  obtain ⟨input, environment, hstep, hstands, hseparate⟩ := run_reading_of_stands p h.stands hd
  exact ⟨input, environment, hstep, h.consume hstep (Onward.refl e) hstands hseparate⟩

/-- A step that does not read. -/
lemma Underway.next (h : Underway p e₀ all stage n ws e)
    (hstep : (step p stage).run e = (.ok stage', e')) (honward : Onward ws' e e') :
    Underway p e₀ all stage' n (ws ++ ws') e' where
  reached := h.reached.elim fun k hk => ⟨k + 1, reached_step hk hstep⟩
  stands := honward.stands all n h.stands
  separate := by rw [honward.separate, honward.options, h.separate]
  options := honward.options.trans h.options
  output := by rw [honward.output, h.output, Output.after_append]
  endless := by
    rw [honward.output]
    exact h.endless.after ws'
  writers := honward.writers.trans h.writers
  queue := honward.queue.trans h.queue
  recordsRead := honward.recordsRead.trans h.recordsRead
  lineNumber hjoined := by
    rw [honward.options] at hjoined
    exact honward.lineNumber.trans (h.lineNumber hjoined)

/-- In a single stream a command for all records but the last one is skipped when all are read. -/
lemma Underway.skip_at_last {index : ℕ} (h : Underway p e₀ all (.running index) n ws e)
    (hjoined : e₀.options.separate = false) (hc : p.commands[index]? = some c)
    (hs : c.selection = .single .last) (hnegated : c.negated = true) (hlast : all.length ≤ n) :
    ∃ e', Underway p e₀ all (.running (skip c (index + 1))) n ws e' ∧ Asked e e' := by
  obtain ⟨e', happlies, hasked⟩ := run_applies_last h.stands (h.single hjoined) hs
  rw [decide_eq_true hlast, hnegated] at happlies
  have hnext := h.next (run_step_of_skips hc happlies) hasked.onward
  rw [List.append_nil] at hnext
  exact ⟨e', hnext, hasked⟩

/-- It is performed as long as records follow. -/
lemma Underway.perform_before_last {index : ℕ} (h : Underway p e₀ all (.running index) n ws e)
    (hjoined : e₀.options.separate = false) (hc : p.commands[index]? = some c)
    (hs : c.selection = .single .last) (hnegated : c.negated = true) (hmore : n < all.length) :
    ∃ e', (step p (.running index)).run e = (perform c (index + 1) >>= follow).run e' ∧
      Asked e e' := by
  obtain ⟨e', happlies, hasked⟩ := run_applies_last h.stands (h.single hjoined) hs
  rw [decide_eq_false (Nat.not_le.2 hmore), hnegated] at happlies
  exact ⟨e', by rw [step_of_some hc, run_bind_of_ok happlies]; rfl, hasked⟩

/-- In a single stream a record that follows is appended to the pattern space. -/
lemma Underway.append {following : ℕ} (h : Underway p e₀ all stage n ws e)
    (hjoined : e₀.options.separate = false) (haction : c.action = .appendNext)
    (hstep : (step p stage).run e = (perform c following >>= follow).run e') (hasked : Asked e e')
    (hd : all[n]? = some d) :
    ∃ e'', Underway p e₀ all (.running following) (n + 1) ws e'' ∧
      e''.pattern = e.pattern ++ '\n' :: d.record.content ∧
      e''.terminated = d.record.terminated := by
  have hsame := hasked.onward
  have hjoined' : e'.input.separate = false := hsame.separate.trans (h.single hjoined)
  obtain ⟨e₁, hnext, hasked₁⟩ := run_hasNext_of_joined (hsame.stands all n h.stands) hjoined'
  have hasked₁ : Asked e e₁ := IsTrans.trans _ _ _ hasked hasked₁
  have hsame₁ : Onward [] e e₁ := hasked₁.onward
  rw [decide_eq_true (List.getElem?_eq_some_iff.1 hd).1] at hnext
  obtain ⟨input, environment, hread, hstands, hseparate⟩ :=
    run_readRecord_of_stands (hsame₁.stands all n h.stands)
  rw [hd, Option.map_some] at hread
  have hrelease : release.run e₁ = (.ok (), e₁) := run_release_of_nil (hsame₁.queue.trans h.queue)
  let e₂ : Editor :=
    loaded d (e₁.pattern ++ '\n' :: d.record.content) { e₁ with input, environment }
  have hload : (load d.record (e₁.pattern ++ '\n' :: d.record.content)).run
      { e₁ with input, environment } = (.ok (), e₂) := run_load (hstands.recordIndex hd) _
  have hperform : (perform c following).run e' = (.ok (.goOn following), e₂) := by
    rw [run_appendNext haction hnext (.inl rfl), appendAfter, run_bind_of_ok hrelease,
      run_bind_of_ok hread]
    dsimp only
    rw [run_get_bind]
    exact run_bind_of_ok hload
  have hdone : (step p stage).run e = (.ok (.running following), e₂) :=
    hstep.trans (run_bind_of_ok hperform)
  exact ⟨e₂, h.consume hdone hsame₁ hstands hseparate, congrArg (· ++ _) hasked₁.pattern, rfl⟩

/-- After the last command the pattern space is printed. -/
lemma Underway.print {index : ℕ} (h : Underway p e₀ all (.running index) n ws e)
    (hend : p.commands[index]? = none) (hprinting : e₀.options.quiet = false) :
    Underway p e₀ all .reading n (ws ++ [.record e.pattern e.terminated])
      { e with output := e.output.after [.record e.pattern e.terminated] } := by
  refine h.next ?_ (onward_write _ e)
  rw [step_of_none hend]
  exact run_bind_of_ok (run_endCycle_of_endless (h.options ▸ hprinting) h.queue h.endless)

/-- When all records are read the run ends, and all that it has written is delivered. -/
lemma Underway.finish {sink : Sink} {separator : UInt8} {unbuffered : Bool}
    (h : Underway p e₀ all .reading all.length ws e) (hroom : sink.room = none)
    (houtput : e₀.output = .toSink sink separator unbuffered) :
    ∃ e₁ e', (step p .reading).run e = (.ok (.finished (.ok 0)), e₁) ∧
      conclude (.ok 0) e₁ = (.ok 0, e') ∧
      e'.output.sink.delivered = sink.delivered ++ Write.joined separator none ws := by
  obtain ⟨input, environment, hstep⟩ := run_reading_at_end p h.stands
  obtain ⟨output, hconclude, hdelivered⟩ :=
    conclude_of_room (e := { e with input, environment }) h.writers h.endless (.ok 0)
  refine ⟨_, _, hstep, hconclude, hdelivered.trans ?_⟩
  have hwritten := @Output.written_after (.toSink sink separator unbuffered) hroom none rfl ws
  rw [h.output, houtput, hwritten, Output.written]
  exact congrArg (· ++ _) (List.append_nil _)

lemma Underway.concludes {sink : Sink} {separator : UInt8} {unbuffered : Bool}
    (h : Underway p e₀ all .reading all.length ws e) (hroom : sink.room = none)
    (houtput : e₀.output = .toSink sink separator unbuffered) :
    ∃ e', Concludes p e₀ (.ok 0) e' ∧
      e'.output.sink.delivered = sink.delivered ++ Write.joined separator none ws := by
  obtain ⟨k, hk⟩ := h.reached
  obtain ⟨e₁, e', hstep, hconclude, hdelivered⟩ := h.finish hroom houtput
  exact ⟨e', ⟨k + 1, .ok 0, e₁, reached_step hk hstep, hconclude⟩, hdelivered⟩

end Underway

end Editor

end StreamEditor
