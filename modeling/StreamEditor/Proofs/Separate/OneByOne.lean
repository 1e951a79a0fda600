import StreamEditor.Proofs.Separate.Streams
import StreamEditor.Regex.Builtin

/-!
The output over files that are streams of their own.

* `Editor.OneByOne`: the runs over single files, one after the other. The ranges are all that one
  run leaves to the next.
* `Editor.separate_streams`: the output over all files is that of these runs put together.
-/

namespace StreamEditor.Editor

/-- The runs of a program over single files, one after the other, each with the ranges as the run
before left them. The outputs are put together; the first run that fails is the last one. -/
inductive OneByOne (p : Program) (o : Options) (env : Environment) :
    List RangeState → List Text → Except Failure ℕ → Bytes → Prop
  | done {ranges} : OneByOne p o env ranges [] (.ok 0) []
  | file {ranges name names e₀ e result bytes}
      (hstart : (start? p o (.ofFiles [name] o.separator true) .unlimited env).1 = .ok e₀)
      (hrun : Concludes p { e₀ with ranges } (.ok 0) e)
      (hrest : OneByOne p o env (e.ranges.map RangeState.carried) names result bytes) :
      OneByOne p o env ranges (name :: names) result (e.output.sink.delivered ++ bytes)
  | failed {ranges name names e₀ e failure}
      (hstart : (start? p o (.ofFiles [name] o.separator true) .unlimited env).1 = .ok e₀)
      (hrun : Concludes p { e₀ with ranges } (.error failure) e) :
      OneByOne p o env ranges (name :: names) (.error failure) e.output.sink.delivered

/-- A run over a single file ends without a failure. -/
def RunsAlone (p : Program) (o : Options) (env : Environment) (name : Text) (e : Editor) : Prop :=
  ∃ e₀, (start? p o (.ofFiles [name] o.separator true) .unlimited env).1 = .ok e₀ ∧
    Concludes p e₀ (.ok 0) e

variable {p : Program} {o : Options} {env : Environment} {e₀ e₁ a e e' : Editor}
  {before bytes : Bytes} {name : Text} {names : List Text} {ranges : List RangeState}
  {result : Except Failure ℕ}

/-! ### The beginning -/

lemma start?_of_start {input : Input} {sink : Sink} (h : (start? p o input sink env).1 = .ok e₀)
    (input' : Input) :
    (start? p o input' sink env).1 = .ok { e₀ with input := input' } := by
  obtain ⟨writers, storage, hopen, rfl⟩ := start?_eq_ok h
  rw [start?, hopen]

/-- Where the run over all files begins, so does the run over one of them. -/
lemma start?_alone {input : Input} {sink : Sink} (h : (start? p o input sink env).1 = .ok e₀)
    (h' : (start? p o (.ofFiles [name] o.separator true) sink env).1 = .ok e₁)
    (ranges : List RangeState) : { e₁ with ranges } = alone e₀ name ranges := by
  have hsame := start?_of_start h (.ofFiles [name] o.separator true)
  rw [h'] at hsame
  cases hsame
  obtain ⟨writers, storage, hopen, rfl⟩ := start?_eq_ok h
  rfl

lemma eq_alone {input : Input} {sink : Sink} (h : (start? p o input sink env).1 = .ok e₀)
    (h' : (start? p o (.ofFiles [name] o.separator true) sink env).1 = .ok e₁) :
    e₁ = alone e₀ name e₀.ranges := by
  have hsame := start?_of_start h (.ofFiles [name] o.separator true)
  rw [h'] at hsame
  cases hsame
  exact start?_alone h h' e₀.ranges

/-- Ending a run keeps the number of ranges. -/
lemma Concludes.length_ranges (h : Concludes p e₀ result e) :
    e.ranges.length = e₀.ranges.length := by
  obtain ⟨k, r, e₁, hrun, hend⟩ := h
  have hkept := (moves_advance p k .reading e₀).slots
  have hflush : (flush.run e₁).2.ranges = e₁.ranges := by
    rw [flush, run_get_bind]
    rcases Writer.flushAll e₁.environment.storage e₁.writers with ⟨writers, files, _ | failure⟩
    · exact congrArg (·.2.ranges) (run_emit Output.flush _)
    · rfl
  rw [hrun] at hkept
  rw [conclude] at hend
  rcases hall : flush.run e₁ with ⟨failure | _, e₂⟩ <;> rw [hall] at hend hflush
  · cases hend
    rw [hflush, hkept]
  · cases hend
    rw [hflush, hkept]

lemma idle_of_openAll {separator : UInt8} {s s' : Storage} {files : List OutputFile}
    {writers : List Writer} (h : Writer.openAll separator s files = (.ok writers, s')) :
    ∀ w ∈ writers, w.output.waiting = [] :=
  Writer.forall_of_openAll (fun f node => by cases node <;> rfl) h

lemma fresh_of_start {input : Input} (hseparate : o.separate = true)
    (h : (start? p o input .unlimited env).1 = .ok e₀) : e₀.Fresh := by
  obtain ⟨writers, storage, hopen, rfl⟩ := start?_eq_ok h
  exact
    { separate := hseparate
      output := ⟨rfl, rfl⟩
      separator := rfl
      written := rfl
      idle := idle_of_openAll hopen
      recordsRead := rfl
      fileIndex := rfl
      queue := rfl }

/-- Before the first file nothing is written and no range was asked. -/
lemma between_of_start (hseparate : o.separate = true) (hnames : names ≠ [])
    (h : (start? p o (.ofFiles names o.separator true) .unlimited env).1 = .ok e₀) :
    Between e₀ [] names e₀.ranges e₀ := by
  have hfresh := fresh_of_start hseparate h
  obtain ⟨writers, storage, hopen, rfl⟩ := start?_eq_ok h
  exact
    { options := rfl
      storage := rfl
      output := ⟨hfresh.output, hfresh.output, rfl, rfl⟩
      idle := hfresh.idle
      queue := rfl
      spent := fun r hr => nomatch hr
      pending := by
        cases names with
        | nil => exact absurd rfl hnames
        | cons name names => rfl
      separator := rfl
      separate := rfl
      file := rfl
      ranges := by
        refine RangesAlike.refl fun st hst r b hrb => ?_
        obtain ⟨slot, -, rfl⟩ := List.mem_map.1 hst
        cases hrb }

/-- Without ranges that begin before the first record none is active at the beginning. -/
lemma ranges_of_start {input : Input} {sink : Sink} (hslots : openSlots p = [])
    (h : (start? p o input sink env).1 = .ok e₀) : ∀ st ∈ e₀.ranges, st = .initial false := by
  obtain ⟨writers, storage, hopen, rfl⟩ := start?_eq_ok h
  intro st hst
  obtain ⟨slot, -, rfl⟩ := List.mem_map.1 hst
  rw [hslots]
  rfl

/-- Where no command writes to a file, all files are as they were. -/
lemma storage_of_start {input : Input} {sink : Sink} (hwrites : p.outputFiles = [])
    (h : (start? p o input sink env).1 = .ok e₀) : e₀.environment.storage = env.storage := by
  obtain ⟨writers, storage, hopen, rfl⟩ := start?_eq_ok h
  rw [hwrites] at hopen
  cases hopen
  rfl

/-! ### One file after the other -/

section Runs

variable {input : Input} (hplain : p.isPlain = true) (hseparate : o.separate = true)
  (hstart : (start? p o input .unlimited env).1 = .ok e₀)

include hplain hseparate hstart

/-- However the run over all files ends, it wrote what the runs over single files write. -/
lemma Between.oneByOne (hnames : ∀ name ∈ names, e₀.Regular name)
    (h : Between e₀ before names ranges e) (hconc : Concludes p e result e') :
    ∃ bytes, e'.output.sink.delivered = before ++ bytes ∧
      OneByOne p o env ranges names result bytes := by
  have h₀ := fresh_of_start hseparate hstart
  induction names generalizing before ranges e with
  | nil =>
      obtain ⟨e₁, hdone, hbytes⟩ := h.done h₀
      obtain ⟨rfl, rfl⟩ := hdone.unique hconc
      exact ⟨[], by rw [hbytes, List.append_nil], .done⟩
  | cons name names ih =>
      obtain ⟨hname, hnames'⟩ := List.forall_mem_cons.1 hnames
      have hstart' := start?_of_start hstart (.ofFiles [name] o.separator true)
      have halone := start?_alone hstart hstart' ranges
      obtain ⟨failure, a, rfl, ha, hbytes⟩ | ⟨a, e₁, ha, hrest, hbetween⟩ :=
        h.of_concludes h₀ hplain hname hconc
      · rw [← halone] at ha
        exact ⟨_, hbytes, .failed hstart' ha⟩
      · obtain ⟨bytes, hbytes, hruns⟩ := ih hnames' (hbetween _ (resumes_carried _)) hrest
        rw [← halone] at ha
        exact ⟨_, by rw [hbytes, List.append_assoc], .file hstart' ha hruns⟩

/-- Where the runs over single files end, so does the run over all of them. -/
lemma OneByOne.concludes (hnames : ∀ name ∈ names, e₀.Regular name)
    (h : Between e₀ before names ranges e) (hruns : OneByOne p o env ranges names result bytes) :
    ∃ e', Concludes p e result e' ∧ e'.output.sink.delivered = before ++ bytes := by
  have h₀ := fresh_of_start hseparate hstart
  induction hruns generalizing before e with
  | done =>
      obtain ⟨e', hdone, hbytes⟩ := h.done h₀
      exact ⟨e', hdone, by rw [hbytes, List.append_nil]⟩
  | file hstart' hrun hrest ih =>
      obtain ⟨hname, hnames'⟩ := List.forall_mem_cons.1 hnames
      rw [start?_alone hstart hstart'] at hrun
      obtain ⟨failure, -, hfailure, -⟩ | ⟨-, k, e₁, hadvance, hbetween⟩ :=
        h.goes_on h₀ hplain hname hrun
      · cases hfailure
      · obtain ⟨e', hconc, hbytes⟩ := ih hnames' (hbetween _ (resumes_carried _))
        refine ⟨e', (concludes_iff_of_advance hadvance).2 hconc, ?_⟩
        rw [hbytes, List.append_assoc]
  | failed hstart' hrun =>
      obtain ⟨hname, -⟩ := List.forall_mem_cons.1 hnames
      rw [start?_alone hstart hstart'] at hrun
      obtain ⟨failure, e', -, hconc, hbytes⟩ | ⟨hok, -⟩ := h.goes_on h₀ hplain hname hrun
      · exact ⟨e', hconc, hbytes⟩
      · cases hok

/-- Where every file but the last leaves all ranges inactive, the files do not depend on each
other. -/
lemma Between.concludes_of_inactive (hslots : openSlots p = []) {runs : List (Text × Editor)}
    (hnames : ∀ run ∈ runs, e₀.Regular run.1)
    (hruns : ∀ run ∈ runs, RunsAlone p o env run.1 run.2)
    (hinactive : ∀ run ∈ runs.dropLast, ∀ st ∈ run.2.ranges, st.active = false)
    (h : Between e₀ before (runs.map Prod.fst) e₀.ranges e) :
    ∃ e', Concludes p e (.ok 0) e' ∧
      e'.output.sink.delivered = before ++ runs.flatMap (·.2.output.sink.delivered) := by
  have h₀ := fresh_of_start hseparate hstart
  induction runs generalizing before e with
  | nil =>
      obtain ⟨e', hdone, hbytes⟩ := h.done h₀
      exact ⟨e', hdone, by rw [hbytes, List.flatMap_nil, List.append_nil]⟩
  | cons run runs ih =>
      obtain ⟨hname, hnames'⟩ := List.forall_mem_cons.1 hnames
      obtain ⟨⟨e₁, hstart', hrun⟩, hruns'⟩ := List.forall_mem_cons.1 hruns
      rw [eq_alone hstart hstart'] at hrun
      obtain ⟨failure, -, hfailure, -⟩ | ⟨-, k, e₂, hadvance, hbetween⟩ :=
        h.goes_on h₀ hplain hname hrun
      · cases hfailure
      -- what the last file leaves of the ranges does not matter
      cases runs with
      | nil =>
          obtain ⟨e', hdone, hbytes⟩ := (hbetween _ (resumes_carried _)).done h₀
          refine ⟨e', (concludes_iff_of_advance hadvance).2 hdone, ?_⟩
          rw [hbytes, List.flatMap_singleton]
      | cons next runs =>
          obtain ⟨hfirst, hothers⟩ := List.forall_mem_cons.1 hinactive
          have hresumes : Resumes run.2.ranges e₀.ranges :=
            resumes_of_inactive hrun.length_ranges.symm hfirst (ranges_of_start hslots hstart)
          obtain ⟨e', hconc, hbytes⟩ := ih hnames' hruns' hothers (hbetween _ hresumes)
          refine ⟨e', (concludes_iff_of_advance hadvance).2 hconc, ?_⟩
          rw [hbytes]
          simp only [List.flatMap_cons, List.append_assoc]

end Runs

/-- If files are taken as separate streams, a plain program does to each of them what it does to
the file alone, except that ranges go on from one file to the next: the output over all files is
that of the runs over the single files, each begun with the ranges as the run before left them.
Where no range begins before the first record and every file but the last leaves all ranges
inactive, it is the output of the runs over the single files as they are. -/
theorem separate_streams (p : Program) (hplain : p.isPlain = true) (o : Options)
    (hseparate : o.separate = true) (names : List Text) (hnames : names ≠ []) (env : Environment)
    (e₀ : Editor)
    (hstart : (start? p o (.ofFiles names o.separator true) .unlimited env).1 = .ok e₀)
    (hfiles : ∀ name ∈ names, ∃ contents,
      Reader.open? e₀.environment.storage name = .ok (.whole contents) ∧
      contents.getLast? = some o.separator) :
    (∀ result bytes, (∃ e, Concludes p e₀ result e ∧ e.output.sink.delivered = bytes) ↔
      OneByOne p o env e₀.ranges names result bytes) ∧
    (openSlots p = [] → ∀ runs : List (Text × Editor), runs.map Prod.fst = names →
      (∀ run ∈ runs, RunsAlone p o env run.1 run.2) →
      (∀ run ∈ runs.dropLast, ∀ st ∈ run.2.ranges, st.active = false) →
      ∃ e, Concludes p e₀ (.ok 0) e ∧
        e.output.sink.delivered = runs.flatMap (·.2.output.sink.delivered)) := by
  have hbetween := between_of_start hseparate hnames hstart
  have hseparator : e₀.options.separator = o.separator := by
    obtain ⟨writers, storage, hopen, rfl⟩ := start?_eq_ok hstart
    rfl
  have hregular : ∀ name ∈ names, e₀.Regular name := fun name hname => by
    rw [Regular, hseparator]
    exact hfiles name hname
  refine ⟨fun result bytes => ⟨?_, fun hruns => ?_⟩, fun hslots runs hmap hruns hinactive => ?_⟩
  · rintro ⟨e, hconc, rfl⟩
    obtain ⟨bytes, hbytes, hruns⟩ :=
      hbetween.oneByOne hplain hseparate hstart hregular hconc
    rw [hbytes, List.nil_append]
    exact hruns
  · obtain ⟨e, hconc, hbytes⟩ := hruns.concludes hplain hseparate hstart hregular hbetween
    exact ⟨e, hconc, by rw [hbytes, List.nil_append]⟩
  · subst hmap
    have hregular' : ∀ run ∈ runs, e₀.Regular run.1 :=
      fun run hrun => hregular _ (List.mem_map_of_mem hrun)
    obtain ⟨e, hconc, hbytes⟩ := hbetween.concludes_of_inactive hplain hseparate hstart hslots
      hregular' hruns hinactive
    exact ⟨e, hconc, by rw [hbytes, List.nil_append]⟩

/-- Two files of which the second is not reached by a range that the first one begins and ends. -/
theorem separate_streams_lines :
    ∃ p e₀ e,
      Program.parse (.ofText (Text.ofString "2,3p")) .standard = .ok p ∧ p.isPlain = true ∧
      (start? p { Options.standard with quiet := true, separate := true }
        (.ofFiles [['f'], ['g']] 10 true) .unlimited
        (.start ⟨[([['f']], [97, 10, 98, 10, 99, 10]), ([['g']], [100, 10, 101, 10])], [], []⟩)).1
          = .ok e₀ ∧
      Concludes p e₀ (.ok 0) e ∧
      e.output.sink.delivered = Text.utf8 (Text.ofString "b\nc\ne\n") := by
  have hfirst : outcome? (fun e => (e.output.sink.delivered, e.ranges.all (!·.active)))
      (Program.parse (.ofText (Text.ofString "2,3p")) .standard)
      { Options.standard with quiet := true, separate := true } [['f']]
      ⟨[([['f']], [97, 10, 98, 10, 99, 10]), ([['g']], [100, 10, 101, 10])], [], []⟩ 10
        = some (.ok 0, Text.utf8 (Text.ofString "b\nc\n"), true) := by decide +kernel
  have hsecond : outcome? (·.output.sink.delivered)
      (Program.parse (.ofText (Text.ofString "2,3p")) .standard)
      { Options.standard with quiet := true, separate := true } [['g']]
      ⟨[([['f']], [97, 10, 98, 10, 99, 10]), ([['g']], [100, 10, 101, 10])], [], []⟩ 7
        = some (.ok 0, Text.utf8 (Text.ofString "e\n")) := by decide +kernel
  have hprogram : ((Program.parse (.ofText (Text.ofString "2,3p")) .standard).toOption.all
      fun p => p.isPlain && (openSlots p).isEmpty && p.outputFiles.isEmpty) = true := by
    decide +kernel
  obtain ⟨p, e₁, a, hp, he₁, hends₁, hleft⟩ := concludes_of_outcome? hfirst
  obtain ⟨p', e₂, b, hp', he₂, hends₂, hbytes₂⟩ := concludes_of_outcome? hsecond
  rw [hp] at hp' hprogram
  cases hp'
  obtain ⟨hbytes₁, hinactive⟩ := Prod.mk.inj hleft
  obtain ⟨hplainslots, hwrites⟩ := Bool.and_eq_true_iff.1 hprogram
  obtain ⟨hplain, hslots⟩ := Bool.and_eq_true_iff.1 hplainslots
  have he₀ := start?_of_start he₁ (.ofFiles [['f'], ['g']] 10 true)
  have hfiles : ∀ name ∈ [['f'], ['g']], ∃ contents,
      Reader.open? { e₁ with input := .ofFiles [['f'], ['g']] 10 true }.environment.storage name
        = .ok (.whole contents) ∧ contents.getLast? = some 10 := by
    rw [storage_of_start (List.isEmpty_iff.1 hwrites) he₀]
    refine List.forall_mem_cons.2 ⟨⟨[97, 10, 98, 10, 99, 10], by decide +kernel, rfl⟩, ?_⟩
    exact List.forall_mem_singleton.2 ⟨[100, 10, 101, 10], by decide +kernel, rfl⟩
  have halone : ∀ run ∈ [(['f'], a), (['g'], b)], RunsAlone p
      { Options.standard with quiet := true, separate := true } _ run.1 run.2 :=
    List.forall_mem_cons.2 ⟨⟨e₁, he₁, hends₁⟩, List.forall_mem_singleton.2 ⟨e₂, he₂, hends₂⟩⟩
  have hended : ∀ run ∈ [(['f'], a), (['g'], b)].dropLast, ∀ st ∈ run.2.ranges,
      st.active = false := by
    refine List.forall_mem_singleton.2 fun st hst => ?_
    simpa using List.all_eq_true.1 hinactive st hst
  obtain ⟨-, hconcatenated⟩ :=
    separate_streams p hplain _ rfl [['f'], ['g']] (by simp) _ _ he₀ hfiles
  obtain ⟨e, hends, hbytes⟩ := hconcatenated (List.isEmpty_iff.1 hslots) _ rfl halone hended
  refine ⟨p, _, e, hp, hplain, he₀, hends, hbytes.trans ?_⟩
  simp only [List.flatMap_cons, List.flatMap_nil, hbytes₁, hbytes₂]
  decide +kernel

/-- A range that the first file does not end goes on in the second one. -/
theorem separate_streams_range :
    ∃ p e₀ e₁ e₂ e a b,
      Program.parse (.ofText (Text.ofString "2,4p")) .standard = .ok p ∧ p.isPlain = true ∧
      openSlots p = [] ∧
      (start? p { Options.standard with quiet := true, separate := true }
        (.ofFiles [['f'], ['g']] 10 true) .unlimited
        (.start ⟨[([['f']], [97, 10, 98, 10, 99, 10]), ([['g']], [100, 10])], [], []⟩)).1
          = .ok e₀ ∧
      (start? p { Options.standard with quiet := true, separate := true }
        (.ofFiles [['f']] 10 true) .unlimited
        (.start ⟨[([['f']], [97, 10, 98, 10, 99, 10]), ([['g']], [100, 10])], [], []⟩)).1
          = .ok e₁ ∧
      (start? p { Options.standard with quiet := true, separate := true }
        (.ofFiles [['g']] 10 true) .unlimited
        (.start ⟨[([['f']], [97, 10, 98, 10, 99, 10]), ([['g']], [100, 10])], [], []⟩)).1
          = .ok e₂ ∧
      Concludes p e₀ (.ok 0) e ∧ Concludes p e₁ (.ok 0) a ∧ Concludes p e₂ (.ok 0) b ∧
      e.output.sink.delivered = Text.utf8 (Text.ofString "b\nc\nd\n") ∧
      e.output.sink.delivered ≠ a.output.sink.delivered ++ b.output.sink.delivered := by
  have hall : outcome? (·.output.sink.delivered)
      (Program.parse (.ofText (Text.ofString "2,4p")) .standard)
      { Options.standard with quiet := true, separate := true } [['f'], ['g']]
      ⟨[([['f']], [97, 10, 98, 10, 99, 10]), ([['g']], [100, 10])], [], []⟩ 13
        = some (.ok 0, Text.utf8 (Text.ofString "b\nc\nd\n")) := by decide +kernel
  have hfirst : outcome? (·.output.sink.delivered)
      (Program.parse (.ofText (Text.ofString "2,4p")) .standard)
      { Options.standard with quiet := true, separate := true } [['f']]
      ⟨[([['f']], [97, 10, 98, 10, 99, 10]), ([['g']], [100, 10])], [], []⟩ 10
        = some (.ok 0, Text.utf8 (Text.ofString "b\nc\n")) := by decide +kernel
  have hsecond : outcome? (·.output.sink.delivered)
      (Program.parse (.ofText (Text.ofString "2,4p")) .standard)
      { Options.standard with quiet := true, separate := true } [['g']]
      ⟨[([['f']], [97, 10, 98, 10, 99, 10]), ([['g']], [100, 10])], [], []⟩ 4
        = some (.ok 0, []) := by decide +kernel
  have hprogram : ((Program.parse (.ofText (Text.ofString "2,4p")) .standard).toOption.all
      fun p => p.isPlain && (openSlots p).isEmpty) = true := by decide +kernel
  obtain ⟨p, e₀, e, hp, he₀, hends, hbytes⟩ := concludes_of_outcome? hall
  obtain ⟨p₁, e₁, a, hp₁, he₁, hends₁, hbytes₁⟩ := concludes_of_outcome? hfirst
  obtain ⟨p₂, e₂, b, hp₂, he₂, hends₂, hbytes₂⟩ := concludes_of_outcome? hsecond
  rw [hp] at hp₁ hp₂ hprogram
  cases hp₁
  cases hp₂
  obtain ⟨hplain, hslots⟩ := Bool.and_eq_true_iff.1 hprogram
  refine ⟨p, e₀, e₁, e₂, e, a, b, hp, hplain, List.isEmpty_iff.1 hslots, he₀, he₁, he₂, hends,
    hends₁, hends₂, hbytes, ?_⟩
  rw [hbytes, hbytes₁, hbytes₂]
  decide +kernel

end StreamEditor.Editor
