import StreamEditor.Proofs.Parser.Yields
import StreamEditor.Proofs.Program.WellFormed

/-!
What reading a statement adds to the draft of a program.

* `Parser.Counted`, `Parser.Names`: the number that a range takes, and the output file that a
  target takes.
* `Parser.Draft.Step`: what a statement or a closing brace adds; `yields_statement` and
  `yields_closeBlock` say that nothing else happens.
* `yields_wholeScript`: a script is read by such steps, and in the end no block is open.
-/

namespace StreamEditor

variable {library : Regex.Library}

/-- What the parser makes of the argument of a command: the target of a branch is not yet
known, and blocks are no arguments. -/
def Action.Read : Action → Prop
  | .block _ | .blockEnd => False
  | .branch _ _ target => target = none
  | .substitute s => s.Sound
  | _ => True

namespace Parser

open Token (Kind)

/-- A selection that is a range takes the next number. -/
def Counted (before : ℕ) (s : Selection) (after : ℕ) : Prop :=
  (s.slot? = none ∧ after = before) ∨ (s.slot? = some before ∧ after = before + 1)

/-- A target that is a file is one of those before, or a new one at their end. -/
def Names (before : List OutputFile) (target : Option Target) (after : List OutputFile) : Prop :=
  (after = before ∧ ∀ i, target = some (.file i) → i < before.length) ∨
    ∃ f : OutputFile, after = before ++ [f] ∧ target = some (.file before.length) ∧
      ∀ g ∈ before, Path.key g.name ≠ Path.key f.name

lemma names_none (files : List OutputFile) : Names files none files := .inl ⟨rfl, by simp⟩

/-- What a statement or a closing brace adds to the draft. -/
inductive Draft.Step (d : Draft) : Draft → Prop
  | command {c : Command} {files : List OutputFile} {ranges : ℕ} :
      c.selection.ZeroPlaced → c.action.Read → Counted d.rangeCount c.selection ranges →
      Names d.outputFiles c.action.target? files →
      Step d ⟨d.commands ++ [c], files, ranges, d.openBlocks⟩
  | openBlock {c : Command} {ranges : ℕ} :
      c.selection.ZeroPlaced → c.action = .block 0 → Counted d.rangeCount c.selection ranges →
      Step d ⟨d.commands ++ [c], d.outputFiles, ranges, d.commands.length :: d.openBlocks⟩
  | closeBlock {c : Command} {block : ℕ} {outer : List ℕ} :
      d.openBlocks = block :: outer → c.selection = .all → c.action = .blockEnd →
      Step d ⟨d.commands.modify block (closed d.commands.length) ++ [c], d.outputFiles,
        d.rangeCount, outer⟩

/-! ### Addresses -/

@[simp] lemma keeps_patternAddress : Keeps patternAddress := by
  refine keeps_bind keeps_advance fun _ => keeps_bind (keeps_literalIf _) fun _ => ?_
  refine keeps_bind (keeps_isAt _) fun _ => keeps_ite ?_ (keeps_complain _)
  refine keeps_bind keeps_advance fun _ => keeps_bind keeps_get fun _ => ?_
  exact keeps_bind (keeps_patternFlags _ _) fun _ => by simp

@[simp] lemma keeps_numberAddress : Keeps numberAddress := by
  refine keeps_bind keeps_number fun _ => keeps_bind keeps_advance fun _ => ?_
  exact keeps_bind (keeps_isAt _) fun _ => by simp

@[simp] lemma keeps_address : Keeps address := by
  refine keeps_bind keeps_get fun _ => ?_
  split <;> simp

@[simp] lemma keeps_rangeEnd : Keeps rangeEnd := by
  refine keeps_bind keeps_get fun _ => ?_
  split <;> simp

/-- Where a range may begin and end so, the address zero stands only before a pattern. -/
lemma zeroPlaced_of_zeroAllowed {first : Address} {stop : RangeEnd} {slot : ℕ}
    (h : zeroAllowed first stop = true) : (Selection.range first stop slot).ZeroPlaced := by
  refine ⟨?_, ?_⟩
  · rintro rfl
    cases first <;> simp [zeroAllowed] at h
  · rintro rfl
    rcases stop with a | n | n
    · cases a with
      | pattern regex => exact ⟨regex, rfl⟩
      | _ => simp [zeroAllowed] at h
    all_goals simp [zeroAllowed] at h

/-- A range takes the next number. -/
lemma yields_range {first : Address} {stop : RangeEnd} (h : zeroAllowed first stop = true) :
    Yields (do
      let slot := (← MonadState.get).rangeCount
      modify fun p : Parser => { p with rangeCount := slot + 1 }
      return Selection.range first stop slot)
      fun d s d' => s.ZeroPlaced ∧ ∃ ranges, Counted d.rangeCount s ranges ∧
        d' = { d with rangeCount := ranges } := by
  intro p s p' hp
  cases hp
  exact ⟨zeroPlaced_of_zeroAllowed h, p.rangeCount + 1, .inr ⟨rfl, rfl⟩, rfl⟩

/-- A selection takes a number if it is a range, and changes nothing else. -/
lemma yields_selection :
    Yields selection fun d s d' => s.ZeroPlaced ∧ ∃ ranges, Counted d.rangeCount s ranges ∧
      d' = { d with rangeCount := ranges } := by
  have hsingle : ∀ a : Address, a ≠ .zero → Yields (Pure.pure (Selection.single a))
      fun d s d' => s.ZeroPlaced ∧ ∃ ranges, Counted d.rangeCount s ranges ∧
        d' = { d with rangeCount := ranges } :=
    fun a ha => Yields.pure fun d => ⟨ha, _, .inl ⟨rfl, rfl⟩, rfl⟩
  refine Yields.after keeps_get fun p => ?_
  split
  case h_4 => exact Yields.pure fun d => ⟨trivial, _, .inl ⟨rfl, rfl⟩, rfl⟩
  all_goals
    refine Yields.after keeps_address fun first => Yields.after (keeps_isAt _) fun _ => ?_
    refine Yields.ite (fun _ => ?_) fun _ => ?_
    · refine Yields.after keeps_advance fun _ => Yields.after keeps_rangeEnd fun stop => ?_
      exact Yields.ite yields_range fun _ => yields_complain _
    · cases first with
      | zero => exact yields_complain _
      | _ => exact hsingle _ (by simp)

/-! ### Arguments -/

/-- A file that is named for the first time is added to those of the program. -/
lemma yields_target (name : Text) (place : Location) :
    Yields (target name place) fun d t d' => ∃ files, Names d.outputFiles (some t) files ∧
      d' = { d with outputFiles := files } := by
  refine Yields.ite (fun _ => Yields.pure fun d => ⟨_, .inl ⟨rfl, by simp⟩, rfl⟩) fun _ => ?_
  refine Yields.ite (fun _ => Yields.pure fun d => ⟨_, .inl ⟨rfl, by simp⟩, rfl⟩) fun _ => ?_
  refine Yields.get fun p => ?_
  dsimp only
  split
  · rename_i i hi
    refine Yields.pure fun d hd => ⟨_, .inl ⟨rfl, ?_⟩, rfl⟩
    rintro j hj
    cases hj
    rw [hd]
    exact (List.findIdx?_eq_some_iff_getElem.1 hi).1
  · rename_i hnone
    intro q t q' hq hd
    cases hq
    have hfiles : q.outputFiles = p.outputFiles := congrArg Draft.outputFiles hd
    refine ⟨p.outputFiles ++ [⟨name, place⟩], .inr ⟨⟨name, place⟩, ?_, ?_, ?_⟩, rfl⟩
    · rw [← hfiles]
      rfl
    · rw [← hfiles]
      rfl
    · intro g hg
      have hmem : g ∈ p.outputFiles := by rwa [← hfiles]
      simpa using List.findIdx?_eq_none_iff.1 hnone g hmem

/-- An argument that names no output file. -/
def Plain (d : Draft) (a : Action) (d' : Draft) : Prop := a.Read ∧ a.target? = none ∧ d' = d

lemma yields_textArgument (letter : Char) : Yields (textArgument letter) Plain := by
  refine Yields.after keeps_advance fun _ => Yields.after (keeps_isAt _) fun _ => ?_
  refine Yields.ite (fun _ => Yields.after keeps_advance fun _ => ?_) fun _ => ?_
  all_goals
    refine Yields.after keeps_get fun _ => Yields.ite (fun _ => yields_complain _) fun _ => ?_
    refine Yields.ite (fun _ => yields_complain _) fun _ => ?_
    refine Yields.after keeps_advance fun _ => Yields.after (keeps_isAt _) fun _ => ?_
    refine Yields.ite (fun _ => yields_complain _) fun _ => ?_
    split <;> exact Yields.pure fun d => ⟨trivial, rfl, rfl⟩

lemma yields_transliteration : Yields transliteration Plain := by
  refine Yields.after (keeps_fields _) fun _ => Yields.ite (fun _ => yields_complain _) fun _ => ?_
  exact Yields.after (keeps_advanceIn _) fun _ => Yields.pure fun d => ⟨trivial, rfl, rfl⟩

lemma yields_numberArgument (letter : Char) : Yields (numberArgument letter) Plain := by
  have hend : ∀ n : Option ℕ, Yields (if letter = 'l' then Pure.pure (Action.list n)
      else if n.getD 0 < exitCodeLimit then Pure.pure (Action.quit (n.getD 0) (letter = 'q'))
        else complain .invalidExitCode) Plain := fun n =>
    Yields.ite (fun _ => Yields.pure fun d => ⟨trivial, rfl, rfl⟩) fun _ =>
      Yields.ite (fun _ => Yields.pure fun d => ⟨trivial, rfl, rfl⟩) fun _ => yields_complain _
  refine Yields.after keeps_advance fun _ => Yields.after (keeps_isAt _) fun _ => ?_
  refine Yields.ite (fun _ => Yields.after keeps_number fun _ => ?_) fun _ => ?_
  · exact Yields.after keeps_advance fun _ => hend _
  · exact hend none

/-- A flag that is a letter says nothing about the first match, nor about files. -/
lemma eq_of_add? {f f' : SubstitutionFlags} {letter : Char} (h : f.add? letter = .ok f') :
    f'.occurrence = f.occurrence ∧ f'.write = f.write := by
  unfold SubstitutionFlags.add? at h
  split at h
  all_goals first
    | (split at h <;> cases h; exact ⟨rfl, rfl⟩)
    | (cases h; exact ⟨rfl, rfl⟩)
    | cases h

/-- The flags of a substitution count matches from one. -/
lemma yields_substitutionFlags (place : Location) (fuel : ℕ) (flags : SubstitutionFlags)
    (hpos : 1 ≤ flags.occurrence.getD 1) (hwrite : flags.write = none) :
    Yields (substitutionFlags place fuel flags) fun d f d' => 1 ≤ f.occurrence.getD 1 ∧
      ∃ files, Names d.outputFiles f.write files ∧ d' = { d with outputFiles := files } := by
  have hdone : ∀ f : SubstitutionFlags, 1 ≤ f.occurrence.getD 1 → f.write = none →
      Yields (Pure.pure f) fun d f d' => 1 ≤ f.occurrence.getD 1 ∧
        ∃ files, Names d.outputFiles f.write files ∧ d' = { d with outputFiles := files } := by
    intro f hf hw
    exact Yields.pure fun d => ⟨hf, d.outputFiles, by rw [hw]; exact names_none _, rfl⟩
  induction fuel generalizing flags with
  | zero => exact hdone flags hpos hwrite
  | succ fuel ih =>
      refine Yields.after keeps_get fun _ => ?_
      split
      · refine Yields.ite (fun _ => yields_complain _) fun _ => ?_
        refine Yields.after keeps_number fun n => Yields.ite (fun _ => yields_complain _)
          fun hn => ?_
        refine Yields.after keeps_advance fun _ => ih _ ?_ hwrite
        exact Nat.one_le_iff_ne_zero.2 hn
      · refine Yields.after keeps_currentChar fun letter => Yields.ite (fun _ => ?_) fun _ => ?_
        · refine Yields.after keeps_fileName fun name => (yields_target name place).bind ?_
          rintro d t d₁ ⟨files, hnames, rfl⟩
          exact Yields.pure fun d₂ hd => ⟨hpos, files, hnames, hd⟩
        · split
          · rename_i flags' hadd
            refine Yields.after keeps_advance fun _ => ih _ ?_ ?_
            · rwa [(eq_of_add? hadd).1]
            · rwa [(eq_of_add? hadd).2]
          · exact yields_complain _
      · exact hdone flags hpos hwrite

/-- The argument of a command names an output file at most. -/
def Names.Argument (d : Draft) (a : Action) (d' : Draft) : Prop :=
  a.Read ∧ ∃ files, Names d.outputFiles a.target? files ∧ d' = { d with outputFiles := files }

lemma Plain.argument {d : Draft} {a : Action} {d' : Draft} (h : Plain d a d') :
    Names.Argument d a d' := by
  obtain ⟨hread, hnone, rfl⟩ := h
  exact ⟨hread, _, by rw [hnone]; exact names_none _, rfl⟩

lemma yields_substitution (place : Location) :
    Yields (substitution place) Names.Argument := by
  refine Yields.after (keeps_fields _) fun (pattern, replacement) => ?_
  refine Yields.after keeps_advance fun _ => Yields.after keeps_get fun p => ?_
  refine (yields_substitutionFlags _ _ _ le_rfl rfl).bind ?_
  rintro d flags d₁ ⟨hpos, files, hnames, rfl⟩
  refine Yields.after (keeps_isAt _) fun _ => Yields.ite (fun _ => ?_) fun _ => ?_
  · exact Yields.after keeps_currentChar fun _ => yields_complain _
  · refine Yields.after (keeps_compilePattern _ _) fun regex =>
      Yields.ite (fun _ => ?_) fun hgroup => ?_
    · exact yields_complainOf _ _ _
    · refine Yields.pure fun d₂ hd => ⟨⟨hpos, ?_⟩, files, hnames, hd⟩
      rintro re rfl
      simpa using hgroup

lemma yields_argument (letter : Char) (place : Location) (kind : Argument) :
    Yields (argument letter place kind) Names.Argument := by
  have hplain : ∀ a : Action, a.Read → a.target? = none → Yields (Pure.pure a) Names.Argument :=
    fun a hread hnone => Yields.pure fun d => Plain.argument ⟨hread, hnone, rfl⟩
  cases kind with
  | nothing =>
      refine Yields.after (keeps_advanceIn _) fun _ => ?_
      unfold plainAction
      split <;> exact hplain _ trivial rfl
  | label =>
      refine Yields.after keeps_advance fun _ => Yields.after (keeps_literalIf _) fun _ => ?_
      exact hplain _ rfl rfl
  | number => exact (yields_numberArgument letter).mono fun _ _ _ => Plain.argument
  | readName =>
      refine Yields.after keeps_fileName fun name => ?_
      split <;> exact hplain _ trivial rfl
  | writeName =>
      refine Yields.after keeps_fileName fun name => (yields_target name place).bind ?_
      rintro d t d₁ ⟨files, hnames, rfl⟩
      split <;> exact Yields.pure fun d₂ hd => ⟨trivial, files, hnames, hd⟩
  | text => exact (yields_textArgument letter).mono fun _ _ _ => Plain.argument
  | substitution => exact yields_substitution place
  | transliteration => exact yields_transliteration.mono fun _ _ _ => Plain.argument

/-! ### Statements -/

lemma yields_push (c : Command) :
    Yields (push c) fun d _ d' => d' = { d with commands := d.commands ++ [c] } :=
  Yields.modify fun _ => rfl

lemma yields_command (s : Selection) (negated : Bool) (place : Location) :
    Yields (command s negated place) fun d _ d' => ∃ c : Command, c.selection = s ∧ c.action.Read ∧
      ∃ files, Names d.outputFiles c.action.target? files ∧
        d' = { d with commands := d.commands ++ [c], outputFiles := files } := by
  refine Yields.after keeps_get fun p => Yields.after keeps_currentChar fun letter => ?_
  split
  · exact yields_complain _
  · rename_i kind addresses _
    refine Yields.ite (fun _ => yields_complain _) fun _ => ?_
    refine (yields_argument letter place kind).bind ?_
    rintro d a d₁ ⟨hread, files, hnames, rfl⟩
    refine (yields_push _).mono ?_
    rintro d₂ _ d' rfl rfl
    exact ⟨⟨letter, s, negated, a, place⟩, rfl, hread, files, hnames, rfl⟩

lemma yields_label (s : Selection) (place : Location) :
    Yields (label s place) fun d _ d' => ∃ c : Command, c.selection = s ∧ c.action.Read ∧
      ∃ files, Names d.outputFiles c.action.target? files ∧
        d' = { d with commands := d.commands ++ [c], outputFiles := files } := by
  refine Yields.ite (fun _ => yields_complain _) fun _ => ?_
  refine Yields.after keeps_advance fun _ => Yields.after keeps_get fun p => ?_
  refine Yields.ite (fun _ => ?_) fun _ => yields_complain _
  refine (yields_push _).bind ?_
  rintro d _ d₁ rfl
  refine (keeps_bind keeps_advance fun _ => keeps_expectEnd).mono ?_
  rintro d₂ _ d' rfl rfl
  exact ⟨⟨':', s, false, .label p.token.literal, place⟩, rfl, trivial, _, names_none _, rfl⟩

lemma yields_openBlock (s : Selection) (negated : Bool) (place : Location) :
    Yields (openBlock s negated place) fun d _ d' => ∃ c : Command, c.selection = s ∧
      c.action = .block 0 ∧ d' = { d with
        commands := d.commands ++ [c]
        openBlocks := d.commands.length :: d.openBlocks } := by
  intro p _ p' hp
  cases hp
  exact ⟨_, rfl, rfl, rfl⟩

/-- A statement takes one step. -/
lemma yields_statement : Yields statement fun d _ d' => d.Step d' := by
  refine yields_selection.bind ?_
  rintro d s d₁ ⟨hzero, ranges, hcounted, rfl⟩
  refine Yields.after keeps_negation fun negated => Yields.after keeps_get fun p => ?_
  have hadded : ∀ d₂ d' : Draft, (∃ c : Command, c.selection = s ∧ c.action.Read ∧
      ∃ files, Names d₂.outputFiles c.action.target? files ∧
        d' = { d₂ with commands := d₂.commands ++ [c], outputFiles := files }) →
      d₂ = { d with rangeCount := ranges } → d.Step d' := by
    rintro d₂ d' ⟨c, rfl, hread, files, hnames, rfl⟩ rfl
    exact .command hzero hread hcounted hnames
  split
  · refine (yields_openBlock s negated p.place).mono ?_
    rintro d₂ _ d' ⟨c, rfl, hblock, rfl⟩ rfl
    exact .openBlock hzero hblock hcounted
  · exact (yields_label s p.place).mono fun d₂ _ d' => hadded d₂ d'
  · refine (yields_command s negated p.place).bind fun d₂ _ d₃ hd => ?_
    exact keeps_expectEnd.mono fun d₄ _ d' hkeep he => by
      subst he hkeep
      exact hadded d₂ _ hd
  all_goals first
    | exact yields_complain _
    | exact Yields.after keeps_currentChar fun _ => yields_complain _

/-- A closing brace takes one step. -/
lemma yields_closeBlock : Yields closeBlock fun d _ d' => d.Step d' := by
  intro p _ p' h
  obtain ⟨_, _, h₁, h⟩ := run_bind_eq_ok.1 h
  cases h₁
  split at h
  · exact yields_complain (Q := fun d _ d' => d.Step d') _ _ _ _ h
  · rename_i block outer hopen
    obtain ⟨_, q, hq, h⟩ := run_bind_eq_ok.1 h
    cases hq
    obtain ⟨_, r, hr, h⟩ := run_bind_eq_ok.1 h
    cases hr
    rw [(keeps_bind keeps_advance fun _ => keeps_expectEnd) _ _ _ h]
    exact .closeBlock hopen rfl rfl

/-- Reading statements takes any number of steps. -/
lemma yields_statements (fuel : ℕ) :
    Yields (statements fuel) fun d _ d' => Relation.ReflTransGen Draft.Step d d' := by
  induction fuel with
  | zero => exact Yields.pure fun _ => .refl
  | succ fuel ih =>
      refine Yields.after keeps_get fun p => ?_
      have hmore : ∀ m : Parse Unit, (Yields m fun d _ d' => d.Step d') →
          Yields (m >>= fun _ => statements fuel)
            fun d _ d' => Relation.ReflTransGen Draft.Step d d' := fun m hm =>
        hm.bind fun d _ d₁ hstep => ih.mono fun d₂ _ d' hsteps he => by
          subst he
          exact .head hstep hsteps
      split
      · exact Yields.after keeps_advance fun _ => ih
      · exact Yields.after keeps_advance fun _ => ih
      · exact Yields.pure fun _ => .refl
      · exact hmore _ yields_closeBlock
      · exact hmore _ yields_statement

/-- A script is read by steps, and in the end no block is open. -/
lemma yields_wholeScript :
    Yields wholeScript fun d _ d' => Relation.ReflTransGen Draft.Step d d' ∧
    d'.openBlocks = [] := by
  refine Yields.after keeps_get fun p => (yields_statements p.bound).bind fun d _ d₁ hsteps => ?_
  refine Yields.get fun q => ?_
  split
  · rename_i hopen
    refine Yields.pure fun d₂ hq he => ?_
    subst he
    exact ⟨hsteps, by rw [hq]; exact hopen⟩
  · exact Yields.throw _

end Parser

end StreamEditor
