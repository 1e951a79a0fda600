import StreamEditor.Proofs.Parser.Settled
import StreamEditor.Proofs.Parser.Tandem

/-!
Programs read under restrictions.

* `Program.Closed`: no command reads or writes a file by name; so it is of programs that are read in
  a sandbox (`Program.closed_of_parse`).
* `Program.freer`: a script under options of which some restrict it less. Without the sandbox it is
  read as the same program (`Program.parse_unsandboxed`), and without the standard too, but for its
  texts (`Program.parse_beyond_standard`).
-/

namespace StreamEditor

variable {library : Regex.Library}

/-! ### Files -/

/-- The file that a command reads by name. -/
def Action.source? : Action → Option Text
  | .appendFile name | .appendFileLine name => some name
  | _ => none

/-- The command neither reads nor writes a file by name. -/
structure Command.Closed (c : Command) : Prop where
  letter : c.letter ∉ ['r', 'R', 'w', 'W']
  source : c.action.source? = none
  target : c.action.target? = none

/-- No file is opened for the program, and no command names one. -/
structure Program.Closed (p : Program) : Prop where
  outputFiles : p.outputFiles = []
  commands : ∀ c ∈ p.commands, c.Closed

/-- The command without the text that it prints. -/
def Command.untexted (c : Command) : Command := { c with action := c.action.untexted }

/-- The program without the texts that its commands print. -/
def Program.untexted (p : Program) : Program :=
  { p with commands := p.commands.map Command.untexted }

lemma Command.Closed.resolve {labels : List (Text × ℕ)} {c : Command} (h : c.Closed) :
    (Program.resolve labels c).Closed := by
  rw [Program.resolve]
  split
  · exact ⟨h.letter, rfl, rfl⟩
  · exact h

/-- The letters of the commands that name a file. -/
lemma Argument.not_mem_of_ofLetter? {posix : Bool} {letter : Char} {kind : Argument} {addresses : ℕ}
    (h : ofLetter? posix letter = some (kind, addresses)) (hread : kind ≠ .readName)
    (hwrite : kind ≠ .writeName) : letter ∉ ['r', 'R', 'w', 'W'] := by
  intro hmem
  simp only [List.mem_cons, List.not_mem_nil, or_false] at hmem
  rcases hmem with rfl | rfl | rfl | rfl <;> cases h
  · exact hread rfl
  · exact hread rfl
  · exact hwrite rfl
  · exact hwrite rfl

/-- In a sandbox no action names a file. -/
lemma Argument.Writes.closed {o : Options} {letter : Char} {kind : Argument} {a : Action}
    (h : kind.Writes o letter a) (ho : o.sandbox = true) :
    (kind ≠ .readName ∧ kind ≠ .writeName) ∧ a.source? = none ∧ a.target? = none := by
  have hopen {P : Prop} (h : o.sandbox = false) : P := by
    rw [ho] at h
    cases h
  cases kind with
  | nothing =>
      obtain rfl : a = Parser.plainAction letter := h
      refine ⟨by decide, ?_, ?_⟩ <;> unfold Parser.plainAction <;> split <;> rfl
  | label =>
      obtain ⟨goal, rfl, -⟩ := h
      exact ⟨by decide, rfl, rfl⟩
  | number =>
      rw [Argument.Writes] at h
      split at h <;> obtain ⟨_, rfl, -⟩ := h <;> exact ⟨by decide, rfl, rfl⟩
  | readName | writeName => exact hopen h.1
  | substitution =>
      obtain ⟨s, rfl, -, hwrite⟩ := h
      refine ⟨by decide, rfl, ?_⟩
      rw [Action.target?, ← Option.not_isSome_iff_eq_none]
      exact fun hsome => hopen (hwrite hsome)
  | text =>
      obtain ⟨text, rfl⟩ := h
      refine ⟨by decide, ?_, ?_⟩ <;> unfold Action.ofText <;> split <;> rfl
  | transliteration =>
      obtain ⟨y, rfl, -⟩ := h
      exact ⟨by decide, rfl, rfl⟩

/-- In a sandbox no command names a file. -/
lemma Command.Writable.closed {o : Options} {c : Command} (h : c.Writable o)
    (ho : o.sandbox = true) : c.Closed := by
  cases h with
  | openBlock hletter haction | closeBlock hletter haction =>
      exact ⟨by simp [hletter], by rw [haction]; rfl, by rw [haction]; rfl⟩
  | label hletter haction => exact ⟨by simp [hletter], by rw [haction]; rfl, by rw [haction]; rfl⟩
  | command hletter haction =>
      obtain ⟨⟨hread, hwrite⟩, hsource, htarget⟩ := haction.closed ho
      exact ⟨Argument.not_mem_of_ofLetter? hletter hread hwrite, hsource, htarget⟩

namespace Program

/-- In a sandbox no file is named. -/
lemma closed_of_parse {script : Script} {o : Options} {p : Program}
    (h : parse script o = .ok p) (ho : o.sandbox = true) : p.Closed := by
  have hcommands : ∀ c ∈ p.commands, c.Closed := by
    obtain ⟨q, labels, hrun, -, -, rfl⟩ := parse_eq_ok h
    intro c hc
    obtain ⟨c₀, hc₀, rfl⟩ := List.mem_map.1 hc
    exact (((Parser.settled_of_wholeScript hrun).commands c₀ hc₀).closed ho).resolve
  refine ⟨List.eq_nil_iff_length_eq_zero.2 (Nat.eq_zero_of_not_pos fun hpos => ?_), hcommands⟩
  -- every file of the program is written by one of its commands
  obtain ⟨c, hc, htarget⟩ := (wellFormed_of_parse h).files 0 hpos
  rw [(hcommands c hc).target] at htarget
  cases htarget

/-! ### Fewer restrictions -/

/-- A script that is read by itself in step, under freer options. -/
def freer (script : Script) (o o' : Options) (hextended : o'.extended = o.extended)
    (hsandbox : o'.sandbox = true → o.sandbox = true) (hposix : o'.posix = true → o.posix = true) :
    Parser.Tandem where
  script
  script' := script
  options := o
  options' := o'
  scanners := Eq
  places := Eq
  extended := hextended
  sandbox := hsandbox
  posix := hposix
  next := fun h => ⟨by rw [h], by rw [h]⟩
  ending := fun h => by rw [h]
  bound := fun h => by rw [h]
  place := fun h => by rw [h]

variable {script : Script} {o o' : Options} {p p' : Program}

/-- A script that can be read can be read under freer options. -/
lemma matched_of_parse (h : parse script o = .ok p) (o' : Options)
    (hextended : o'.extended = o.extended) (hsandbox : o'.sandbox = true → o.sandbox = true)
    (hposix : o'.posix = true → o.posix = true) :
    ∃ p', parse script o' = .ok p' ∧
      Matched (freer script o o' hextended hsandbox hposix) p p' := by
  have hends := ends_parse (T := freer script o o' hextended hsandbox hposix) rfl
    (Parser.Tandem.agree_wholeScript _ _ (Parser.Tandem.tied_start rfl))
  change Parser.Tandem.Ends _ _ (parse script o) (parse script o') at hends
  rw [h] at hends
  generalize parse script o' = r at hends ⊢
  cases hends with
  | ok hmatched => exact ⟨_, rfl, hmatched⟩

section Matched

variable {hextended : o'.extended = o.extended}
  {hsandbox : o'.sandbox = true → o.sandbox = true} {hposix : o'.posix = true → o.posix = true}

/-- The programs differ in what their commands do at most. -/
lemma Matched.eq_with (h : Matched (freer script o o' hextended hsandbox hposix) p p') :
    p' = { p with commands := p'.commands } := by
  have hfiles : p'.outputFiles.map id = p.outputFiles.map id :=
    map_eq_of_forall₂ h.outputFiles fun f f' hf =>
      (congrArg₂ OutputFile.mk hf.name.symm hf.place).symm
  rw [List.map_id, List.map_id] at hfiles
  rw [← hfiles, ← h.labels, ← h.rangeCount, ← h.quiet]

/-- Where the standard is taken in the same way nothing differs. -/
lemma Matched.eq (h : Matched (freer script o o' hextended hsandbox hposix) p p')
    (hsame : o'.posix = o.posix) : p' = p := by
  have hcommands : p'.commands.map id = p.commands.map id :=
    map_eq_of_forall₂ h.commands fun c c' hc => (Command.mk.injEq ..).mpr
      ⟨hc.letter, hc.selection, hc.negated, hc.action.eq hsame, hc.place.symm⟩
  rw [List.map_id, List.map_id] at hcommands
  rw [h.eq_with, hcommands]

/-- At most the texts differ. -/
lemma Matched.untexted (h : Matched (freer script o o' hextended hsandbox hposix) p p') :
    p'.untexted = p.untexted := by
  have hcommands : p'.commands.map Command.untexted = p.commands.map Command.untexted :=
    map_eq_of_forall₂ h.commands fun c c' hc => (Command.mk.injEq ..).mpr
      ⟨hc.letter, hc.selection, hc.negated, hc.action.untexted, hc.place.symm⟩
  rw [Program.untexted, Program.untexted, hcommands, h.eq_with]

end Matched

/-- A script that can be read is read as the same program outside a sandbox, as long as the notation
and the standard are the same. -/
lemma parse_of_freer (h : parse script o = .ok p) (hextended : o'.extended = o.extended)
    (hsandbox : o'.sandbox = true → o.sandbox = true) (hposix : o'.posix = o.posix) :
    parse script o' = .ok p := by
  obtain ⟨p', hp', hmatched⟩ := matched_of_parse h o' hextended hsandbox fun h => hposix ▸ h
  rw [hp', hmatched.eq hposix]

/-- Without the sandbox the program is the same. -/
lemma parse_unsandboxed (h : parse script o = .ok p) :
    parse script { o with sandbox := false } = .ok p := parse_of_freer h rfl nofun rfl

/-- Without the standard the program is the same but for its texts. -/
lemma parse_beyond_standard (h : parse script o = .ok p) :
    ∃ p', parse script { o with posix := false } = .ok p' ∧ p'.untexted = p.untexted := by
  have hfree : ({ o with posix := false } : Options).posix = true → o.posix = true := nofun
  obtain ⟨p', hp', hmatched⟩ := matched_of_parse h { o with posix := false } rfl id hfree
  exact ⟨p', hp', hmatched.untexted⟩

end Program

end StreamEditor
