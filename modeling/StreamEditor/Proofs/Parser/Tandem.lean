import StreamEditor.Proofs.Parser.Passage
import StreamEditor.Proofs.Program.Writable

/-!
Two readings that keep in step.

* `Parser.Tandem`: two scripts, under options of which the second may be freer, whose scanners stand
  alike; and which places count as the same.
* `Tandem.ofPlaces`: two scripts with the same text, the second with other places.
* `Tandem.Tied`: two states of the parser between which there is no other difference.
* `Tandem.Agree`: two parts that keep states tied. Where the first succeeds, so does the second, and
  with the same options they fail alike; the rules follow the ways in which parts are put together.
* `Tandem.agree_statements`, `Tandem.agree_wholeScript`: so do the statements of a script.
* `Program.ends_parse`: the programs are the same but for the texts of commands.
-/

namespace StreamEditor

variable {library : Regex.Library}

/-- The same failure, at places that count as the same. -/
inductive Failure.Alike (same : Location → Location → Prop) : Failure → Failure → Prop
  | script {place place' : Location} (reason : Text) (h : same place place') :
      Alike same (.script place reason) (.script place' reason)
  | command {place place' : Location} (phase : Phase) (letter : Char) (reason : Text)
      (h : same place place') :
      Alike same (.command phase place letter reason) (.command phase place' letter reason)
  | undefinedLabels {uses uses' : List (Location × Text)}
      (h : List.Forall₂ (fun u u' => same u.1 u'.1 ∧ u'.2 = u.2) uses uses') :
      Alike same (.undefinedLabels uses) (.undefinedLabels uses')

/-- The action without the text that it prints. -/
def Action.untexted : Action → Action
  | .append _ => .append []
  | .insert _ => .insert []
  | .change _ => .change []
  | a => a

/-- The action prints a text. -/
inductive Action.Texts : Action → Prop
  | append (text : Text) : Texts (.append text)
  | insert (text : Text) : Texts (.insert text)
  | change (text : Text) : Texts (.change text)

lemma Action.untexted_eq_or_texts (a : Action) : a.untexted = a ∨ a.Texts := by
  cases a with
  | append text => exact .inr (.append text)
  | insert text => exact .inr (.insert text)
  | change text => exact .inr (.change text)
  | _ => exact .inl rfl

lemma Action.Texts.untexted {a : Action} (h : a.Texts) : a.untexted.Texts := by
  cases h with
  | append text => exact .append []
  | insert text => exact .insert []
  | change text => exact .change []

lemma Action.texts_of_untexted {a : Action} (h : a.untexted.Texts) : a.Texts := by
  obtain he | htexts := a.untexted_eq_or_texts
  · rwa [he] at h
  · exact htexts

/-- If the actions differ in more than their texts, these are all they differ in. -/
lemma Action.eq_or_texts {a a' : Action} (h : a'.untexted = a.untexted) :
    a' = a ∨ a.Texts ∧ a'.Texts := by
  obtain ha | ha := a.untexted_eq_or_texts
  · obtain ha' | ha' := a'.untexted_eq_or_texts
    · exact .inl (by rw [← ha', h, ha])
    · exact .inr ⟨texts_of_untexted (h ▸ ha'.untexted), ha'⟩
  · exact .inr ⟨ha, texts_of_untexted (h ▸ ha.untexted)⟩

/-- With a laxer standard a letter stands for the same command, and allows no fewer addresses. -/
lemma Argument.ofLetter?_of_le {posix posix' : Bool} (h : posix' = true → posix = true)
    (letter : Char) :
    Option.Rel (fun found found' => found'.1 = found.1 ∧ found.2 ≤ found'.2)
      (ofLetter? posix letter) (ofLetter? posix' letter) := by
  have hbeyond : (if posix then 1 else 2) ≤ if posix' then 1 else 2 := by
    split
    · split <;> decide
    · rw [if_neg fun h' => absurd (h h') ‹_›]
  unfold ofLetter?
  generalize (if posix then 1 else 2) = n at hbeyond ⊢
  generalize (if posix' then 1 else 2) = n' at hbeyond ⊢
  dsimp only
  split <;> first | exact .none | exact .some ⟨rfl, le_rfl⟩ | exact .some ⟨rfl, hbeyond⟩

/-- In lists that are related so are elements at the same index. -/
lemma rel_getElem? {α β : Type} {R : α → β → Prop} {l : List α} {l' : List β}
    (h : List.Forall₂ R l l') (i : ℕ) : Option.Rel R l[i]? l'[i]? := by
  induction h generalizing i with
  | nil => exact .none
  | cons hab _ ih =>
      cases i with
      | zero => exact .some hab
      | succ i => exact ih i

/-- What is the same of elements that are related is the same of their lists. -/
lemma map_eq_of_forall₂ {α β γ : Type} {R : α → β → Prop} {l : List α} {l' : List β} {g : α → γ}
    {g' : β → γ} (h : List.Forall₂ R l l') (hg : ∀ a b, R a b → g' b = g a) :
    l'.map g' = l.map g := by
  induction h with
  | nil => rfl
  | cons hab _ ih => rw [List.map_cons, List.map_cons, hg _ _ hab, ih]

namespace Parser

open Token (Kind)

/-! ### What is left of a part -/

/-- What is left of an address behind the delimiter that closes its pattern. -/
def patternBehind [Regex.Library] (pattern : Text) : Parse Address := do
  let p ← get
  let options ← patternFlags p.bound ⟨p.options.extended, false, false⟩
  return .pattern (← compilePattern pattern options)

lemma patternAddress_eq : patternAddress = advance >>= fun _ => literalIf .text >>= fun found =>
    isAt .slash >>= fun closed => if closed then advance >>= fun _ => patternBehind (found.getD [])
      else complain .unterminatedAddress := rfl

/-- What is left of a selection behind its first address. -/
def selectionBehind [Regex.Library] (start : Address) : Parse Selection := do
  if ← isAt .comma then
    advance
    let stop ← rangeEnd
    if zeroAllowed start stop then
      let slot := (← get).rangeCount
      modify fun p => { p with rangeCount := slot + 1 }
      return .range start stop slot
    else complain .misplacedZero
  else
    match start with
    | .zero => complain .misplacedZero
    | _ => return .single start

lemma run_selection_of_address [Regex.Library] {p : Parser}
    (h : p.token.kind = .number ∨ p.token.kind = .dollar ∨ p.token.kind = .slash) :
    selection.run p = (address >>= selectionBehind).run p := by
  refine (run_get_bind _).trans ?_
  obtain h | h | h := h <;> rw [h] <;> rfl

/-- What is left of a substitution behind the delimiter that closes its fields. -/
def substitutionBehind [Regex.Library] (place : Location)
    (pattern replacement : Text) : Parse Action := do
  let p ← get
  let initial : SubstitutionFlags :=
    ⟨⟨p.options.extended, false, false⟩, none, false, false, none⟩
  let flags ← substitutionFlags place p.bound initial
  if ← isAt .illegal then complain (.invalidFlag (← currentChar))
  else
    let regex ← compilePattern pattern flags.pattern
    let template := Template.compile replacement
    if regex.any fun re => re.groupCount ≤ template.maxGroup then
      complainOf place 's' (.missingGroup template.maxGroup)
    else
      return .substitute {
        regex
        template
        occurrence := flags.occurrence.getD 1
        everywhere := flags.everywhere
        print := flags.print
        write := flags.write }

lemma substitution_eq (place : Location) : substitution place =
    fields 's' >>= fun texts => advance >>= fun _ => substitutionBehind place texts.1 texts.2 := rfl

/-- What is left of a statement behind its addresses. -/
def statementBehind [Regex.Library] (selection : Selection) : Parse Unit := do
  let negated ← negation
  let p ← get
  match p.token.kind with
  | .openBrace => openBlock selection negated p.place
  | .colon => label selection p.place
  | .command =>
      command selection negated p.place
      expectEnd
  | .closeBrace => complain .unexpectedClose
  | .newline | .semicolon | .eof => complain .missingCommand
  | _ => complain (.unknownCommand (← currentChar))

lemma statement_eq : statement = selection >>= statementBehind := rfl

/-- What is left of a script behind its statements: no block may be open. -/
def allClosed : Parse Unit := do
  let p ← get
  match p.openBlocks with
  | [] => return ()
  | block :: _ =>
      let place := ((p.commands[block]?).map (·.place)).getD p.place
      throw (.script place Complaint.unclosedBlock.message)

lemma wholeScript_eq : wholeScript = MonadState.get >>= fun p : Parser =>
    statements p.bound >>= fun _ => allClosed := rfl

/-! ### Tandems -/

/-- Two scripts that are read in step. -/
structure Tandem where
  script : Script
  script' : Script
  options : Options
  /-- The second reader may be freer. -/
  options' : Options
  /-- The scanners stand alike. -/
  scanners : Scanner → Scanner → Prop
  /-- The places count as the same. -/
  places : Location → Location → Prop
  extended : options'.extended = options.extended
  sandbox : options'.sandbox = true → options.sandbox = true
  posix : options'.posix = true → options.posix = true
  next : ∀ {s s' : Scanner}, scanners s s' →
    s'.next.1 = s.next.1 ∧ scanners s.next.2 s'.next.2
  ending : ∀ {s s' : Scanner}, scanners s s' →
    scanners { s with mode := .ending } { s' with mode := .ending }
  bound : ∀ {s s' : Scanner}, scanners s s' → s'.bound = s.bound
  place : ∀ {s s' : Scanner}, scanners s s' →
    places (script.location s.lineColumn.1 s.lineColumn.2)
      (script'.location s'.lineColumn.1 s'.lineColumn.2)

namespace Tandem

/-- Two scripts with the same text, the second with other places and under options that may be
freer. -/
def ofPlaces {script script' : Script} {f : Location → Location} {o o' : Options}
    (hextended : o'.extended = o.extended) (hsandbox : o'.sandbox = true → o.sandbox = true)
    (hposix : o'.posix = true → o.posix = true)
    (h : ∀ line column, script'.location line column = f (script.location line column)) :
    Tandem where
  script := script
  script' := script'
  options := o
  options' := o'
  scanners s s' := s' = s
  places l l' := l' = f l
  extended := hextended
  sandbox := hsandbox
  posix := hposix
  next := by
    rintro s _ rfl
    exact ⟨rfl, rfl⟩
  ending := by
    rintro s _ rfl
    rfl
  bound := by
    rintro s _ rfl
    rfl
  place := by
    rintro s _ rfl
    exact h _ _

/-! ### What is read -/

/-- The same action. If the readers take the standard differently, texts may differ. -/
structure Actions (T : Tandem) (a a' : Action) : Prop where
  untexted : a'.untexted = a.untexted
  eq : T.options'.posix = T.options.posix → a' = a

/-- The same command. -/
structure Commands (T : Tandem) (c c' : Command) : Prop where
  letter : c'.letter = c.letter
  selection : c'.selection = c.selection
  negated : c'.negated = c.negated
  action : T.Actions c.action c'.action
  place : T.places c.place c'.place

/-- The same output file. -/
structure Files (T : Tandem) (f f' : OutputFile) : Prop where
  name : f'.name = f.name
  place : T.places f.place f'.place

/-- What is read is the same. -/
structure Drafts (T : Tandem) (d d' : Draft) : Prop where
  commands : List.Forall₂ T.Commands d.commands d'.commands
  outputFiles : List.Forall₂ T.Files d.outputFiles d'.outputFiles
  rangeCount : d'.rangeCount = d.rangeCount
  openBlocks : d'.openBlocks = d.openBlocks

/-- Two states that are alike. -/
structure Tied (T : Tandem) (p p' : Parser) : Prop where
  script : p.script = T.script
  script' : p'.script = T.script'
  options : p.options = T.options
  options' : p'.options = T.options'
  scanner : T.scanners p.scanner p'.scanner
  token : p'.token = p.token
  drafts : T.Drafts p.draft p'.draft

/-- How two readings end: both give what is in the relation `Q`, or both fail. Under options that
differ the first may fail alone. -/
inductive Ends (T : Tandem) {α : Type} (Q : α → α → Prop) :
    Except Failure α → Except Failure α → Prop
  | ok {a a' : α} (h : Q a a') : T.Ends Q (.ok a) (.ok a')
  | error {f f' : Failure} (h : f.Alike T.places f') : T.Ends Q (.error f) (.error f')
  | stricter (f : Failure) (r : Except Failure α) (h : T.options' ≠ T.options) :
      T.Ends Q (.error f) r

/-- From two states `m` and `m'` give results in the relation `V` and leave states that are tied. -/
def AgreeAt (T : Tandem) {α : Type} (V : α → α → Prop) (m m' : Parse α) (p p' : Parser) : Prop :=
  T.Ends (fun r r' => V r.1 r'.1 ∧ T.Tied r.2 r'.2) (m.run p) (m'.run p')

/-- From states that are tied `m` and `m'` give results in the relation `V` and leave states that
are tied. -/
def Agree (T : Tandem) {α : Type} (V : α → α → Prop) (m m' : Parse α) : Prop :=
  ∀ p p', T.Tied p p' → T.AgreeAt V m m' p p'

variable {T : Tandem}

/-! ### Rules -/

section Rules

variable {α β : Type} {V : α → α → Prop} {W : β → β → Prop} {m m' n n' : Parse α}
  {f f' : α → Parse β} {p p' : Parser}

lemma AgreeAt.pure {a a' : α} (h : T.Tied p p') (hV : V a a') :
    T.AgreeAt V (Pure.pure a) (Pure.pure a') p p' := .ok ⟨hV, h⟩

lemma Agree.pure {a a' : α} (hV : V a a') : T.Agree V (Pure.pure a) (Pure.pure a') :=
  fun _ _ h => .pure h hV

lemma AgreeAt.bind (hm : T.AgreeAt V m m' p p')
    (hf : ∀ a a', V a a' → T.Agree W (f a) (f' a')) :
    T.AgreeAt W (m >>= f) (m' >>= f') p p' := by
  rw [AgreeAt] at hm ⊢
  rw [run_bind, run_bind]
  generalize m.run p = r at hm ⊢
  generalize m'.run p' = r' at hm ⊢
  cases hm with
  | ok h => exact hf _ _ h.1 _ _ h.2
  | error h => exact .error h
  | stricter fault r h => exact .stricter fault _ h

lemma Agree.bind (hm : T.Agree V m m') (hf : ∀ a a', V a a' → T.Agree W (f a) (f' a')) :
    T.Agree W (m >>= f) (m' >>= f') := fun _ _ h => (hm _ _ h).bind hf

/-- Results that are the same are handed on. -/
lemma Agree.and (hm : T.Agree Eq m m') (hf : ∀ a, T.Agree W (f a) (f' a)) :
    T.Agree W (m >>= f) (m' >>= f') := by
  refine hm.bind ?_
  rintro a _ rfl
  exact hf a

lemma Agree.ite {c : Prop} [Decidable c] (h : T.Agree V m m') (h' : T.Agree V n n') :
    T.Agree V (if c then m else n) (if c then m' else n') := by
  split
  · exact h
  · exact h'

lemma Agree.get {f f' : Parser → Parse β}
    (h : ∀ p p', T.Tied p p' → T.AgreeAt W (f p) (f' p') p p') :
    T.Agree W (MonadState.get >>= f) (MonadState.get >>= f') := h

lemma Agree.modify {g g' : Parser → Parser} (h : ∀ p p', T.Tied p p' → T.Tied (g p) (g' p')) :
    T.Agree Eq (modify g) (modify g') := fun p p' hp => .ok ⟨rfl, h p p' hp⟩

lemma Tied.place (h : T.Tied p p') : T.places p.place p'.place := by
  have hplace := T.place h.scanner
  rw [← h.script, ← h.script'] at hplace
  exact hplace

lemma agree_complain (c : Complaint) : T.Agree V (complain c) (complain c) :=
  fun _ _ h => .error (.script _ h.place)

lemma agree_complainOf {place place' : Location} (h : T.places place place') (letter : Char)
    (c : Complaint) : T.Agree V (complainOf place letter c) (complainOf place' letter c) :=
  fun _ _ _ => .error (.command _ _ _ h)

/-- What the second reader complains about the first does too. If the first does so alone the
options differ. -/
lemma Agree.guard {c c' : Prop} [Decidable c] [Decidable c'] (k : Complaint) (hc : c' → c)
    (hne : c → ¬c' → T.options' ≠ T.options) (h : T.Agree V m m') :
    T.Agree V (if c then complain k else m) (if c' then complain k else m') := by
  by_cases h₁ : c
  · by_cases h₂ : c'
    · rw [if_pos h₁, if_pos h₂]
      exact agree_complain k
    · rw [if_pos h₁]
      exact fun _ _ _ => .stricter _ _ (hne h₁ h₂)
  · rw [if_neg h₁, if_neg fun h₂ => h₁ (hc h₂)]
    exact h

end Rules

/-! ### Tokens -/

lemma Tied.advanced {p p' : Parser} (h : T.Tied p p') : T.Tied p.advanced p'.advanced := by
  obtain ⟨htoken, hscanner⟩ := T.next h.scanner
  exact ⟨h.script, h.script', h.options, h.options', hscanner, htoken, h.drafts⟩

lemma Tied.bound {p p' : Parser} (h : T.Tied p p') : p'.bound = p.bound :=
  congrArg (· + 1) (T.bound h.scanner)

lemma agree_advance : T.Agree Eq advance advance := .modify fun _ _ h => h.advanced

lemma agree_advanceIn_ending : T.Agree Eq (advanceIn .ending) (advanceIn .ending) :=
  .modify fun _ _ h => Tied.advanced
    ⟨h.script, h.script', h.options, h.options', T.ending h.scanner, h.token, h.drafts⟩

lemma agree_isAt (kind : Kind) : T.Agree Eq (isAt kind) (isAt kind) :=
  .get fun p p' h => .pure h (by rw [h.token])

lemma agree_currentChar : T.Agree Eq currentChar currentChar :=
  .get fun p p' h => .pure h (by rw [h.token])

lemma agree_literalIf (kind : Kind) : T.Agree Eq (literalIf kind) (literalIf kind) := by
  refine .get fun p p' h => ?_
  rw [h.token]
  exact Agree.ite (agree_advance.and fun _ => .pure rfl) (.pure rfl) _ _ h

lemma agree_expectEnd : T.Agree Eq expectEnd expectEnd := by
  refine .get fun p p' h => ?_
  rw [h.token]
  exact Agree.ite (.pure rfl) (agree_complain _) _ _ h

/-! ### Numbers and addresses -/

lemma agree_number : T.Agree Eq number number := by
  refine .get fun p p' h => ?_
  rw [h.token]
  exact Agree.ite (.pure rfl) (agree_complain _) _ _ h

lemma agree_numberAfter : T.Agree Eq numberAfter numberAfter := by
  refine agree_advance.and fun _ => (agree_isAt _).and fun _ => .ite ?_ (agree_complain _)
  exact agree_number.and fun n => agree_advance.and fun _ => .pure rfl

lemma agree_compilePattern (pattern : Text) (o : Regex.Options) :
    T.Agree Eq (compilePattern pattern o) (compilePattern pattern o) := by
  refine .ite (.ite (agree_complain _) (.pure rfl)) ?_
  split
  · exact .pure rfl
  · exact agree_complain _

lemma agree_patternFlags (fuel : ℕ) (o : Regex.Options) :
    T.Agree Eq (patternFlags fuel o) (patternFlags fuel o) := by
  induction fuel generalizing o with
  | zero => exact .pure rfl
  | succ fuel ih =>
      refine (agree_isAt _).and fun _ => .ite ?_ (.pure rfl)
      exact agree_currentChar.and fun _ => agree_advance.and fun _ => ih _

lemma agree_patternBehind (pattern : Text) :
    T.Agree Eq (patternBehind pattern) (patternBehind pattern) := by
  refine .get fun p p' h => ?_
  rw [h.bound, h.options, h.options', T.extended]
  exact (agree_patternFlags _ _).and (fun _ => (agree_compilePattern _ _).and fun _ => .pure rfl)
    _ _ h

lemma agree_patternAddress : T.Agree Eq patternAddress patternAddress := by
  rw [patternAddress_eq]
  refine agree_advance.and fun _ => (agree_literalIf _).and fun _ => (agree_isAt _).and fun _ => ?_
  exact .ite (agree_advance.and fun _ => agree_patternBehind _) (agree_complain _)

lemma agree_numberAddress : T.Agree Eq numberAddress numberAddress := by
  refine agree_number.and fun first => agree_advance.and fun _ => (agree_isAt _).and fun _ => ?_
  exact .ite (agree_numberAfter.and fun _ => .pure rfl) (.pure rfl)

lemma agree_address : T.Agree Eq address address := by
  refine .get fun p p' h => ?_
  rw [h.token]
  split
  · exact agree_advance.and (fun _ => .pure rfl) _ _ h
  · exact agree_numberAddress _ _ h
  · exact agree_patternAddress _ _ h

lemma agree_rangeEnd : T.Agree Eq rangeEnd rangeEnd := by
  refine .get fun p p' h => ?_
  rw [h.token]
  split
  case h_6 => exact agree_complain _ _ _ h
  case h_1 | h_2 => exact agree_numberAfter.and (fun _ => .pure rfl) _ _ h
  all_goals exact agree_address.and (fun _ => .pure rfl) _ _ h

lemma agree_selectionBehind (start : Address) :
    T.Agree Eq (selectionBehind start) (selectionBehind start) := by
  have hcounted {p p' : Parser} (h : T.Tied p p') {n : ℕ} (hn : n = p.rangeCount) :
      T.Tied { p with rangeCount := n + 1 } { p' with rangeCount := n + 1 } :=
    ⟨h.script, h.script', h.options, h.options', h.scanner, h.token,
      h.drafts.commands, h.drafts.outputFiles, rfl, h.drafts.openBlocks⟩
  refine (agree_isAt _).and fun _ => .ite ?_ ?_
  · refine agree_advance.and fun _ => agree_rangeEnd.and fun stop => .ite ?_ (agree_complain _)
    refine .get fun p p' h => ?_
    have hranges : p'.rangeCount = p.rangeCount := h.drafts.rangeCount
    rw [hranges]
    exact .ok ⟨rfl, hcounted h rfl⟩
  · split
    · exact agree_complain _
    · exact .pure rfl

lemma agree_selection : T.Agree Eq selection selection := by
  refine .get fun p p' h => ?_
  rw [h.token]
  split
  case h_4 => exact .pure h rfl
  all_goals exact agree_address.and (fun start => agree_selectionBehind start) _ _ h

lemma agree_negation : T.Agree Eq negation negation := by
  refine (agree_isAt _).and fun _ => .ite ?_ (.pure rfl)
  exact agree_advance.and fun _ => (agree_isAt _).and fun _ => .ite (agree_complain _) (.pure rfl)

/-! ### Arguments -/

lemma Actions.refl (a : Action) : T.Actions a a := ⟨rfl, fun _ => rfl⟩

/-- An action that holds no text is the same. -/
lemma Agree.toActions {α : Type} {m m' : Parse α} {f : α → Action} (h : T.Agree Eq m m') :
    T.Agree T.Actions (m >>= fun a => Pure.pure (f a)) (m' >>= fun a => Pure.pure (f a)) :=
  h.and fun _ => .pure (.refl _)

/-- In a sandbox the first reader names no file. -/
lemma agree_fileName : T.Agree Eq fileName fileName := by
  refine .get fun p p' h => ?_
  rw [h.options, h.options']
  refine Agree.guard _ T.sandbox (fun hs hs' he => hs' (he ▸ hs)) ?_ _ _ h
  refine agree_advance.and fun _ => (agree_literalIf _).and fun name => ?_
  cases name with
  | some name => exact .pure rfl
  | none => exact agree_complain _

lemma Drafts.names {d d' : Draft} (h : T.Drafts d d') :
    d'.outputFiles.map (·.name) = d.outputFiles.map (·.name) :=
  map_eq_of_forall₂ h.outputFiles fun _ _ hf => hf.name

/-- Both find the same file, or add one. -/
lemma agree_target (name : Text) {place place' : Location} (h : T.places place place') :
    T.Agree Eq (target name place) (target name place') := by
  refine .ite (.pure rfl) (.ite (.pure rfl) (.get fun p p' hp => ?_))
  have hnames : p'.outputFiles.map (·.name) = p.outputFiles.map (·.name) := hp.drafts.names
  have hfind : p'.outputFiles.findIdx? (Path.key ·.name = Path.key name) =
      p.outputFiles.findIdx? (Path.key ·.name = Path.key name) := by
    have hmap (files : List OutputFile) : files.findIdx? (Path.key ·.name = Path.key name) =
        (files.map (·.name)).findIdx? (Path.key · = Path.key name) := by
      rw [List.findIdx?_map]
      rfl
    rw [hmap, hmap, hnames]
  have hlength : p'.outputFiles.length = p.outputFiles.length := by
    simpa using congrArg List.length hnames
  dsimp only
  rw [hfind]
  split
  · exact .pure hp rfl
  · refine .ok ⟨congrArg Target.file hlength.symm, hp.script, hp.script', hp.options, hp.options',
      hp.scanner, hp.token, hp.drafts.commands, ?_, hp.drafts.rangeCount, hp.drafts.openBlocks⟩
    exact List.rel_append hp.drafts.outputFiles (.cons ⟨rfl, h⟩ .nil)

/-- Where the standard is taken strictly, a text must not begin on the line of its command. -/
lemma agree_textArgument (letter : Char) :
    T.Agree T.Actions (textArgument letter) (textArgument letter) := by
  refine agree_advance.and fun _ => (agree_isAt _).and fun backslash => ?_
  refine .ite (agree_advance.and fun _ => ?_) ?_
  all_goals
    refine .get fun p p' h => ?_
    rw [h.token, h.options, h.options']
    refine Agree.ite (agree_complain _) ?_ _ _ h
    refine Agree.guard _ (fun hc => ?_) (fun hc hc' he => hc' (he ▸ hc)) ?_
    · rw [Bool.and_eq_true] at hc ⊢
      exact ⟨hc.1, T.posix hc.2⟩
    refine agree_advance.and fun _ => (agree_isAt _).and fun _ => .ite (agree_complain _) ?_
    split <;> exact .pure ⟨rfl, fun he => by rw [he]⟩

/-! ### Substitutions and transliterations -/

lemma agree_field (letter : Char) : T.Agree Eq (field letter) (field letter) := by
  refine (agree_isAt _).and fun _ => .ite ?_ (agree_complain _)
  exact agree_advance.and fun _ => (agree_literalIf _).and fun _ => .pure rfl

lemma agree_fields (letter : Char) : T.Agree Eq (fields letter) (fields letter) := by
  refine agree_advance.and fun _ => (agree_isAt _).and fun _ => .ite (agree_complain _) ?_
  refine (agree_field _).and fun first => (agree_field _).and fun second => ?_
  exact (agree_isAt _).and fun _ => .ite (.pure rfl) (agree_complain _)

lemma agree_substitutionFlags {place place' : Location} (hplace : T.places place place') (fuel : ℕ)
    (flags : SubstitutionFlags) :
    T.Agree Eq (substitutionFlags place fuel flags) (substitutionFlags place' fuel flags) := by
  induction fuel generalizing flags with
  | zero => exact .pure rfl
  | succ fuel ih =>
      have hnumber : T.Agree Eq
          (if flags.occurrence.isSome then complain .repeatedCount
            else number >>= fun n => if n = 0 then complain .zeroCount
              else advance >>= fun _ =>
                substitutionFlags place fuel { flags with occurrence := some n })
          (if flags.occurrence.isSome then complain .repeatedCount
            else number >>= fun n => if n = 0 then complain .zeroCount
              else advance >>= fun _ =>
                substitutionFlags place' fuel { flags with occurrence := some n }) :=
        .ite (agree_complain _) (agree_number.and fun n => .ite (agree_complain _)
          (agree_advance.and fun _ => ih _))
      refine .get fun p p' h => ?_
      rw [h.token]
      split
      · exact hnumber _ _ h
      · refine agree_currentChar.and (fun letter => .ite ?_ ?_) _ _ h
        · exact agree_fileName.and fun name => (agree_target name hplace).and fun _ => .pure rfl
        · split
          · exact agree_advance.and fun _ => ih _
          · exact agree_complain _
      · exact .pure h rfl

lemma agree_substitutionBehind {place place' : Location} (hplace : T.places place place')
    (pattern replacement : Text) :
    T.Agree T.Actions (substitutionBehind place pattern replacement)
      (substitutionBehind place' pattern replacement) := by
  refine .get fun p p' h => ?_
  dsimp only
  rw [h.bound, h.options, h.options', T.extended]
  refine (agree_substitutionFlags hplace _ _).and
    (fun flags => (agree_isAt _).and fun _ => ?_) _ _ h
  refine .ite (agree_currentChar.and fun _ => agree_complain _) ?_
  refine (agree_compilePattern _ _).and fun regex => .ite (agree_complainOf hplace _ _) ?_
  exact .pure (.refl _)

lemma agree_substitution {place place' : Location} (hplace : T.places place place') :
    T.Agree T.Actions (substitution place) (substitution place') := by
  rw [substitution_eq, substitution_eq]
  exact (agree_fields _).and fun texts => agree_advance.and fun _ =>
    agree_substitutionBehind hplace _ _

lemma agree_transliteration : T.Agree T.Actions transliteration transliteration :=
  (agree_fields _).and fun _ => .ite (agree_complain _)
    (agree_advanceIn_ending.and fun _ => .pure (.refl _))

lemma agree_numberArgument (letter : Char) :
    T.Agree T.Actions (numberArgument letter) (numberArgument letter) := by
  have hend (n : Option ℕ) : T.Agree T.Actions
      (if letter = 'l' then Pure.pure (Action.list n)
        else if n.getD 0 < exitCodeLimit then Pure.pure (Action.quit (n.getD 0) (letter = 'q'))
          else complain .invalidExitCode)
      (if letter = 'l' then Pure.pure (Action.list n)
        else if n.getD 0 < exitCodeLimit then Pure.pure (Action.quit (n.getD 0) (letter = 'q'))
          else complain .invalidExitCode) :=
    .ite (.pure (.refl _)) (.ite (.pure (.refl _)) (agree_complain _))
  refine agree_advance.and fun _ => (agree_isAt _).and fun _ => .ite ?_ (hend none)
  exact agree_number.and fun n => agree_advance.and fun _ => hend (some n)

lemma agree_argument (letter : Char) {place place' : Location} (hplace : T.places place place')
    (kind : Argument) :
    T.Agree T.Actions (argument letter place kind) (argument letter place' kind) := by
  cases kind with
  | nothing => exact agree_advanceIn_ending.and fun _ => .pure (.refl _)
  | label => exact agree_advance.and fun _ => (agree_literalIf _).toActions
  | number => exact agree_numberArgument letter
  | readName => exact agree_fileName.and fun name => .pure (.refl _)
  | writeName =>
      exact agree_fileName.and fun name => (agree_target name hplace).and fun _ => .pure (.refl _)
  | text => exact agree_textArgument letter
  | substitution => exact agree_substitution hplace
  | transliteration => exact agree_transliteration

/-! ### Commands -/

/-- A command is added on both sides. -/
lemma agree_push {c c' : Command} (hc : T.Commands c c') : T.Agree Eq (push c) (push c') :=
  .modify fun _ _ h => ⟨h.script, h.script', h.options, h.options', h.scanner, h.token,
    List.rel_append h.drafts.commands (.cons hc .nil), h.drafts.outputFiles, h.drafts.rangeCount,
    h.drafts.openBlocks⟩

/-- Without the standard a command allows no fewer addresses. -/
lemma agree_command (s : Selection) (negated : Bool) {place place' : Location}
    (hplace : T.places place place') :
    T.Agree Eq (command s negated place) (command s negated place') := by
  refine .get fun p p' h => ?_
  rw [h.options, h.options']
  refine agree_currentChar.and (fun letter => ?_) _ _ h
  have hargument (kind : Argument) {n n' : ℕ} (hn : n ≤ n')
      (hne : n ≠ n' → T.options' ≠ T.options) : T.Agree Eq
        (if n < s.addressCount then complain .tooManyAddresses
          else argument letter place kind >>= fun a => push ⟨letter, s, negated, a, place⟩)
        (if n' < s.addressCount then complain .tooManyAddresses
          else argument letter place' kind >>= fun a => push ⟨letter, s, negated, a, place'⟩) :=
    .guard _ hn.trans_lt (fun h₁ h₂ => hne fun he => h₂ (he ▸ h₁))
      ((agree_argument letter hplace kind).bind fun a a' ha =>
        agree_push ⟨rfl, rfl, rfl, ha, hplace⟩)
  have hletter := Argument.ofLetter?_of_le T.posix letter
  have hsame : T.options' = T.options → Argument.ofLetter? T.options'.posix letter =
      Argument.ofLetter? T.options.posix letter := fun he => by rw [he]
  generalize Argument.ofLetter? T.options.posix letter = found at hletter hsame ⊢
  generalize Argument.ofLetter? T.options'.posix letter = found' at hletter hsame ⊢
  cases hletter with
  | none => exact agree_complain _
  | @some found found' h =>
      obtain ⟨kind, n⟩ := found
      obtain ⟨kind', n'⟩ := found'
      obtain ⟨rfl, hn⟩ := h
      exact hargument kind' hn fun hne he => hne (congrArg (·.2) (Option.some.inj (hsame he))).symm

lemma agree_label (s : Selection) {place place' : Location} (hplace : T.places place place') :
    T.Agree Eq (label s place) (label s place') := by
  refine .ite (agree_complain _) (agree_advance.and fun _ => .get fun p p' h => ?_)
  dsimp only
  rw [h.token]
  have hc : T.Commands ⟨':', s, false, .label p.token.literal, place⟩
      ⟨':', s, false, .label p.token.literal, place'⟩ := ⟨rfl, rfl, rfl, .refl _, hplace⟩
  refine Agree.ite ?_ (agree_complain _) _ _ h
  exact (agree_push hc).and fun _ => agree_advance.and fun _ => agree_expectEnd

lemma agree_openBlock (s : Selection) (negated : Bool) {place place' : Location}
    (hplace : T.places place place') :
    T.Agree Eq (openBlock s negated place) (openBlock s negated place') := by
  have hc : T.Commands ⟨'{', s, negated, .block 0, place⟩ ⟨'{', s, negated, .block 0, place'⟩ :=
    ⟨rfl, rfl, rfl, .refl _, hplace⟩
  refine (Agree.modify fun p p' h => ?_).and fun _ => (agree_push hc).and fun _ => agree_advance
  refine ⟨h.script, h.script', h.options, h.options', h.scanner, h.token, h.drafts.commands,
    h.drafts.outputFiles, h.drafts.rangeCount, ?_⟩
  exact congrArg₂ List.cons h.drafts.commands.length_eq.symm h.drafts.openBlocks

lemma agree_statementBehind (s : Selection) :
    T.Agree Eq (statementBehind s) (statementBehind s) := by
  refine agree_negation.and fun negated => .get fun p p' h => ?_
  rw [h.token]
  split
  · exact agree_openBlock s negated h.place _ _ h
  · exact agree_label s h.place _ _ h
  · exact (agree_command s negated h.place).and (fun _ => agree_expectEnd) _ _ h
  · exact agree_complain _ _ _ h
  · exact agree_complain _ _ _ h
  · exact agree_complain _ _ _ h
  · exact agree_complain _ _ _ h
  · exact agree_currentChar.and (fun _ => agree_complain _) _ _ h

lemma agree_statement : T.Agree Eq statement statement := by
  rw [statement_eq]
  exact agree_selection.and agree_statementBehind

lemma closed_of_texts {stop : ℕ} {c : Command} (h : c.action.Texts) : closed stop c = c := by
  rw [closed]
  generalize c.action = a at h
  cases h <;> rfl

/-- A block gets the same end. -/
lemma Commands.closed {c c' : Command} (h : T.Commands c c') (stop : ℕ) :
    T.Commands (closed stop c) (closed stop c') := by
  obtain he | ⟨htexts, htexts'⟩ := Action.eq_or_texts h.action.untexted
  · unfold Parser.closed
    rw [he]
    split
    · exact ⟨h.letter, h.selection, h.negated, .refl _, h.place⟩
    · exact h
  · rwa [closed_of_texts htexts, closed_of_texts htexts']

lemma agree_closeBlock : T.Agree Eq closeBlock closeBlock := by
  refine .get fun p p' h => ?_
  have hblocks : p'.openBlocks = p.openBlocks := h.drafts.openBlocks
  have hlength : p'.commands.length = p.commands.length := h.drafts.commands.length_eq.symm
  rw [hblocks, hlength]
  cases p.openBlocks with
  | nil => exact agree_complain _ _ _ h
  | cons block outer =>
      have hclosed : T.Tied
          { p with
            commands := p.commands.modify block (Parser.closed p.commands.length)
            openBlocks := outer }
          { p' with
            commands := p'.commands.modify block (Parser.closed p.commands.length)
            openBlocks := outer } :=
        ⟨h.script, h.script', h.options, h.options', h.scanner, h.token,
          forall₂_modify h.drafts.commands (fun _ _ hc => hc.closed _) block,
          h.drafts.outputFiles, h.drafts.rangeCount, rfl⟩
      have hc : T.Commands ⟨'}', .all, false, .blockEnd, p.place⟩
          ⟨'}', .all, false, .blockEnd, p'.place⟩ := ⟨rfl, rfl, rfl, .refl _, h.place⟩
      exact (agree_push hc).and (fun _ => agree_advance.and fun _ => agree_expectEnd) _ _ hclosed

/-! ### Scripts -/

lemma agree_statements (fuel : ℕ) : T.Agree Eq (statements fuel) (statements fuel) := by
  induction fuel with
  | zero => exact .pure rfl
  | succ fuel ih =>
      refine .get fun p p' h => ?_
      rw [h.token]
      split
      · exact agree_advance.and (fun _ => ih) _ _ h
      · exact agree_advance.and (fun _ => ih) _ _ h
      · exact .pure h rfl
      · exact agree_closeBlock.and (fun _ => ih) _ _ h
      · exact agree_statement.and (fun _ => ih) _ _ h

lemma agree_allClosed : T.Agree Eq allClosed allClosed := by
  refine .get fun p p' h => ?_
  have hblocks : p'.openBlocks = p.openBlocks := h.drafts.openBlocks
  rw [hblocks]
  cases p.openBlocks with
  | nil => exact .pure h rfl
  | cons block outer =>
      refine .error (.script _ ?_)
      have hcommands : List.Forall₂ T.Commands p.commands p'.commands := h.drafts.commands
      have hopen := rel_getElem? hcommands block
      generalize p.commands[block]? = c at hopen ⊢
      generalize p'.commands[block]? = c' at hopen ⊢
      cases hopen with
      | none => exact h.place
      | some hc => exact hc.place

lemma agree_wholeScript : T.Agree Eq wholeScript wholeScript := by
  refine .get fun p p' h => ?_
  rw [h.bound]
  exact (agree_statements _).and (fun _ => agree_allClosed) _ _ h

/-- A reading that starts with scanners that are alike. -/
lemma tied_start (h : T.scanners (.start T.script.text) (.start T.script'.text)) :
    T.Tied (start T.script T.options) (start T.script' T.options') := by
  obtain ⟨htoken, hscanner⟩ := T.next h
  exact ⟨rfl, rfl, rfl, rfl, hscanner, htoken, .nil, .nil, rfl, rfl⟩

end Tandem

end Parser

/-! ### Programs -/

namespace Program

open StreamEditor.Parser (Tandem)

variable {T : Tandem}

/-- The same program. -/
structure Matched (T : Tandem) (p p' : Program) : Prop where
  commands : List.Forall₂ T.Commands p.commands p'.commands
  labels : p'.labels = p.labels
  outputFiles : List.Forall₂ T.Files p.outputFiles p'.outputFiles
  rangeCount : p'.rangeCount = p.rangeCount
  quiet : p'.quiet = p.quiet

section Texts

variable {labels : List (Text × ℕ)} {c : Command}

lemma resolve_of_texts (h : c.action.Texts) : resolve labels c = c := by
  rw [resolve]
  generalize c.action = a at h
  cases h <;> rfl

lemma undefinedLabel?_of_texts (h : c.action.Texts) : undefinedLabel? labels c = none := by
  rw [undefinedLabel?]
  generalize c.action = a at h
  cases h <;> rfl

lemma collectLabels_of_texts {index : ℕ} {rest : List Command} (h : c.action.Texts) :
    collectLabels index labels (c :: rest) = collectLabels (index + 1) labels rest := by
  rw [collectLabels]
  generalize c.action = a at h
  cases h <;> rfl

end Texts

/-- The labels are the same. -/
lemma ends_collectLabels {commands commands' : List Command}
    (h : List.Forall₂ T.Commands commands commands') (index : ℕ) (labels : List (Text × ℕ)) :
    T.Ends Eq (collectLabels index labels commands) (collectLabels index labels commands') := by
  induction h generalizing index labels with
  | nil => exact .ok rfl
  | @cons c c' rest rest' hc _ ih =>
      obtain he | ⟨htexts, htexts'⟩ := Action.eq_or_texts hc.action.untexted
      · rw [collectLabels, collectLabels, he]
        split
        · split
          · exact .error (.command _ _ _ hc.place)
          · exact ih _ _
        · exact ih _ _
      · rw [collectLabels_of_texts htexts, collectLabels_of_texts htexts']
        exact ih _ _

lemma matched_resolve {c c' : Command} (h : T.Commands c c') (labels : List (Text × ℕ)) :
    T.Commands (resolve labels c) (resolve labels c') := by
  obtain he | ⟨htexts, htexts'⟩ := Action.eq_or_texts h.action.untexted
  · unfold resolve
    rw [he]
    split
    · exact ⟨h.letter, h.selection, h.negated, .refl _, h.place⟩
    · exact h
  · rwa [resolve_of_texts htexts, resolve_of_texts htexts']

/-- A label that is missing is missing on both sides. -/
lemma rel_undefinedLabel? {c c' : Command} (h : T.Commands c c') (labels : List (Text × ℕ)) :
    Option.Rel (fun u u' => T.places u.1 u'.1 ∧ u'.2 = u.2) (undefinedLabel? labels c)
      (undefinedLabel? labels c') := by
  obtain he | ⟨htexts, htexts'⟩ := Action.eq_or_texts h.action.untexted
  · rw [undefinedLabel?, undefinedLabel?, he]
    split
    · split
      · exact .some ⟨h.place, rfl⟩
      · exact .none
    · exact .none
  · rw [undefinedLabel?_of_texts htexts, undefinedLabel?_of_texts htexts']
    exact .none

/-- Where whole scripts are read alike, so are their programs. -/
lemma ends_parse [Regex.Library] (hquiet : T.script'.asksForQuiet = T.script.asksForQuiet)
    (h : T.AgreeAt Eq Parser.wholeScript Parser.wholeScript (.start T.script T.options)
      (.start T.script' T.options')) :
    T.Ends (Matched T) (parse T.script T.options) (parse T.script' T.options') := by
  rw [Tandem.AgreeAt] at h
  rw [parse, parse]
  generalize Parser.wholeScript.run (.start T.script T.options) = r at h ⊢
  generalize Parser.wholeScript.run (.start T.script' T.options') = r' at h ⊢
  cases h with
  | error h => exact .error h
  | stricter fault r h => exact .stricter fault _ h
  | @ok r r' h =>
      obtain ⟨⟨⟩, p⟩ := r
      obtain ⟨⟨⟩, p'⟩ := r'
      obtain ⟨-, htied⟩ := h
      have hcommands : List.Forall₂ T.Commands p.commands p'.commands := htied.drafts.commands
      have hlabels := ends_collectLabels hcommands 0 []
      simp only [bind, Except.bind]
      generalize collectLabels 0 [] p.commands = labels at hlabels ⊢
      generalize collectLabels 0 [] p'.commands = labels' at hlabels ⊢
      cases hlabels with
      | error h => exact .error h
      | stricter fault r h => exact .stricter fault _ h
      | @ok labels _ h =>
          subst h
          have huses := List.rel_filterMap (R := T.Commands)
            (fun _ _ hc => rel_undefinedLabel? hc labels) hcommands
          dsimp only
          generalize p.commands.filterMap (undefinedLabel? labels) = uses at huses ⊢
          generalize p'.commands.filterMap (undefinedLabel? labels) = uses' at huses ⊢
          -- No label is missing, or the same ones are missing on both sides.
          cases huses with
          | nil =>
              refine .ok ⟨?_, rfl, htied.drafts.outputFiles, htied.drafts.rangeCount, hquiet⟩
              exact List.rel_map (R := T.Commands) (fun _ _ hc => matched_resolve hc labels)
                hcommands
          | cons hu huses => exact .error (.undefinedLabels (.cons hu huses))

end Program

end StreamEditor
