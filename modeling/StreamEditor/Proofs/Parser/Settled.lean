import StreamEditor.Proofs.Program.Joined
import StreamEditor.Proofs.Program.Writable

/-!
What is known of the parser between the parts of a script.

* `Parser.Gives`: whenever a part succeeds from a state, its result and the state after it satisfy a
  condition; the rules follow the ways in which parts are put together.
* `Parser.Settled`: the scanner stands as it does behind the current token, and what was read so far
  can be written.
* `Settled.statements`: so it is all along, hence all commands of a script can be written.
-/

namespace StreamEditor.Parser

variable {library : Regex.Library}

open Token (Kind)
open Scanner (Behind Word isLabelChar isNameChar)

/-- Whenever `m` succeeds from `p`, `Q` holds of its result and of the state after it. -/
def Gives {α : Type} (m : Parse α) (p : Parser) (Q : α → Parser → Prop) : Prop :=
  ∀ a q, m.run p = .ok (a, q) → Q a q

section Rules

variable {α β : Type} {m : Parse α} {f : α → Parse β} {p : Parser} {P Q : α → Parser → Prop}
  {R : β → Parser → Prop}

lemma Gives.pure {a : α} (h : Q a p) : Gives (Pure.pure a) p Q := by
  intro b q hm
  cases hm
  exact h

lemma Gives.bind (hm : Gives m p P) (hf : ∀ a q, P a q → Gives (f a) q R) :
    Gives (m >>= f) p R := by
  intro b r h
  obtain ⟨a, q, hrun, hrest⟩ := run_bind_eq_ok.1 h
  exact hf a q (hm a q hrun) b r hrest

lemma Gives.ite {c : Prop} [Decidable c] {x y : Parse α} (hx : c → Gives x p Q)
    (hy : ¬c → Gives y p Q) : Gives (if c then x else y) p Q := by
  split
  · exact hx ‹_›
  · exact hy ‹_›

lemma gives_complain (c : Complaint) : Gives (complain c : Parse α) p Q := by
  intro a q hm
  cases hm

lemma gives_complainOf (place : Location) (letter : Char) (c : Complaint) :
    Gives (complainOf place letter c : Parse α) p Q := by
  intro a q hm
  cases hm

/-- The state is looked at. -/
lemma Gives.get {f : Parser → Parse β} (h : Gives (f p) p R) :
    Gives (MonadState.get >>= f) p R := h

lemma Gives.advance {f : PUnit → Parse β} (h : Gives (f ⟨⟩) p.advanced R) :
    Gives (advance >>= f) p R := h

lemma Gives.currentChar {f : Char → Parse β} (h : Gives (f (p.token.firstChar.getD ' ')) p R) :
    Gives (currentChar >>= f) p R := h

lemma Gives.isAt {f : Bool → Parse β} {kind : Kind}
    (h : Gives (f (decide (p.token.kind = kind))) p R) : Gives (Parser.isAt kind >>= f) p R := h

/-- The part goes on as the current token is of a kind or not. -/
lemma Gives.ifAt {x y : Parse β} {kind : Kind} (h : p.token.kind = kind → Gives x p R)
    (h' : p.token.kind ≠ kind → Gives y p R) :
    Gives (Parser.isAt kind >>= fun b => if b = true then x else y) p R := by
  change Gives (if decide (p.token.kind = kind) = true then x else y) p R
  exact .ite (fun hb => h (of_decide_eq_true hb)) fun hb => h' fun hk => hb (decide_eq_true hk)

/-- The current token is passed if it is of a kind. -/
lemma Gives.literalIf {f : Option Text → Parse β} {kind : Kind}
    (h : p.token.kind = kind → Gives (f (some p.token.literal)) p.advanced R)
    (h' : p.token.kind ≠ kind → Gives (f none) p R) : Gives (literalIf kind >>= f) p R := by
  intro b q hm
  by_cases hkind : p.token.kind = kind
  · exact h hkind b q ((run_bind_of_ok (run_literalIf_of_eq hkind)).symm.trans hm)
  · exact h' hkind b q ((run_bind_of_ok (run_literalIf_of_ne hkind)).symm.trans hm)

/-- A number that is read is below the limit. -/
lemma Gives.number {f : ℕ → Parse β} (h : ∀ n < numberLimit, Gives (f n) p R) :
    Gives (number >>= f) p R := by
  refine .bind (P := fun n q => n < numberLimit ∧ q = p) ?_ ?_
  · exact .get (.ite (fun hn => .pure ⟨hn, rfl⟩) fun _ => gives_complain _)
  · rintro n q ⟨hn, rfl⟩
    exact h n hn

lemma Gives.compilePattern {f : Option Regex → Parse β} {pattern : Text} {options : Regex.Options}
    (hpattern : Paired pattern)
    (h : ∀ regex : Option Regex, (∀ re ∈ regex, re.Writable) → Gives (f regex) p R) :
    Gives (compilePattern pattern options >>= f) p R := by
  refine .bind (P := fun regex q => (∀ re ∈ regex, re.Writable) ∧ q = p) ?_ ?_
  · refine .ite (fun _ => ?_) fun hne => ?_
    · refine .ite (fun _ => gives_complain _) fun _ => .pure ⟨?_, rfl⟩
      rintro re hre
      cases hre
    · cases hre : Regex.compile? options (unescapePattern pattern) with
      | none => exact gives_complain _
      | some re =>
          have hsource : re.source = unescapePattern pattern := by
            obtain ⟨engine, -, rfl⟩ := Option.map_eq_some_iff.1 hre
            rfl
          refine .pure ⟨?_, rfl⟩
          rintro _ hmem
          cases hmem
          refine ⟨?_, ?_⟩
          · rw [hsource]
            exact hpattern.unescapePattern_ne_nil (by simpa using hne)
          · rw [hsource]
            exact hpattern.spelled
  · rintro regex q ⟨hregex, rfl⟩
    exact h regex hregex

lemma gives_expectEnd {Q : Unit → Parser → Prop} (h : Q () p) : Gives expectEnd p Q :=
  .get (.ite (fun _ => .pure h) fun _ => gives_complain _)

end Rules

/-! ### Between the parts -/

/-- The scanner stands as it does behind the current token, and all that was read so far can be
written. -/
structure Settled (o : Options) (p : Parser) : Prop where
  options : p.options = o
  behind : Behind p.token p.scanner
  commands : ∀ c ∈ p.commands, c.Writable o
  files : ∀ f ∈ p.outputFiles, f.Writable

section Settled

variable {o : Options} {p : Parser}

lemma Settled.advanced (h : Settled o p) : Settled o p.advanced :=
  ⟨h.options, h.behind.next, h.commands, h.files⟩

/-- The parts that leave only a number behind. -/
def Below (o : Options) (n : ℕ) (q : Parser) : Prop := n < numberLimit ∧ Settled o q

lemma Settled.numberAfter (h : Settled o p) : Gives numberAfter p (Below o) := by
  refine .advance (.ifAt (fun _ => .number fun n hn => ?_) fun _ => gives_complain _)
  exact .advance (.pure ⟨hn, h.advanced.advanced⟩)

lemma Settled.patternFlags (h : Settled o p) (fuel : ℕ) (options : Regex.Options) :
    Gives (patternFlags fuel options) p fun _ q => Settled o q := by
  induction fuel generalizing p options with
  | zero => exact .pure h
  | succ fuel ih =>
      refine .ifAt (fun _ => ?_) fun _ => .pure h
      exact .currentChar (.advance (ih h.advanced _))

lemma Settled.patternAddress (h : Settled o p) :
    Gives patternAddress p fun a q => a.Writable ∧ Settled o q := by
  -- behind the pattern the address goes on at a slash
  have hrest : ∀ {q : Parser} {pattern : Text}, Settled o q →
      (q.token.kind = .slash → Paired pattern) →
      Gives (isAt .slash >>= fun closed => if closed = true then do
          advance
          let p ← MonadState.get
          let options ← Parser.patternFlags p.bound ⟨p.options.extended, false, false⟩
          return Address.pattern (← compilePattern pattern options)
        else complain .unterminatedAddress) q fun a q => a.Writable ∧ Settled o q := by
    intro q pattern hq hpattern
    refine .ifAt (fun hslash => .advance (.get ?_)) fun _ => gives_complain _
    refine (hq.advanced.patternFlags _ _).bind fun options r hr => ?_
    exact .compilePattern (hpattern hslash) fun regex hregex => .pure ⟨hregex, hr⟩
  refine .advance (.literalIf (fun htext => ?_) fun _ => ?_)
  · exact hrest h.advanced.advanced fun hslash =>
      h.advanced.behind.paired htext (.inl hslash)
  · exact hrest h.advanced fun _ => .nil

lemma Settled.numberAddress (h : Settled o p) :
    Gives numberAddress p fun a q => a.Writable ∧ Settled o q := by
  refine .number fun first hfirst => .advance (.ifAt (fun _ => ?_) fun _ => ?_)
  · refine h.advanced.numberAfter.bind fun n q hn => ?_
    exact .pure ⟨⟨hfirst, hn.1⟩, hn.2⟩
  · refine .pure ⟨?_, h.advanced⟩
    split
    · trivial
    · exact ⟨Nat.pos_of_ne_zero ‹_›, hfirst⟩

lemma Settled.address (h : Settled o p) :
    Gives address p fun a q => a.Writable ∧ Settled o q := by
  refine .get ?_
  split
  · exact .advance (.pure ⟨trivial, h.advanced⟩)
  · exact h.numberAddress
  · exact h.patternAddress

lemma Settled.rangeEnd (h : Settled o p) :
    Gives rangeEnd p fun stop q => stop.Writable ∧ Settled o q := by
  refine .get ?_
  split
  case h_6 => exact gives_complain _
  case h_1 => exact h.numberAfter.bind fun n q hn => .pure hn
  case h_2 => exact h.numberAfter.bind fun n q hn => .pure hn
  all_goals exact h.address.bind fun a q ha => .pure ha

lemma Settled.selection (h : Settled o p) :
    Gives selection p fun s q => s.Writable ∧ Settled o q := by
  refine .get ?_
  split
  case h_4 => exact .pure ⟨trivial, h⟩
  all_goals
    refine h.address.bind fun first q hfirst => .ifAt (fun _ => .advance ?_) fun _ => ?_
    · refine hfirst.2.advanced.rangeEnd.bind fun stop r hstop => .ite (fun _ => ?_) fun _ =>
        gives_complain _
      have hcounted : Settled o { r with rangeCount := r.rangeCount + 1 } :=
        ⟨hstop.2.options, hstop.2.behind, hstop.2.commands, hstop.2.files⟩
      intro s q hm
      cases hm
      exact ⟨⟨hfirst.1, hstop.1⟩, hcounted⟩
    · cases first with
      | zero => exact gives_complain _
      | _ => exact .pure hfirst

/-! ### Arguments -/

/-- A file name is read where the scanner expects one. -/
lemma Settled.fileName (h : Settled o p) (hpending : p.scanner.pending = [])
    (hmode : p.scanner.mode = .fileName ∨ p.scanner.mode = .ending) :
    Gives fileName p fun name q => (o.sandbox = false ∧ Word isNameChar name) ∧ Settled o q := by
  refine .get (.ite (fun _ => gives_complain _) fun hsandbox =>
    .advance (.literalIf (fun hword => ?_) fun _ => gives_complain _))
  rcases hmode with hname | hending
  · rw [h.options] at hsandbox
    exact .pure ⟨⟨eq_false_of_ne_true hsandbox, Scanner.word_next_fileName hpending hname hword⟩,
      h.advanced.advanced⟩
  · have hkind := Scanner.kind_next_ending hpending hending
    rw [show p.scanner.next.1.kind = .word from hword] at hkind
    exact absurd hkind (by decide)

lemma Settled.target (h : Settled o p) {name : Text} (hname : Word isNameChar name)
    (place : Location) : Gives (target name place) p fun _ q => Settled o q := by
  refine .ite (fun _ => .pure h) fun houtput => .ite (fun _ => .pure h) fun herrors => .get ?_
  dsimp only
  split
  · exact .pure h
  · intro t q hm
    cases hm
    refine ⟨h.options, h.behind, h.commands, ?_⟩
    rw [List.forall_mem_append]
    exact ⟨h.files, by simpa using ⟨hname, houtput, herrors⟩⟩

/-- An argument that the letter of a command can have. -/
def Acts (o : Options) (letter : Char) (kind : Argument) (a : Action) (q : Parser) : Prop :=
  kind.Writes o letter a ∧ Settled o q

lemma Settled.textArgument (h : Settled o p) (letter : Char) :
    Gives (textArgument letter) p (Acts o letter .text) := by
  refine .advance (.isAt (.ite (fun _ => .advance ?_) fun _ => ?_))
  case' refine_1 => have hq := h.advanced.advanced
  case' refine_2 => have hq := h.advanced
  all_goals
    refine .get (.ite (fun _ => gives_complain _) fun _ => .ite (fun _ => gives_complain _)
      fun _ => .advance (.isAt (.ite (fun _ => gives_complain _) fun _ => ?_)))
    split
    · exact .pure ⟨⟨_, rfl⟩, hq.advanced⟩
    · exact .pure ⟨⟨_, rfl⟩, hq.advanced⟩
    · rename_i happend hinsert
      exact .pure ⟨⟨_, (Action.ofText.eq_3 letter _ happend hinsert).symm⟩, hq.advanced⟩

lemma Settled.field (h : Settled o p) (letter : Char) :
    Gives (field letter) p fun text q => (q.token.kind = .delimiter → Paired text) ∧
      Settled o q := by
  refine .ifAt (fun _ => .advance (.literalIf (fun htext => ?_) fun _ => ?_)) fun _ =>
    gives_complain _
  · exact .pure ⟨fun hnext => h.advanced.behind.paired htext (.inr hnext), h.advanced.advanced⟩
  · exact .pure ⟨fun _ => .nil, h.advanced⟩

/-- A field is read only behind a delimiter. -/
lemma gives_field_delimiter (letter : Char) :
    Gives (Parser.field letter) p fun _ _ => p.token.kind = .delimiter := by
  refine .ifAt (fun hkind => ?_) fun _ => gives_complain _
  exact fun _ _ _ => hkind

lemma Settled.fields (h : Settled o p) (letter : Char) :
    Gives (fields letter) p fun texts q => (Paired texts.1 ∧ Paired texts.2) ∧ Settled o q := by
  refine .advance (.ifAt (fun _ => gives_complain _) fun _ => ?_)
  refine (h.advanced.field letter).bind fun first q hfirst => ?_
  intro texts r hm
  obtain ⟨second, q', hsecond, hrest⟩ := run_bind_eq_ok.1 hm
  have hopened : q.token.kind = .delimiter := gives_field_delimiter letter second q' hsecond
  obtain ⟨htext, hsettled⟩ := hfirst.2.field letter second q' hsecond
  revert hrest
  refine Gives.ifAt (R := fun texts r => (Paired texts.1 ∧ Paired texts.2) ∧ Settled o r)
    (fun hclosed => ?_) (fun _ => gives_complain _) texts r
  exact .pure ⟨⟨hfirst.1 hopened, htext hclosed⟩, hsettled⟩

/-- The number of a match is below the limit, and a file is named only outside a sandbox. -/
def Flagged (o : Options) (f : SubstitutionFlags) (q : Parser) : Prop :=
  ((∀ n ∈ f.occurrence, 0 < n ∧ n < numberLimit) ∧ (f.write.isSome → o.sandbox = false)) ∧
    Settled o q

lemma Settled.substitutionFlags (h : Settled o p) (place : Location) (fuel : ℕ)
    (flags : SubstitutionFlags) (hflags : ∀ n ∈ flags.occurrence, 0 < n ∧ n < numberLimit)
    (hwrite : flags.write = none) : Gives (substitutionFlags place fuel flags) p (Flagged o) := by
  have hnone : flags.write.isSome → o.sandbox = false := by
    rw [hwrite]
    exact fun hsome => by cases hsome
  induction fuel generalizing p flags with
  | zero => exact .pure ⟨⟨hflags, hnone⟩, h⟩
  | succ fuel ih =>
      refine .get ?_
      split
      · refine .ite (fun _ => gives_complain _) fun _ => .number fun n hn => ?_
        refine .ite (fun _ => gives_complain _) fun hzero =>
          .advance (ih h.advanced _ ?_ hwrite hnone)
        rintro _ hmem
        cases hmem
        exact ⟨Nat.pos_of_ne_zero hzero, hn⟩
      · rename_i hword
        refine .currentChar (.ite (fun hw => ?_) fun _ => ?_)
        · obtain ⟨hpending, hmode⟩ := h.behind.word hword
          refine (h.fileName hpending (hmode hw)).bind fun name q hname => ?_
          exact (hname.2.target hname.1.2 place).bind fun t r hr =>
            .pure ⟨⟨hflags, fun _ => hname.1.1⟩, hr⟩
        · split
          · rename_i flags' hadd
            obtain ⟨hoccurrence, hwrite'⟩ := eq_of_add? hadd
            rw [← hoccurrence] at hflags
            rw [← hwrite'] at hwrite hnone
            exact .advance (ih h.advanced _ hflags hwrite hnone)
          · exact gives_complain _
      · exact .pure ⟨⟨hflags, hnone⟩, h⟩

lemma Settled.substitution (h : Settled o p) (place : Location) (letter : Char) :
    Gives (substitution place) p (Acts o letter .substitution) := by
  refine (h.fields 's').bind fun texts q hq => .advance (.get ?_)
  refine (hq.2.advanced.substitutionFlags place _ ⟨_, none, false, false, none⟩
    (fun n hn => by cases hn) rfl).bind fun flags r hr => ?_
  refine .ifAt (fun _ => .currentChar (gives_complain _)) fun _ => ?_
  refine .compilePattern hq.1.1 fun regex hregex => .ite (fun _ => gives_complainOf _ _ _) fun _ =>
    .pure ⟨⟨_, rfl, ⟨hregex, ⟨_, rfl⟩, ?_, ?_⟩, hr.1.2⟩, hr.2⟩
  · cases hoccurrence : flags.occurrence with
    | none => exact Nat.one_pos
    | some n => exact (hr.1.1 n hoccurrence).1
  · cases hoccurrence : flags.occurrence with
    | none =>
        change 1 < 2 ^ 64
        decide
    | some n => exact (hr.1.1 n hoccurrence).2

lemma Settled.transliteration (h : Settled o p) (letter : Char) :
    Gives transliteration p (Acts o letter .transliteration) := by
  refine (h.fields 'y').bind fun texts q hq => .ite (fun _ => gives_complain _) fun hlength => ?_
  intro a r hm
  cases hm
  exact ⟨⟨_, rfl, not_not.1 hlength⟩, hq.2.options, hq.2.behind.next_ending, hq.2.commands,
    hq.2.files⟩

lemma Settled.numberArgument (h : Settled o p) (letter : Char) :
    Gives (numberArgument letter) p (Acts o letter .number) := by
  have hrest : ∀ {q : Parser} {n : Option ℕ}, Settled o q → (∀ k ∈ n, k < numberLimit) →
      Gives (if letter = 'l' then return .list n
        else
          let code := n.getD 0
          if code < exitCodeLimit then return .quit code (letter = 'q')
          else complain .invalidExitCode : Parse Action) q (Acts o letter .number) := by
    intro q n hq hn
    refine .ite (fun hl => .pure ⟨?_, hq⟩) fun hl => .ite (fun hcode => .pure ⟨?_, hq⟩) fun _ =>
      gives_complain _
    · rw [Argument.Writes, if_pos hl]
      exact ⟨n, rfl, hn⟩
    · rw [Argument.Writes, if_neg hl]
      exact ⟨_, rfl, hcode⟩
  refine .advance (.ifAt (fun _ => .number fun n hn => .advance (hrest h.advanced.advanced ?_))
    fun _ => hrest h.advanced fun _ hn => by cases hn)
  rintro _ hmem
  cases hmem
  exact hn

lemma Settled.argument (h : Settled o p) {letter : Char} {kind : Argument} {addresses : ℕ}
    (hcommand : p.token.kind = .command) (hchar : p.token.firstChar.getD ' ' = letter)
    (hletter : Argument.ofLetter? o.posix letter = some (kind, addresses)) (place : Location) :
    Gives (argument letter place kind) p (Acts o letter kind) := by
  obtain ⟨hpending, hmode⟩ := h.behind.command hcommand
  rw [hchar, Argument.afterCommand_eq hletter] at hmode
  cases kind with
  | nothing =>
      intro a q hm
      cases hm
      exact ⟨rfl, h.options, h.behind.next_ending, h.commands, h.files⟩
  | label =>
      refine .advance (.literalIf (fun hword => .pure ⟨⟨_, rfl, ?_⟩, h.advanced.advanced⟩) fun _ =>
        .pure ⟨⟨_, rfl, fun name hname => by cases hname⟩, h.advanced⟩)
      rintro _ hname
      cases hname
      exact Scanner.word_next_label hpending hmode hword
  | number => exact h.numberArgument letter
  | readName =>
      refine (h.fileName hpending (.inl hmode)).bind fun name q hname => .pure ?_
      exact ⟨⟨hname.1.1, name, hname.1.2, rfl⟩, hname.2⟩
  | writeName =>
      refine (h.fileName hpending (.inl hmode)).bind fun name q hname => ?_
      exact (hname.2.target hname.1.2 place).bind fun t r hr => .pure ⟨⟨hname.1.1, t, rfl⟩, hr⟩
  | text => exact h.textArgument letter
  | substitution => exact h.substitution place letter
  | transliteration => exact h.transliteration letter

/-! ### Commands -/

lemma Settled.push (h : Settled o p) {c : Command} (hc : c.Writable o) :
    Settled o { p with commands := p.commands ++ [c] } := by
  refine ⟨h.options, h.behind, ?_, h.files⟩
  rw [List.forall_mem_append]
  exact ⟨h.commands, by simpa using hc⟩

lemma Settled.command (h : Settled o p) (hcommand : p.token.kind = .command) {s : Selection}
    (hs : s.Writable) (negated : Bool) (place : Location) :
    Gives (command s negated place) p fun _ q => Settled o q := by
  refine .get (.currentChar ?_)
  rw [h.options]
  split
  · exact gives_complain _
  · rename_i kind addresses hletter
    refine .ite (fun _ => gives_complain _) fun hcount => ?_
    refine (h.argument hcommand rfl hletter place).bind fun a q ha => ?_
    intro _ r hm
    cases hm
    exact ha.2.push (.command hletter ha.1 hs (Nat.le_of_not_lt hcount))

lemma Settled.label (h : Settled o p) (hcolon : p.token.kind = .colon) {s : Selection}
    (place : Location) : Gives (label s place) p fun _ q => Settled o q := by
  obtain ⟨hpending, hmode⟩ := h.behind.colon hcolon
  refine .ite (fun _ => gives_complain _) fun hcount => .advance (.get (.ite (fun hword => ?_)
    fun _ => gives_complain _))
  have hall : s = .all := by
    cases s with
    | all => rfl
    | single a => exact absurd Nat.one_pos hcount
    | range start stop slot => exact absurd Nat.two_pos hcount
  have hname : Word isLabelChar p.advanced.token.literal :=
    Scanner.word_next_label hpending hmode hword
  exact gives_expectEnd ((h.advanced.push (.label rfl rfl hall rfl hname)).advanced)

lemma Settled.openBlock (h : Settled o p) {s : Selection} (hs : s.Writable) (negated : Bool)
    (place : Location) : Gives (openBlock s negated place) p fun _ q => Settled o q := by
  intro _ q hm
  cases hm
  have hopened : Settled o { p with openBlocks := p.commands.length :: p.openBlocks } :=
    ⟨h.options, h.behind, h.commands, h.files⟩
  exact (hopened.push (.openBlock rfl rfl hs)).advanced

lemma Settled.negation (h : Settled o p) : Gives negation p fun _ q => Settled o q :=
  .ifAt (fun _ => .advance (.ifAt (fun _ => gives_complain _) fun _ => .pure h.advanced))
    fun _ => .pure h

lemma Settled.statement (h : Settled o p) : Gives statement p fun _ q => Settled o q := by
  refine h.selection.bind fun s q hs => hs.2.negation.bind fun negated r hr => .get ?_
  split
  · exact hr.openBlock hs.1 negated _
  · rename_i hcolon
    exact hr.label hcolon _
  · rename_i hcommand
    exact (hr.command hcommand hs.1 negated _).bind fun _ q hq => gives_expectEnd hq
  all_goals exact gives_complain _

lemma Settled.closeBlock (h : Settled o p) : Gives closeBlock p fun _ q => Settled o q := by
  refine .get ?_
  split
  · exact gives_complain _
  · rename_i block outer _
    have hclosed : Settled o { p with
        commands := p.commands.modify block (closed p.commands.length)
        openBlocks := outer } := by
      refine ⟨h.options, h.behind, ?_, h.files⟩
      exact (forall_mem_modify_closed fun c => Command.writable_closed).2 h.commands
    intro _ q hm
    have hpushed := (hclosed.push (c := ⟨'}', .all, false, .blockEnd, p.place⟩)
      (.closeBlock rfl rfl rfl rfl)).advanced
    exact gives_expectEnd (Q := fun _ q => Settled o q) hpushed () q hm

/-- The statements of a script. -/
lemma Settled.statements (h : Settled o p) (fuel : ℕ) :
    Gives (statements fuel) p fun _ q => Settled o q := by
  induction fuel generalizing p with
  | zero => exact .pure h
  | succ fuel ih =>
      refine .get ?_
      split
      · exact .advance (ih h.advanced)
      · exact .advance (ih h.advanced)
      · exact .pure h
      · exact h.closeBlock.bind fun _ q hq => ih hq
      · exact h.statement.bind fun _ q hq => ih hq

lemma settled_start (script : Script) (o : Options) : Settled o (start script o) where
  options := rfl
  behind := Scanner.behind_next (s := .start script.text)
    (fun _ hu => absurd hu List.not_mem_nil) trivial
  commands := fun _ hc => absurd hc List.not_mem_nil
  files := fun _ hf => absurd hf List.not_mem_nil

/-- What is read of a whole script can be written. -/
lemma settled_of_wholeScript {script : Script} {q : Parser}
    (h : wholeScript.run (start script o) = .ok ((), q)) : Settled o q :=
  (settled_start script o).statements _ () q (run_wholeScript_eq_ok.1 h).1

end Settled

end StreamEditor.Parser
