import StreamEditor.Proofs.Parser.Printed

/-!
Reading the commands of a printed program.

* `Parser.ReadsFlags`: the flags of a substitution, one rule for each sort of flag.
* `Scanner.next_ending_of_lineEnd`, `gives_ended_fields`: the commands after which the end of the
  line is looked for at once.
* `fetches_argument`: the argument of a command is read back from its tokens.
* `Front`, `exists_front`: so are the addresses before it.
* `Rereads`: so is a whole command, only its place is another; `Front.rereads_openBlock`,
  `Front.rereads_label`, `Front.rereads_command` and `rereads_closeBlock` say it for each sort.
-/

namespace StreamEditor

variable {library : Regex.Library}

open Token (Kind lineEnd)

namespace Scanner

/-! ### The end of a line -/

/-- Between commands the token of a newline comes from a newline: a comment gives another one. -/
lemma peek_of_command {s : Scanner} (h : s.command.1 = lineEnd) :
    ({ s with afterPattern := false } : Scanner).beginToken.cursor.peek = some '\n' := by
  rw [command] at h
  dsimp only at h
  split at h
  case h_2 => assumption
  case h_4 => exact absurd (show ['#'] = ['\n'] from congrArg Token.literal h) (by decide)
  all_goals exfalso
  case h_9 | h_12 => split at h <;> cases congrArg Token.kind h
  case h_13 =>
    iterate 5
      split at h
      · cases congrArg Token.kind h
    cases congrArg Token.kind h
  all_goals cases congrArg Token.kind h

/-- Where a newline comes next, the end of a command is read as what stands between commands. -/
lemma next_ending_of_lineEnd {s : Scanner} (hpending : s.pending = []) (hmode : s.mode = .command)
    (h : s.next.1 = lineEnd) : ({ s with mode := .ending } : Scanner).next = s.next := by
  have hnext : s.next = noted s.command := by rw [next_of_pending_nil hpending, scan, hmode]
  have hnext' : ({ s with mode := .ending } : Scanner).next =
      noted ({ s with mode := .ending } : Scanner).ending := next_of_pending_nil hpending
  rw [hnext] at h
  have hpeek := peek_of_command h
  have hpeek' : ({ s with mode := .ending } : Scanner).beginToken.cursor.peek = some '\n' := hpeek
  obtain ⟨cursor, mode, pending, addresses, previous, afterPattern, tokenStart⟩ := s
  obtain rfl : mode = .command := hmode
  rw [hnext, hnext', command, ending]
  simp only [hpeek, hpeek']
  rfl

/-- Where the end of a command is looked for, tokens that waited change nothing about it. -/
lemma mode_next_ending {s : Scanner} (hmode : s.mode = .ending)
    (hkind : s.next.1.kind ∈ waitingKinds) : s.next.2.mode = .ending := by
  cases hpending : s.pending with
  | nil =>
      have hending := kind_next_ending hpending hmode
      exact absurd hkind (by revert hending; cases s.next.1.kind <;> decide)
  | cons t pending =>
      rw [next, hpending]
      exact hmode

lemma mode_pastFields {s : Scanner} (hmode : s.mode = .ending) (delimiter : Char) :
    (s.pastFields delimiter .ending).mode = .ending := by
  rw [pastFields]
  dsimp only
  split
  · split
    · rfl
    · exact hmode
  · exact hmode

lemma mode_fields_ending (s : Scanner) : (s.fields .ending).2.mode = .ending := by
  cases hpeek : s.cursor.peek with
  | none => rw [fields_of_peek_none hpeek]
  | some delimiter =>
      by_cases hd : delimiter = '\n' ∨ delimiter = '\\'
      · rw [fields_of_illegal hpeek hd]
        rfl
      · rw [fields_of_peek hpeek hd]
        exact mode_pastFields rfl delimiter

end Scanner

namespace Parser

open Scanner (fieldTokens fieldsTokens waitingKinds)

variable {α β : Type} {p : Parser} {t : Token} {ts us : List Token}

/-- The end of a command is looked for. -/
def Ended (p : Parser) : Prop := p.scanner.mode = .ending

lemma Ended.advanced (h : p.Ended) (hkind : p.advanced.token.kind ∈ waitingKinds) :
    p.advanced.Ended := Scanner.mode_next_ending h hkind

lemma gives_ended_field (h : p.Ended) (letter : Char) :
    Gives (field letter) p fun _ q => q.token.kind ∈ waitingKinds → q.Ended := by
  refine .ifAt (fun _ => .advance (.literalIf (fun htext => ?_) fun _ => ?_)) fun _ =>
    gives_complain _
  · exact .pure (h.advanced (by rw [htext]; decide)).advanced
  · exact .pure h.advanced

/-- Behind the fields of a command without flags the end of the command is looked for. -/
lemma gives_ended_fields (h : p.advanced.Ended) (letter : Char) :
    Gives (fields letter) p fun _ q => q.Ended := by
  have hdelimiter : ∀ q : Parser, q.token.kind = .delimiter → q.token.kind ∈ waitingKinds :=
    fun q hq => by rw [hq]; decide
  refine .advance (.ifAt (fun _ => gives_complain _) fun _ => ?_)
  refine (gives_ended_field h letter).bind fun first q hq => ?_
  intro texts r hm
  obtain ⟨second, q', hsecond, hrest⟩ := run_bind_eq_ok.1 hm
  have hopened : q.token.kind = .delimiter := gives_field_delimiter letter second q' hsecond
  have hq' := gives_ended_field (hq (hdelimiter q hopened)) letter second q' hsecond
  revert hrest
  refine Gives.ifAt (R := fun _ r => r.Ended) (fun hclosed => ?_) (fun _ => gives_complain _)
    texts r
  exact .pure (hq' (hdelimiter q' hclosed))

/-! ### Arguments -/

lemma reads_fileName {name : Text} (hsandbox : p.options.sandbox = false)
    (h : Ahead p (t :: ⟨.word, name⟩ :: ts)) : Reads fileName p name ts := by
  refine reads_get ?_
  rw [hsandbox, if_neg Bool.false_ne_true]
  exact (reads_advance h).bind fun q _ h => (reads_literalIf h rfl).bind fun q _ h => .pure h

/-- Passing a token into another mode, where the next one is read as it is. -/
lemma reads_advanceIn_ending
    (hnext : ({ p.scanner with mode := .ending } : Scanner).next = p.scanner.next)
    (h : Ahead p (t :: ts)) : Reads (advanceIn .ending) p ⟨⟩ ts := by
  have hadvanced : ({ p with scanner := { p.scanner with mode := .ending } } : Parser).advanced =
      p.advanced := by
    rw [advanced, advanced, hnext]
  refine ⟨p.advanced, ?_, onward_advanced p, h.advanced⟩
  rw [← hadvanced]
  rfl

lemma reads_plain {letter : Char} (hpending : p.scanner.pending = [])
    (hmode : p.scanner.mode = .command) (place : Location) (h : Ahead p (t :: lineEnd :: ts)) :
    Reads (argument letter place .nothing) p (plainAction letter) (lineEnd :: ts) :=
  (reads_advanceIn_ending (Scanner.next_ending_of_lineEnd hpending hmode h.2.1) h).bind
    fun _ _ h => .pure h

lemma reads_branch {letter : Char} (goal : Option Text) (place : Location)
    (h : Ahead p (t :: ((goal.map fun name => ⟨.word, name⟩).toList ++ lineEnd :: ts))) :
    Reads (argument letter place .label) p (.branch (branchCondition letter) goal none)
      (lineEnd :: ts) := by
  refine (reads_advance h).bind fun _ _ h => ?_
  cases goal with
  | none =>
      exact (reads_literalIf_of_ne .word h (by decide)).bind fun q _ h => .pure h
  | some name => exact (reads_literalIf h rfl).bind fun q _ h => .pure h

/-- The number behind a command, if there is one. -/
lemma reads_numberArgument {letter : Char} {n : Option ℕ} (hn : ∀ k ∈ n, k < numberLimit)
    (hcode : letter ≠ 'l' → n.getD 0 < exitCodeLimit)
    (h : Ahead p (t :: ((n.map fun k => ⟨.number, Text.decimal k⟩).toList ++ lineEnd :: ts))) :
    Reads (numberArgument letter) p
      (if letter = 'l' then .list n else .quit (n.getD 0) (letter = 'q')) (lineEnd :: ts) := by
  have hrest : ∀ {q : Parser}, Ahead q (lineEnd :: ts) → Reads (if letter = 'l' then return .list n
      else
        let code := n.getD 0
        if code < exitCodeLimit then return .quit code (letter = 'q')
        else complain .invalidExitCode : Parse Action) q
        (if letter = 'l' then .list n else .quit (n.getD 0) (letter = 'q')) (lineEnd :: ts) := by
    intro q h
    split
    · exact .pure h
    · rw [if_pos (hcode ‹_›)]
      exact .pure h
  refine (reads_advance h).bind fun q _ h => ?_
  cases n with
  | none =>
      refine (reads_isAt .number h).bind fun q _ h => ?_
      rw [decide_eq_false (show lineEnd.kind ≠ .number by decide), if_neg Bool.false_ne_true]
      exact hrest h
  | some k =>
      refine (reads_isAt .number h).bind fun q _ h => ?_
      rw [decide_eq_true rfl, if_pos rfl]
      exact (reads_number (hn k rfl) h).bind fun q _ h => (reads_advance h).bind fun q _ h =>
        hrest h

/-- The text of a command is read up to the end of its line. -/
lemma run_textArgument {letter : Char} {literal text : Text}
    (htext : unescapeText p.options.posix literal = text)
    (h : Ahead p (t :: ⟨.backslash, ['\\']⟩ :: ⟨.text, literal⟩ :: lineEnd :: ts)) :
    (textArgument letter).run p =
      .ok (.ofText letter text, p.advanced.advanced.advanced) := by
  have hbackslash : p.advanced.token = ⟨.backslash, ['\\']⟩ := h.advanced.1
  have hliteral : p.advanced.advanced.token = ⟨.text, literal⟩ := h.advanced.advanced.1
  have hline : p.advanced.advanced.advanced.token = lineEnd := h.advanced.advanced.advanced.1
  have hat : (isAt .backslash).run p.advanced = .ok (true, p.advanced) := by
    change Except.ok (decide (p.advanced.token.kind = .backslash), p.advanced) = _
    rw [hbackslash]
    rfl
  have hend : (isAt .eof).run p.advanced.advanced.advanced =
      .ok (false, p.advanced.advanced.advanced) := by
    change Except.ok (decide (p.advanced.advanced.advanced.token.kind = .eof), _) = _
    rw [hline]
    rfl
  have hoptions : p.advanced.advanced.options = p.options := rfl
  rw [textArgument]
  refine (run_bind_of_ok (m := advance) (q := p.advanced) rfl).trans ?_
  refine (run_bind_of_ok hat).trans ?_
  refine (run_bind_of_ok (m := advance) (q := p.advanced.advanced) rfl).trans ?_
  refine (run_get_bind _).trans ?_
  rw [hliteral]
  dsimp only
  rw [if_neg (by simp), if_neg (by simp), hoptions, htext]
  refine (run_bind_of_ok (m := advance) (q := p.advanced.advanced.advanced) rfl).trans ?_
  refine (run_bind_of_ok hend).trans ?_
  rw [Bool.and_false, if_neg Bool.false_ne_true]
  split
  · rfl
  · rfl
  · rename_i happend hinsert
    rw [Action.ofText.eq_3 letter _ happend hinsert]
    rfl

lemma reads_textArgument {letter : Char} {literal text : Text}
    (htext : unescapeText p.options.posix literal = text)
    (h : Ahead p (t :: ⟨.backslash, ['\\']⟩ :: ⟨.text, literal⟩ :: lineEnd :: ts)) :
    Reads (textArgument letter) p (.ofText letter text) (lineEnd :: ts) :=
  ⟨_, run_textArgument htext h, ⟨rfl, rfl, rfl⟩, h.advanced.advanced.advanced⟩

/-- Behind the two fields the end of the command is looked for. -/
lemma reads_ended_fields (letter : Char) {first second : Text} (hended : p.advanced.Ended)
    (h : Ahead p (t :: (fieldsTokens first second ++ lineEnd :: ts))) :
    ∃ q, (fields letter).run p = .ok ((first, second), q) ∧ Onward p q ∧ q.Ended ∧
      Ahead q (⟨.delimiter, ['/']⟩ :: lineEnd :: ts) := by
  rw [fieldsTokens, List.cons_append, List.append_assoc, List.cons_append, List.append_assoc,
    List.singleton_append] at h
  have hfields : Reads (fields letter) p (first, second) _ := reads_fields h
  obtain ⟨q, hrun, honward, hahead⟩ := hfields
  exact ⟨q, hrun, honward, gives_ended_fields hended letter _ _ hrun, hahead⟩

lemma reads_transliteration {y : Transliteration} {first second : Text}
    (hsource : unescapeSet first = y.source) (htarget : unescapeSet second = y.target)
    (hlength : y.source.length = y.target.length) (hended : p.advanced.Ended)
    (h : Ahead p (t :: (fieldsTokens first second ++ lineEnd :: ts))) :
    Reads transliteration p (.transliterate y) (lineEnd :: ts) := by
  obtain ⟨q, hrun, honward, hending, hahead⟩ := reads_ended_fields 'y' hended h
  have hfinish : Reads (do
      advanceIn .ending
      return Action.transliterate ⟨y.source, y.target⟩) q (.transliterate y) (lineEnd :: ts) :=
    (reads_advanceIn_ending (by rw [← show q.scanner.mode = .ending from hending]) hahead).bind
      fun _ _ h => .pure h
  obtain ⟨r, hrun', honward', hahead'⟩ := hfinish
  refine ⟨r, (run_bind_of_ok hrun).trans ?_, honward.trans honward', hahead'⟩
  dsimp only
  rw [hsource, htarget, if_neg (not_not.2 hlength)]
  exact hrun'

/-- Sets of which one is longer are refused where the second ends. -/
lemma run_transliteration_of_ne {first second : Text}
    (hlength : (unescapeSet first).length ≠ (unescapeSet second).length) (hended : p.advanced.Ended)
    (h : Ahead p (t :: (fieldsTokens first second ++ lineEnd :: ts))) :
    ∃ place, transliteration.run p = .error (.script place Complaint.unequalSets.message) := by
  obtain ⟨q, hrun, -, -, -⟩ := reads_ended_fields 'y' hended h
  refine ⟨q.place, (run_bind_of_ok hrun).trans ?_⟩
  dsimp only
  rw [if_pos hlength]
  rfl

/-! ### Substitutions -/

section Flags

variable {files : List OutputFile} {k k' : ℕ} {place : Location} {o : Options}
  {flags flags' : SubstitutionFlags}

/-- With these tokens the flags so far become others. -/
def ReadsFlags (files : List OutputFile) (k k' : ℕ) (place : Location) (o : Options)
    (flags : SubstitutionFlags) (us : List Token) (flags' : SubstitutionFlags) : Prop :=
  ∀ fuel p ts, p.options = o → us.length ≤ fuel → Named files k p →
    Ahead p (us ++ lineEnd :: ts) →
    Fetches files k' (substitutionFlags place fuel flags) p flags' (lineEnd :: ts)

lemma readsFlags_nil : ReadsFlags files k k place o flags [] flags := by
  intro fuel p ts _ _ hnamed h
  have htoken : p.token = lineEnd := h.1
  have hread : Reads (substitutionFlags place fuel flags) p flags (lineEnd :: ts) :=
    ⟨p, Setting.substitutionFlags_of_ne fuel flags (by rw [htoken]; decide)
      (by rw [htoken]; decide), .refl p, h⟩
  exact hread.fetches hnamed

/-- Each token takes one unit of fuel. -/
lemma readsFlags_cons {t : Token}
    (h : ∀ fuel p ts, p.options = o → us.length ≤ fuel → Named files k p →
      Ahead p (t :: (us ++ lineEnd :: ts)) →
      Fetches files k' (substitutionFlags place (fuel + 1) flags) p flags' (lineEnd :: ts)) :
    ReadsFlags files k k' place o flags (t :: us) flags' := by
  intro fuel p ts hoptions hfuel hnamed hahead
  cases fuel with
  | zero => exact absurd hfuel (Nat.not_succ_le_zero _)
  | succ fuel => exact h fuel p ts hoptions (Nat.le_of_succ_le_succ hfuel) hnamed hahead

lemma ReadsFlags.number {n : ℕ} (hpos : 0 < n) (hn : n < numberLimit)
    (hnone : flags.occurrence = none)
    (hrest : ReadsFlags files k k' place o { flags with occurrence := some n } us flags') :
    ReadsFlags files k k' place o flags (⟨.number, Text.decimal n⟩ :: us) flags' := by
  refine readsFlags_cons fun fuel p ts hoptions hfuel hnamed h => fetches_get ?_
  rw [h.1]
  dsimp only
  rw [hnone, if_neg (by decide)]
  refine ((reads_number hn h).fetches hnamed).bind fun q hq hnamed h => ?_
  rw [if_neg hpos.ne']
  refine ((reads_advance h).fetches hnamed).bind fun q' hq' hnamed h => ?_
  exact hrest fuel q' ts ((hq'.trans hq).trans hoptions) hfuel hnamed h

lemma ReadsFlags.letter {letter : Char} {flags₁ : SubstitutionFlags}
    (hadd : flags.add? letter = .ok flags₁) (hw : letter ≠ 'w')
    (hrest : ReadsFlags files k k' place o flags₁ us flags') :
    ReadsFlags files k k' place o flags (⟨.word, [letter]⟩ :: us) flags' := by
  refine readsFlags_cons fun fuel p ts hoptions hfuel hnamed h => fetches_get ?_
  rw [h.1]
  dsimp only
  refine ((reads_currentChar h).fetches hnamed).bind fun q hq hnamed h => ?_
  rw [if_neg hw, hadd]
  refine ((reads_advance h).fetches hnamed).bind fun q' hq' hnamed h => ?_
  exact hrest fuel q' ts ((hq'.trans hq).trans hoptions) hfuel hnamed h

lemma readsFlags_write (hfiled : Filed files) (hk : k' ≤ files.length) {target : Target}
    (htakes : Takes k (some target) k') (hsandbox : o.sandbox = false) :
    ReadsFlags files k k' place o flags [⟨.word, ['w']⟩, ⟨.word, target.name files⟩]
      { flags with write := some target } := by
  refine readsFlags_cons fun fuel p ts hoptions _ hnamed h => fetches_get ?_
  rw [h.1]
  dsimp only
  refine ((reads_currentChar h).fetches hnamed).bind fun q hq hnamed h => ?_
  rw [if_pos rfl]
  have hname := reads_fileName (by rw [hq, hoptions, hsandbox]) h
  refine (hname.fetches hnamed).bind fun q' _ hnamed h => ?_
  exact (fetches_target hfiled hnamed hk htakes place h).bind fun _ _ hnamed h => .pure hnamed h

/-- The flags of a substitution are read back from their tokens. -/
lemma readsFlags_flagTokens (hfiled : Filed files) (hk : k' ≤ files.length) {s : Substitution}
    (hs : s.Writable) (htakes : Takes k s.write k') (hsandbox : s.write.isSome → o.sandbox = false)
    (place : Location) (pattern : Regex.Options) :
    ReadsFlags files k k' place o ⟨pattern, none, false, false, none⟩ (s.flagTokens files)
      ⟨pattern, if s.occurrence > 1 then some s.occurrence else none, s.everywhere, s.print,
        s.write⟩ := by
  have hwrite : ∀ occurrence everywhere print,
      ReadsFlags files k k' place o ⟨pattern, occurrence, everywhere, print, none⟩
        (Target.flagTokens files s.write) ⟨pattern, occurrence, everywhere, print, s.write⟩ := by
    intro occurrence everywhere print
    cases hw : s.write with
    | none =>
        rw [hw] at htakes
        obtain ⟨rfl, -⟩ | ⟨-, he⟩ := htakes
        · exact readsFlags_nil
        · cases he
    | some target =>
        rw [hw] at htakes hsandbox
        exact readsFlags_write hfiled hk htakes (hsandbox rfl)
  have hprint : ∀ occurrence everywhere,
      ReadsFlags files k k' place o ⟨pattern, occurrence, everywhere, false, none⟩
        ((if s.print then [⟨.word, ['p']⟩] else []) ++ Target.flagTokens files s.write)
        ⟨pattern, occurrence, everywhere, s.print, s.write⟩ := by
    intro occurrence everywhere
    cases s.print with
    | false => exact hwrite _ _ _
    | true => exact .letter rfl (by decide) (hwrite _ _ _)
  have heverywhere : ∀ occurrence,
      ReadsFlags files k k' place o ⟨pattern, occurrence, false, false, none⟩
        ((if s.everywhere then [⟨.word, ['g']⟩] else []) ++
          ((if s.print then [⟨.word, ['p']⟩] else []) ++ Target.flagTokens files s.write))
        ⟨pattern, occurrence, s.everywhere, s.print, s.write⟩ := by
    intro occurrence
    cases s.everywhere with
    | false => exact hprint _ _
    | true => exact .letter rfl (by decide) (hprint _ _)
  rw [Substitution.flagTokens, List.append_assoc, List.append_assoc]
  split
  · exact .number hs.occurrence_pos hs.occurrence_lt rfl (heverywhere _)
  · exact heverywhere _

/-- A substitution is read back from its tokens. -/
lemma fetches_substitution (hfiled : Filed files) (hnamed : Named files k p)
    (hk : k' ≤ files.length) {s : Substitution} (hs : s.Writable) (hsound : s.Sound)
    (hflags : ∀ re ∈ s.regex, re.Unflagged p.options.extended) (htakes : Takes k s.write k')
    (hsandbox : s.write.isSome → p.options.sandbox = false) (letter : Char)
    (h : Ahead p ((Action.substitute s).tokens files letter ++ lineEnd :: ts)) :
    Fetches files k' (substitution place) p (.substitute s) (lineEnd :: ts) := by
  obtain ⟨replacement, htemplate⟩ := hs.template
  simp only [Action.tokens, fieldsTokens, List.cons_append, List.append_assoc,
    List.nil_append] at h
  refine ((reads_fields h).fetches hnamed).bind fun q₁ h₁ hnamed h => ?_
  refine ((reads_advance h).fetches hnamed).bind fun q₂ h₂ hnamed h => fetches_get ?_
  have hoptions : q₂.options = p.options := h₂.trans h₁
  have hlength : (s.flagTokens files).length ≤ q₂.bound := by
    refine le_trans ?_ (left_le_bound q₂)
    exact length_le_left h s.flagTokens_ne_eof
  have hread := readsFlags_flagTokens hfiled hk hs htakes hsandbox place
    ⟨q₂.options.extended, false, false⟩ q₂.bound q₂ ts hoptions hlength hnamed h
  refine hread.bind fun q₃ h₃ hnamed h => ?_
  refine ((reads_isAt .illegal h).fetches hnamed).bind fun q₄ h₄ hnamed h => ?_
  rw [decide_eq_false (by decide), if_neg Bool.false_ne_true, hoptions]
  refine ((reads_compileSource hs.regex hflags h).fetches hnamed).bind fun q₅ h₅ hnamed h => ?_
  have hcompile : Template.compile s.template.scanned = s.template := by
    rw [htemplate, Template.compile_scanned]
  have hgroups : ¬ (s.regex.any fun re => re.groupCount ≤ s.template.maxGroup) = true := by
    cases hregex : s.regex with
    | none => exact Bool.false_ne_true
    | some re => simpa using hsound.maxGroup_lt re hregex
  dsimp only
  rw [hcompile, if_neg hgroups]
  have hoccurrence : (if s.occurrence > 1 then some s.occurrence else none).getD 1 =
      s.occurrence := by
    have hpos := hs.occurrence_pos
    split
    · rfl
    · rw [Option.getD_none]
      omega
  rw [hoccurrence]
  exact .pure hnamed h

end Flags

/-! ### Arguments of commands -/

section Arguments

variable {files : List OutputFile} {k k' : ℕ} {o : Options}

/-- Where no target is named no file is taken. -/
lemma Takes.eq_of_none (h : Takes k none k') : k' = k := by
  obtain ⟨rfl, -⟩ | ⟨-, he⟩ := h
  · rfl
  · cases he

lemma tokens_plainAction (files : List OutputFile) (letter : Char) :
    (plainAction letter).tokens files letter = [⟨.command, [letter]⟩] ∧
      (plainAction letter).target? = none := by
  unfold plainAction
  split <;> exact ⟨rfl, rfl⟩

lemma tokens_ofText (files : List OutputFile) (letter : Char) (text : Text) :
    (Action.ofText letter text).tokens files letter =
        [⟨.command, [letter]⟩, ⟨.backslash, ['\\']⟩, ⟨.text, text⟩] ∧
      (Action.ofText letter text).text? = some text ∧
      (Action.ofText letter text).target? = none := by
  unfold Action.ofText
  split <;> exact ⟨rfl, rfl, rfl⟩

lemma tokens_ofReadName (files : List OutputFile) (letter : Char) (name : Text) :
    (if letter = 'R' then Action.appendFileLine name else .appendFile name).tokens files letter =
        [⟨.command, [letter]⟩, ⟨.word, name⟩] ∧
      (if letter = 'R' then Action.appendFileLine name else .appendFile name).target? = none := by
  split <;> exact ⟨rfl, rfl⟩

lemma tokens_ofWriteName (files : List OutputFile) (letter : Char) (target : Target) :
    (if letter = 'W' then Action.writeFirstLine target else .write target).tokens files letter =
        [⟨.command, [letter]⟩, ⟨.word, target.name files⟩] ∧
      (if letter = 'W' then Action.writeFirstLine target else .write target).target? =
        some target := by
  split <;> exact ⟨rfl, rfl⟩

/-- The number of a command that has one. -/
lemma exists_number (files : List OutputFile) {letter : Char} {a : Action}
    (ha : Argument.number.Writes o letter a) :
    ∃ n : Option ℕ, a.target? = none ∧ a.tokens files letter =
        ⟨.command, [letter]⟩ :: (n.map fun k => ⟨.number, Text.decimal k⟩).toList ∧
      (∀ k ∈ n, k < numberLimit) ∧ (letter ≠ 'l' → n.getD 0 < exitCodeLimit) ∧
      a = if letter = 'l' then .list n else .quit (n.getD 0) (letter = 'q') := by
  rw [Argument.Writes] at ha
  split at ha
  · rename_i hl
    obtain ⟨width, rfl, hwidth⟩ := ha
    refine ⟨width, rfl, ?_, hwidth, fun hne => absurd hl hne, (if_pos hl).symm⟩
    cases width <;> rfl
  · rename_i hl
    obtain ⟨code, rfl, hcode⟩ := ha
    have hlimit : exitCodeLimit ≤ numberLimit := by decide
    by_cases hzero : code = 0
    · subst hzero
      refine ⟨none, rfl, rfl, ?_, fun _ => hcode, (if_neg hl).symm⟩
      rintro _ ⟨⟩
    · refine ⟨some code, rfl, ?_, ?_, fun _ => hcode, (if_neg hl).symm⟩
      · rw [Action.tokens, if_neg hzero]
        rfl
      · rintro _ ⟨⟩
        exact hcode.trans_le hlimit

/-- The tokens of a command with an argument begin with its letter. -/
lemma exists_tokens_of_writes (files : List OutputFile) {letter : Char} {kind : Argument}
    {a : Action} (ha : kind.Writes o letter a) :
    ∃ ts, a.tokens files letter = ⟨.command, [letter]⟩ :: ts := by
  cases kind with
  | nothing =>
      obtain rfl := ha
      exact ⟨[], (tokens_plainAction files letter).1⟩
  | label =>
      obtain ⟨goal, rfl, -⟩ := ha
      cases goal <;> exact ⟨_, rfl⟩
  | number =>
      obtain ⟨n, -, htokens, -⟩ := exists_number files ha
      exact ⟨_, htokens⟩
  | readName =>
      obtain ⟨-, name, -, rfl⟩ := ha
      exact ⟨_, (tokens_ofReadName files letter name).1⟩
  | writeName =>
      obtain ⟨-, target, rfl⟩ := ha
      exact ⟨_, (tokens_ofWriteName files letter target).1⟩
  | text =>
      obtain ⟨text, rfl⟩ := ha
      exact ⟨_, (tokens_ofText files letter text).1⟩
  | substitution =>
      obtain ⟨s, rfl, -⟩ := ha
      exact ⟨_, rfl⟩
  | transliteration =>
      obtain ⟨y, rfl, -⟩ := ha
      exact ⟨_, rfl⟩

lemma reads_readName {letter : Char} {name : Text} (hsandbox : p.options.sandbox = false)
    (place : Location)
    (h : Ahead p (⟨.command, [letter]⟩ :: ⟨.word, name⟩ :: lineEnd :: ts)) :
    Reads (argument letter place .readName) p
      (if letter = 'R' then .appendFileLine name else .appendFile name) (lineEnd :: ts) :=
  (reads_fileName hsandbox h).bind fun _ _ h => .pure h

lemma fetches_writeName (hfiled : Filed files) (hnamed : Named files k p) (hk : k' ≤ files.length)
    {letter : Char} {target : Target} (htakes : Takes k (some target) k')
    (hsandbox : p.options.sandbox = false) (place : Location)
    (h : Ahead p (⟨.command, [letter]⟩ :: ⟨.word, target.name files⟩ :: lineEnd :: ts)) :
    Fetches files k' (argument letter place .writeName) p
      (if letter = 'W' then .writeFirstLine target else .write target) (lineEnd :: ts) :=
  ((reads_fileName hsandbox h).fetches hnamed).bind fun _ _ hnamed h =>
    (fetches_target hfiled hnamed hk htakes place h).bind fun _ _ hnamed h => .pure hnamed h

/-- Behind its two fields the scanner expects the end of a transliteration. -/
lemma ended_of_transliteration (hpending : p.scanner.pending = [])
    (hmode : p.scanner.mode = Argument.transliteration.mode) : p.advanced.Ended := by
  have hscan : p.scanner.scan = p.scanner.fields .ending := by
    rw [Scanner.scan, hmode]
    rfl
  change p.scanner.next.2.mode = .ending
  rw [Scanner.next_of_pending_nil hpending, hscan]
  exact Scanner.mode_fields_ending p.scanner

/-- The argument of a command is read back from its tokens. -/
lemma fetches_argument (hfiled : Filed files) (hk : k' ≤ files.length) {letter : Char}
    {kind : Argument} {addresses : ℕ} {a : Action}
    (hletter : Argument.ofLetter? o.posix letter = some (kind, addresses))
    (ha : kind.Writes o letter a) (hread : a.Read)
    (hregex : ∀ re ∈ a.regex?, re.Unflagged o.extended)
    (htext : ∀ t ∈ a.text?, '\n' ∉ t ∧ '\\' ∉ t)
    (hsets : ∀ y, a = .transliterate y → ∀ x ∈ y.source ++ y.target, x.isAlphanum = true)
    (htakes : Takes k a.target? k') (place : Location) (hsettled : Settled o p)
    (hnamed : Named files k p) (h : Ahead p (a.tokens files letter ++ lineEnd :: ts)) :
    Fetches files k' (argument letter place kind) p a (lineEnd :: ts) := by
  have hoptions := hsettled.options
  -- the tokens begin with the letter, behind which the scanner reads the argument
  have hmode : p.scanner.pending = [] ∧ p.scanner.mode = kind.mode := by
    obtain ⟨us, htokens⟩ := exists_tokens_of_writes files ha
    rw [htokens] at h
    have htoken := h.1
    rw [← Argument.afterCommand_eq hletter]
    have hbehind := hsettled.behind.command (by rw [htoken])
    rwa [htoken] at hbehind
  cases kind with
  | nothing =>
      obtain rfl := ha
      obtain ⟨htokens, htarget⟩ := tokens_plainAction files letter
      rw [htokens] at h
      rw [htarget] at htakes
      obtain rfl := htakes.eq_of_none
      obtain ⟨hpending, hcommand⟩ := hmode
      exact (reads_plain hpending hcommand place h).fetches hnamed
  | label =>
      obtain ⟨goal, rfl, -⟩ := ha
      obtain rfl := htakes.eq_of_none
      have hgoal : Ahead p (⟨.command, [letter]⟩ ::
          ((goal.map fun name => ⟨.word, name⟩).toList ++ lineEnd :: ts)) := by
        cases goal <;> exact h
      exact (reads_branch goal place hgoal).fetches hnamed
  | number =>
      obtain ⟨n, htarget, htokens, hlimit, hcode, heq⟩ := exists_number files ha
      rw [htarget] at htakes
      obtain rfl := htakes.eq_of_none
      rw [htokens] at h
      rw [heq]
      exact (reads_numberArgument hlimit hcode h).fetches hnamed
  | readName =>
      obtain ⟨hsandbox, name, -, rfl⟩ := ha
      obtain ⟨htokens, htarget⟩ := tokens_ofReadName files letter name
      rw [htokens] at h
      rw [htarget] at htakes
      obtain rfl := htakes.eq_of_none
      exact (reads_readName (hoptions ▸ hsandbox) place h).fetches hnamed
  | writeName =>
      obtain ⟨hsandbox, target, rfl⟩ := ha
      obtain ⟨htokens, htarget⟩ := tokens_ofWriteName files letter target
      rw [htokens] at h
      rw [htarget] at htakes
      exact fetches_writeName hfiled hnamed hk htakes (hoptions ▸ hsandbox) place h
  | text =>
      obtain ⟨text, rfl⟩ := ha
      obtain ⟨htokens, hself, htarget⟩ := tokens_ofText files letter text
      rw [htokens] at h
      rw [htarget] at htakes
      obtain rfl := htakes.eq_of_none
      exact (reads_textArgument (unescapeWith_of_not_mem (htext text hself).2) h).fetches hnamed
  | substitution =>
      obtain ⟨s, rfl, hs, hsandbox⟩ := ha
      refine fetches_substitution hfiled hnamed hk hs hread ?_ htakes ?_ letter h
      · rw [hoptions]
        exact hregex
      · rw [hoptions]
        exact hsandbox
  | transliteration =>
      obtain ⟨y, rfl, hlength⟩ := ha
      obtain rfl := htakes.eq_of_none
      have hself : ∀ set : Text, (∀ c ∈ set, c.isAlphanum = true) → unescapeSet set = set :=
        fun set hset => unescapeWith_of_not_mem fun hmem => absurd (hset _ hmem) (by decide)
      have hsets := List.forall_mem_append.1 (hsets y rfl)
      exact (reads_transliteration (hself _ hsets.1) (hself _ hsets.2) hlength
        (ended_of_transliteration hmode.1 hmode.2) h).fetches hnamed

end Arguments

/-! ### Statements -/

section Statements

variable {files : List OutputFile} {k k' ranges : ℕ} {o : Options} {c : Command}

/-- A statement from the state behind its addresses and the sign of its negation on. -/
structure Front [Regex.Library] (files : List OutputFile) (o : Options) (p : Parser) (c : Command)
    (ranges : ℕ) (ts : List Token) (r : Parser) : Prop where
  openBlock : r.token.kind = .openBrace →
    statement.run p = (openBlock c.selection c.negated r.place).run r
  label : r.token.kind = .colon → statement.run p = (label c.selection r.place).run r
  command : r.token.kind = .command → statement.run p =
    (command c.selection c.negated r.place >>= fun _ => expectEnd).run r
  commands : r.commands = p.commands
  outputFiles : r.outputFiles = p.outputFiles
  rangeCount : r.rangeCount = ranges
  openBlocks : r.openBlocks = p.openBlocks
  settled : Settled o r
  ahead : Ahead r (c.action.tokens files c.letter ++ ts)

/-- The addresses of a command and the sign of its negation are read back from their tokens. -/
lemma exists_front (hs : c.selection.Writable) (hzero : c.selection.ZeroPlaced)
    (hflags : ∀ re ∈ c.selection.expressions, re.Unflagged o.extended)
    (hcounted : Counted p.rangeCount c.selection ranges) (hsettled : Settled o p)
    (h : Ahead p (c.tokens files ++ ts)) : ∃ r, Front files o p c ranges ts r := by
  obtain ⟨t, us, htokens, hkind⟩ := c.action.exists_tokens files c.letter
  have hoptions := hsettled.options
  rw [Command.tokens, htokens, List.append_assoc, List.append_assoc, List.cons_append] at h
  have hfront : ∃ u vs, (if c.negated then [⟨.bang, ['!']⟩] else []) ++ t :: (us ++ ts) = u :: vs ∧
      u.kind ∈ selectionEnds := by
    cases c.negated with
    | false => exact ⟨t, us ++ ts, rfl, List.mem_cons_of_mem _ hkind⟩
    | true => exact ⟨⟨.bang, ['!']⟩, t :: (us ++ ts), rfl, List.mem_cons_self⟩
  obtain ⟨u, vs, hfront, hends⟩ := hfront
  rw [hfront] at h
  obtain ⟨q, hselection, hdraft, -, hahead⟩ :=
    leads_selection hs hzero (by rwa [hoptions]) hcounted hends h
  rw [← hfront] at hahead
  obtain ⟨r, hnegation, honward, hahead⟩ := reads_negation hkind hahead
  have hq : Settled o q := (hsettled.selection _ _ hselection).2
  have hfollow : ∀ {m : Parse Unit} (f : Selection → Bool → Parser → Parse Unit),
      f c.selection c.negated r = m →
      (selection >>= fun s => negation >>= fun n => MonadState.get >>= f s n).run p = m.run r :=
    fun f hf => by
      rw [run_bind_of_ok hselection, run_bind_of_ok hnegation, run_get_bind, hf]
  obtain ⟨hcommands, hfiles, hranges, hblocks⟩ := Draft.mk.inj (honward.draft.trans hdraft)
  refine ⟨r, fun hkind => hfollow _ ?_, fun hkind => hfollow _ ?_, fun hkind => hfollow _ ?_,
    hcommands, hfiles, hranges, hblocks, hq.negation _ _ hnegation, by rwa [htokens]⟩ <;>
    simp only [hkind]

lemma Front.named {r : Parser} (h : Front files o p c ranges ts r) (hnamed : Named files k p) :
    Named files k r := by
  rwa [Named, h.outputFiles]

/-- What a part that reads a command back leaves behind. -/
def Rereads (files : List OutputFile) (m : Parse Unit) (p : Parser) (c : Command) (k ranges : ℕ)
    (blocks : List ℕ) (ts : List Token) : Prop :=
  ∃ q place, m.run p = .ok ((), q) ∧ Named files k q ∧
    q.draft = ⟨p.commands ++ [{ c with place }], q.outputFiles, ranges, blocks⟩ ∧ Ahead q ts

/-- The opening of a block. -/
lemma Front.rereads_openBlock {r : Parser} (h : Front files o p c ranges (lineEnd :: ts) r)
    (hletter : c.letter = '{') (haction : c.action = .block 0) (hnamed : Named files k p) :
    Rereads files statement p c k ranges (p.commands.length :: p.openBlocks) (lineEnd :: ts) := by
  obtain ⟨letter, selection, negated, action, place⟩ := c
  obtain rfl : letter = '{' := hletter
  obtain rfl : action = .block 0 := haction
  let q : Parser := { r with
    openBlocks := r.commands.length :: r.openBlocks
    commands := r.commands ++ [⟨'{', selection, negated, .block 0, r.place⟩] }
  have hrun : statement.run p = .ok ((), q.advanced) := h.openBlock (by rw [h.ahead.1])
  refine ⟨q.advanced, r.place, hrun, h.named hnamed, ?_, h.ahead.advanced⟩
  rw [← h.commands, ← h.rangeCount, ← h.openBlocks]
  rfl

/-- A label. -/
lemma Front.rereads_label {r : Parser} (h : Front files o p c ranges (lineEnd :: ts) r)
    {name : Text} (hletter : c.letter = ':') (haction : c.action = .label name)
    (hselection : c.selection = .all) (hnegated : c.negated = false) (hnamed : Named files k p) :
    Rereads files statement p c k ranges p.openBlocks (lineEnd :: ts) := by
  obtain ⟨letter, selection, negated, action, place⟩ := c
  obtain rfl : letter = ':' := hletter
  obtain rfl : action = .label name := haction
  obtain rfl : selection = .all := hselection
  obtain rfl : negated = false := hnegated
  have hname : r.advanced.token = ⟨.word, name⟩ := h.ahead.advanced.1
  let q : Parser := { r.advanced with
    commands := r.commands ++ [⟨':', .all, false, .label name, r.place⟩] }
  have hahead : Ahead q.advanced (lineEnd :: ts) := h.ahead.advanced.advanced
  have hrun : statement.run p = .ok ((), q.advanced) := by
    refine (h.label (by rw [h.ahead.1])).trans ?_
    refine (run_bind_of_ok rfl).trans ((run_get_bind _).trans ?_)
    rw [hname, if_pos rfl]
    exact run_expectEnd hahead
  refine ⟨q.advanced, r.place, hrun, h.named hnamed, ?_, hahead⟩
  rw [← h.commands, ← h.rangeCount, ← h.openBlocks]
  rfl

/-- A command with a letter and its argument. -/
lemma Front.rereads_command {r : Parser} (h : Front files o p c ranges (lineEnd :: ts) r)
    (hfiled : Filed files) (hk : k' ≤ files.length) {kind : Argument} {addresses : ℕ}
    (hletter : Argument.ofLetter? o.posix c.letter = some (kind, addresses))
    (hwrites : kind.Writes o c.letter c.action) (hcount : c.selection.addressCount ≤ addresses)
    (hread : c.action.Read) (hprintable : c.Printable o.extended)
    (htakes : Takes k c.action.target? k') (hnamed : Named files k p) :
    Rereads files statement p c k' ranges p.openBlocks (lineEnd :: ts) := by
  have hregex : ∀ re ∈ c.action.regex?, re.Unflagged o.extended := fun re hre =>
    (hprintable.regexes re (List.mem_append_right _ (Option.mem_toList.2 hre))).1
  obtain ⟨q, hargument, hnamedq, hdraft, hoptions, hahead⟩ := fetches_argument hfiled hk hletter
    hwrites hread hregex hprintable.text hprintable.sets htakes r.place h.settled (h.named hnamed)
    h.ahead
  have htoken : r.token = ⟨.command, [c.letter]⟩ := by
    obtain ⟨us, htokens⟩ := exists_tokens_of_writes files hwrites
    have hfirst := h.ahead
    rw [htokens] at hfirst
    exact hfirst.1
  have hcommand := run_command c.selection c.negated htoken (by rwa [h.settled.options])
    (Nat.not_lt.2 hcount) hargument
  let q' : Parser := { q with
    commands := q.commands ++ [⟨c.letter, c.selection, c.negated, c.action, r.place⟩] }
  have hahead' : Ahead q' (lineEnd :: ts) := hahead
  have hrun : statement.run p = .ok ((), q') :=
    (h.command (by rw [htoken])).trans ((run_bind_of_ok hcommand).trans (run_expectEnd hahead'))
  obtain ⟨hcommands, -, hranges, hblocks⟩ := Draft.mk.inj hdraft
  refine ⟨q', r.place, hrun, hnamedq, ?_, hahead⟩
  rw [← h.commands, ← h.rangeCount, ← h.openBlocks]
  change (⟨q.commands ++ _, q.outputFiles, q.rangeCount, q.openBlocks⟩ : Draft) = _
  rw [hcommands, hranges, hblocks]
  rfl

/-- A closing brace. -/
lemma rereads_closeBlock {block : ℕ} {outer : List ℕ} (hopen : p.openBlocks = block :: outer)
    (hnamed : Named files k p) (h : Ahead p (⟨.closeBrace, ['}']⟩ :: lineEnd :: ts)) :
    ∃ q place, closeBlock.run p = .ok ((), q) ∧ Named files k q ∧
      q.draft = ⟨p.commands.modify block (closed p.commands.length) ++
        [⟨'}', .all, false, .blockEnd, place⟩], q.outputFiles, p.rangeCount, outer⟩ ∧
      Ahead q (lineEnd :: ts) := by
  let q : Parser := { p with
    commands := p.commands.modify block (closed p.commands.length) ++
      [⟨'}', .all, false, .blockEnd, p.place⟩]
    openBlocks := outer }
  have hahead : Ahead q.advanced (lineEnd :: ts) := h.advanced
  refine ⟨q.advanced, p.place, ?_, hnamed, rfl, hahead⟩
  refine (run_get_bind _).trans ?_
  rw [hopen]
  exact run_expectEnd hahead

end Statements

end Parser

end StreamEditor
