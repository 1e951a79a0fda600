import StreamEditor.Proofs.Parser.Passage
import StreamEditor.Proofs.Parser.Reread
import StreamEditor.Proofs.Program.Joined
import StreamEditor.Regex.Builtin

/-!
A printed program is read back.

* `Command.Elsewhere`, `Program.Alike`: the same commands and programs, but for places.
* `Parser.Follows`: a parser that has read the lines printed for the first commands of a draft;
  `Follows.step`: one more step of the draft is one more line, `Follows.steps`: so are all steps.
* `Program.collectLabels_congr`: labels do not depend on places.
* `Program.parse_render`: the printed form of a program is a script of the same program.
-/

namespace StreamEditor

open Token (Kind lineEnd)
open Parser.Setting (turn run_statements_succ run_statements_of_eof)

/-- The same command, but for its place. -/
def Command.Elsewhere (c c' : Command) : Prop := ∃ place, c' = { c with place }

/-- Programs that differ in the places of commands and in whether they ask for quiet only. -/
structure Program.Alike (p q : Program) : Prop where
  commands : List.Forall₂ Command.Elsewhere p.commands q.commands
  labels : p.labels = q.labels
  outputFiles : p.outputFiles.map (·.name) = q.outputFiles.map (·.name)
  rangeCount : p.rangeCount = q.rangeCount

/-- What the printed form may leave out concerns expressions, texts and sets only. -/
lemma Command.Printable.of_eq [Regex.Library] {extended : Bool} {c c' : Command}
    (hs : c'.selection = c.selection) (hr : c'.action.regex? = c.action.regex?)
    (ht : c'.action.text? = c.action.text?)
    (hy : ∀ y, c'.action = .transliterate y → c.action = .transliterate y)
    (h : c.Printable extended) : c'.Printable extended where
  regexes := by rw [hs, hr]; exact h.regexes
  text := by rw [ht]; exact h.text
  sets := fun y hc => h.sets y (hy y hc)

namespace Parser

variable {library : Regex.Library}

/-! ### The commands of earlier drafts -/

lemma elsewhere_closed {c c' : Command} (h : c.Elsewhere c') (stop : ℕ) :
    (closed stop c).Elsewhere (closed stop c') := by
  obtain ⟨letter, selection, negated, action, place⟩ := c
  obtain ⟨place', rfl⟩ := h
  refine ⟨place', ?_⟩
  cases action <;> rfl

lemma tokens_closed (files : List OutputFile) (stop : ℕ) (c : Command) :
    (closed stop c).tokens files = c.tokens files := by
  rw [closed]
  split
  · rename_i t ht
    rw [Command.tokens, Command.tokens, ht]
    rfl
  · rfl

lemma printable_closed [Regex.Library] {extended : Bool} {stop : ℕ} {c : Command} :
    (closed stop c).Printable extended ↔ c.Printable extended := by
  rw [closed]
  split
  · rename_i t ht
    exact ⟨.of_eq rfl (by rw [ht]; rfl) (by rw [ht]; rfl) fun y hy =>
      absurd (ht.symm.trans hy) (by simp),
      .of_eq rfl (by rw [ht]; rfl) (by rw [ht]; rfl) fun y hy => absurd hy (by simp)⟩
  · exact Iff.rfl

namespace Draft.Step

variable {d d' : Draft}

/-- What does not depend on the ends of blocks is kept of all commands, and one command is added. -/
lemma exists_map_commands (h : d.Step d') : ∃ c ∈ d'.commands,
    ∀ {α : Type} (g : Command → α), (∀ stop c, g (closed stop c) = g c) →
      d'.commands.map g = d.commands.map g ++ [g c] := by
  cases h with
  | command | openBlock => exact ⟨_, List.mem_append_right _ List.mem_cons_self, by simp⟩
  | closeBlock =>
      refine ⟨_, List.mem_append_right _ List.mem_cons_self, fun g hg => ?_⟩
      rw [List.map_append, map_modify_closed (hg _)]
      rfl

lemma prefix_map_commands (h : d.Step d') {α : Type} {g : Command → α}
    (hg : ∀ stop c, g (closed stop c) = g c) : d.commands.map g <+: d'.commands.map g := by
  obtain ⟨c, -, hc⟩ := h.exists_map_commands
  exact ⟨[g c], (hc g hg).symm⟩

lemma prefix_outputFiles (h : d.Step d') : d.outputFiles <+: d'.outputFiles := by
  cases h with
  | command _ _ _ hnames =>
      obtain ⟨rfl, -⟩ | ⟨f, rfl, -, -⟩ := hnames
      · exact List.prefix_rfl
      · exact List.prefix_append _ _
  | openBlock | closeBlock => exact List.prefix_rfl

end Draft.Step

namespace Draft

variable {d d' : Draft}

lemma prefix_map_commands (h : Relation.ReflTransGen Draft.Step d d') {α : Type}
    {g : Command → α} (hg : ∀ stop c, g (closed stop c) = g c) :
    d.commands.map g <+: d'.commands.map g := by
  induction h with
  | refl => exact List.prefix_rfl
  | tail _ hstep ih => exact ih.trans (hstep.prefix_map_commands hg)

lemma prefix_outputFiles (h : Relation.ReflTransGen Draft.Step d d') :
    d.outputFiles <+: d'.outputFiles := by
  induction h with
  | refl => exact List.prefix_rfl
  | tail _ hstep ih => exact ih.trans hstep.prefix_outputFiles

/-- What does not depend on the ends of blocks held before already. -/
lemma forall_mem_commands (h : Relation.ReflTransGen Draft.Step d d') {P : Command → Prop}
    (hP : ∀ stop c, P (closed stop c) ↔ P c) (hall : ∀ c ∈ d'.commands, P c) :
    ∀ c ∈ d.commands, P c := by
  intro c hc
  have hmem := (prefix_map_commands h (g := P) fun stop c => propext (hP stop c)).subset
    (List.mem_map_of_mem hc)
  obtain ⟨c', hc', he⟩ := List.mem_map.1 hmem
  exact he ▸ hall c' hc'

end Draft

/-! ### Lines -/

lemma takes_of_names {before after : List OutputFile} {target : Option Target}
    (h : Names before target after) : Takes before.length target after.length := by
  obtain ⟨rfl, hlt⟩ | ⟨f, rfl, htarget, -⟩ := h
  · exact .inl ⟨rfl, hlt⟩
  · exact .inr ⟨by simp, htarget⟩

/-- A line that is no closing brace begins with a token at which a statement begins. -/
lemma exists_tokens_statement (files : List OutputFile) {c : Command}
    (hend : c.action ≠ .blockEnd) :
    ∃ t ts, c.tokens files = t :: ts ∧ t.kind ≠ .eof ∧ turn t.kind = statement := by
  have hmore : ∀ (t : Token) (ts us : List Token), t.kind ≠ .eof → turn t.kind = statement →
      ∃ t' ts', t :: ts ++ us = t' :: ts' ∧ t'.kind ≠ .eof ∧ turn t'.kind = statement :=
    fun t ts us heof hturn => ⟨t, ts ++ us, rfl, heof, hturn⟩
  have haddress : ∀ (a : Address) (us : List Token), ∃ t ts, a.tokens ++ us = t :: ts ∧
      t.kind ≠ .eof ∧ turn t.kind = statement := by
    intro a us
    cases a <;> exact hmore _ _ us (by simp) rfl
  rw [Command.tokens]
  cases c.selection with
  | single a => exact haddress a _
  | range start stop slot =>
      rw [Selection.tokens, List.append_assoc]
      exact haddress start _
  | all =>
      cases c.negated with
      | true => exact ⟨_, _, rfl, by simp, rfl⟩
      | false =>
          cases hc : c.action with
          | blockEnd => exact absurd hc hend
          | branch condition goal target => cases goal <;> exact ⟨_, _, rfl, by simp, rfl⟩
          | list width => cases width <;> exact ⟨_, _, rfl, by simp, rfl⟩
          | _ => exact ⟨_, _, rfl, by simp, rfl⟩

/-- A turn and the newline behind it are two turns of the parser. -/
lemma run_line {p q : Parser} {ts : List Token} (heof : p.token.kind ≠ .eof)
    (hturn : (turn p.token.kind).run p = .ok ((), q)) (h : Ahead q (lineEnd :: ts)) (fuel : ℕ) :
    (statements (fuel + 2)).run p = (statements fuel).run q.advanced := by
  have hnewline : q.token.kind = .newline := by rw [h.1]; rfl
  rw [run_statements_succ heof, run_bind_of_ok hturn,
    run_statements_succ (by rw [hnewline]; decide), hnewline]
  exact run_bind_of_ok rfl

/-- A parser that has read the lines printed for the commands of a draft, which is a part of a
program with these output files. -/
structure Follows (files : List OutputFile) (o : Options) (d : Draft) (p : Parser)
    (ts : List Token) : Prop where
  settled : Settled o p
  named : Named files d.outputFiles.length p
  commands : List.Forall₂ Command.Elsewhere d.commands p.commands
  rangeCount : p.rangeCount = d.rangeCount
  openBlocks : p.openBlocks = d.openBlocks
  ahead : Ahead p ts

section Follows

variable {files : List OutputFile} {o : Options} {d d' : Draft} {p : Parser} {ts : List Token}

/-- A statement that is read back is one more line. -/
lemma Follows.statement {c : Command} {ranges : ℕ} {blocks : List ℕ} {outputs : List OutputFile}
    (h : Follows files o d p (c.tokens files ++ lineEnd :: ts)) (hend : c.action ≠ .blockEnd)
    (hread : Rereads files statement p c outputs.length ranges blocks (lineEnd :: ts)) :
    ∃ q, (∀ fuel, (statements (fuel + 2)).run p = (statements fuel).run q) ∧
      Follows files o ⟨d.commands ++ [c], outputs, ranges, blocks⟩ q ts := by
  obtain ⟨q, place, hrun, hnamed, hdraft, hahead⟩ := hread
  obtain ⟨t, us, htokens, heof, hturn⟩ := exists_tokens_statement files hend
  have htoken : p.token = t := by
    have hfirst := h.ahead
    rw [htokens] at hfirst
    exact hfirst.1
  obtain ⟨hcommands, -, hranges, hblocks⟩ := Draft.mk.inj hdraft
  refine ⟨q.advanced, run_line (by rwa [htoken]) ?_ hahead, ?_⟩
  · rw [htoken, hturn]
    exact hrun
  · refine ⟨(h.settled.statement _ _ hrun).advanced, hnamed, ?_, hranges, hblocks, hahead.advanced⟩
    change List.Forall₂ _ _ q.commands
    rw [hcommands]
    exact List.rel_append h.commands (.cons ⟨place, rfl⟩ .nil)

/-- A closing brace is one more line. -/
lemma Follows.closeBlock {c : Command} {block : ℕ} {outer : List ℕ}
    (h : Follows files o d p (c.tokens files ++ lineEnd :: ts))
    (hopen : d.openBlocks = block :: outer)
    (hletter : c.letter = '}') (hselection : c.selection = .all) (hnegated : c.negated = false)
    (haction : c.action = .blockEnd) :
    ∃ q, (∀ fuel, (statements (fuel + 2)).run p = (statements fuel).run q) ∧
      Follows files o ⟨d.commands.modify block (closed d.commands.length) ++ [c], d.outputFiles,
        d.rangeCount, outer⟩ q ts := by
  obtain ⟨letter, selection, negated, action, place⟩ := c
  obtain rfl : letter = '}' := hletter
  obtain rfl : selection = .all := hselection
  obtain rfl : negated = false := hnegated
  obtain rfl : action = .blockEnd := haction
  have hahead : Ahead p (⟨.closeBrace, ['}']⟩ :: lineEnd :: ts) := h.ahead
  obtain ⟨q, place', hrun, hnamed, hdraft, hahead'⟩ :=
    rereads_closeBlock (h.openBlocks.trans hopen) h.named hahead
  obtain ⟨hcommands, -, hranges, hblocks⟩ := Draft.mk.inj hdraft
  refine ⟨q.advanced, run_line (by rw [hahead.1]; decide) ?_ hahead', ?_⟩
  · rw [hahead.1]
    exact hrun
  · refine ⟨(h.settled.closeBlock _ _ hrun).advanced, hnamed, ?_, hranges.trans h.rangeCount,
      hblocks, hahead'.advanced⟩
    change List.Forall₂ _ _ q.commands
    rw [hcommands, ← h.commands.length_eq]
    refine List.rel_append (forall₂_modify h.commands ?_ block) (.cons ⟨place', rfl⟩ .nil)
    exact fun _ _ hc => elsewhere_closed hc _

/-- A step of the draft is one more line. -/
lemma Follows.step (hstep : d.Step d') (hfiled : Filed files)
    (hlength : d'.outputFiles.length ≤ files.length) (hwritable : ∀ c ∈ d'.commands, c.Writable o)
    (hprintable : ∀ c ∈ d'.commands, c.Printable o.extended) {line : List Token}
    (hline : d'.commands.map (Command.tokens files) = d.commands.map (Command.tokens files) ++
      [line])
    (h : Follows files o d p (line ++ lineEnd :: ts)) :
    ∃ q, (∀ fuel, (statements (fuel + 2)).run p = (statements fuel).run q) ∧
      Follows files o d' q ts := by
  have hkept := hstep.exists_map_commands
  -- A step reads a command, or opens or closes a block; each of them is printed on a line.
  cases hstep with
  | @command c outputs ranges hzero hread hcounted hnames =>
      have hc := hwritable c (List.mem_append_right _ List.mem_cons_self)
      have hp := hprintable c (List.mem_append_right _ List.mem_cons_self)
      obtain rfl : c.tokens files = line := by simpa using hline
      have hend : c.action ≠ .blockEnd := fun he => by rw [he] at hread; exact hread
      rw [← h.rangeCount] at hcounted
      obtain ⟨r, hr⟩ := exists_front hc.selection hzero
        (fun re hre => (hp.regexes re (List.mem_append_left _ hre)).1) hcounted h.settled h.ahead
      have htakes := takes_of_names hnames
      rw [← h.openBlocks]
      refine h.statement hend ?_
      cases hc with
      | openBlock _ haction => rw [haction] at hread; exact hread.elim
      | closeBlock _ haction => exact absurd haction hend
      | label hletter haction hselection hnegated hname =>
          rw [haction] at htakes
          rw [htakes.eq_of_none]
          exact hr.rereads_label hletter haction hselection hnegated h.named
      | command hletter haction hselection hcount =>
          exact hr.rereads_command hfiled hlength hletter haction hcount hread hp htakes h.named
  | @openBlock c ranges hzero haction hcounted =>
      have hc := hwritable c (List.mem_append_right _ List.mem_cons_self)
      have hp := hprintable c (List.mem_append_right _ List.mem_cons_self)
      obtain rfl : c.tokens files = line := by simpa using hline
      rw [← h.rangeCount] at hcounted
      obtain ⟨r, hr⟩ := exists_front hc.selection hzero
        (fun re hre => (hp.regexes re (List.mem_append_left _ hre)).1) hcounted h.settled h.ahead
      have hletter : c.letter = '{' := by
        cases hc with
        | openBlock hletter => exact hletter
        | closeBlock _ hother | label _ hother =>
            rw [haction] at hother
            cases hother
        | command _ hwrites => exact absurd haction (hwrites.ne_block 0)
      rw [← h.openBlocks, h.commands.length_eq]
      exact h.statement (by simp [haction]) (hr.rereads_openBlock hletter haction h.named)
  | @closeBlock c block outer hopen hselection haction =>
      have hc := hwritable c (List.mem_append_right _ List.mem_cons_self)
      obtain rfl : c.tokens files = line := by
        rw [List.map_append, map_modify_closed (tokens_closed files _)] at hline
        simpa using hline
      cases hc with
      | closeBlock hletter _ _ hnegated =>
          exact h.closeBlock hopen hletter hselection hnegated haction
      | openBlock _ hother | label _ hother =>
          rw [haction] at hother
          cases hother
      | command _ hwrites =>
          obtain ⟨us, htokens⟩ := exists_tokens_of_writes files hwrites
          rw [haction] at htokens
          cases htokens

/-- All steps of the draft are as many lines. -/
lemma Follows.steps (hsteps : Relation.ReflTransGen Draft.Step d d') (hfiled : Filed d'.outputFiles)
    (hwritable : ∀ c ∈ d'.commands, c.Writable o)
    (hprintable : ∀ c ∈ d'.commands, c.Printable o.extended)
    (h : Follows d'.outputFiles o d p
      (Program.lineTokens d'.outputFiles (d'.commands.drop d.commands.length) ++ ts)) :
    ∃ q, (∀ fuel, (statements (fuel + 2 * (d'.commands.length - d.commands.length))).run p =
      (statements fuel).run q) ∧ Follows d'.outputFiles o d' q ts := by
  induction hsteps using Relation.ReflTransGen.head_induction_on generalizing p with
  | refl =>
      rw [List.drop_length] at h
      exact ⟨p, fun fuel => by rw [Nat.sub_self]; rfl, h⟩
  | @head d d₁ hstep hsteps ih =>
      obtain ⟨c, -, hc⟩ := hstep.exists_map_commands
      have hlength : d₁.commands.length = d.commands.length + 1 := by
        simpa using congrArg List.length (hc (fun _ => ()) fun _ _ => rfl)
      -- the command that the step adds has the tokens of the next line
      obtain ⟨rest, hrest⟩ := Draft.prefix_map_commands hsteps (tokens_closed d'.outputFiles)
      have hline := hc _ (tokens_closed d'.outputFiles)
      have hlt : d.commands.length < d'.commands.length := by
        have hadded := congrArg List.length hrest
        simp only [List.length_append, List.length_map] at hadded
        omega
      have htokens : (d'.commands[d.commands.length]).tokens d'.outputFiles =
          c.tokens d'.outputFiles := by
        have hget := congrArg (·[d.commands.length]?) hrest
        simpa [hline, hlt] using hget.symm
      rw [List.drop_eq_getElem_cons hlt, Program.lineTokens, List.flatMap_cons, htokens,
        ← hlength, List.append_assoc, List.append_assoc] at h
      obtain ⟨q₁, hrun₁, h₁⟩ := h.step hstep hfiled (Draft.prefix_outputFiles hsteps).length_le
        (Draft.forall_mem_commands hsteps (fun _ _ => Command.writable_closed) hwritable)
        (Draft.forall_mem_commands hsteps (fun _ _ => printable_closed) hprintable) hline
      obtain ⟨q, hrun, hq⟩ := ih h₁
      refine ⟨q, fun fuel => ?_, hq⟩
      have hfuel : fuel + 2 * (d'.commands.length - d.commands.length) =
          fuel + 2 * (d'.commands.length - d₁.commands.length) + 2 := by omega
      rw [hfuel, hrun₁, hrun]

end Follows

/-! ### Whole programs -/

/-- The script that holds no command is read. -/
lemma run_wholeScript_nil (o : Options) :
    ∃ q, wholeScript.run (start (.ofText []) o) = .ok ((), q) ∧ q.draft = ⟨[], [], 0, []⟩ :=
  ⟨_, rfl, rfl⟩

lemma lineTokens_ne_eof (files : List OutputFile) (commands : List Command) :
    ∀ t ∈ Program.lineTokens files commands, t.kind ≠ .eof := by
  simp only [Program.lineTokens, List.mem_flatMap, List.mem_append, List.mem_singleton]
  rintro t ⟨c, -, ht | rfl⟩
  · exact c.tokens_ne_eof t ht
  · decide

lemma length_lineTokens (files : List OutputFile) (commands : List Command) :
    2 * commands.length ≤ (Program.lineTokens files commands).length := by
  induction commands with
  | nil => exact Nat.zero_le _
  | cons c commands ih =>
      obtain ⟨t, us, htokens, -⟩ := c.action.exists_tokens files c.letter
      have hline : 0 < (c.tokens files).length := by
        rw [Command.tokens, htokens]
        simp only [List.length_append, List.length_cons]
        omega
      rw [Program.lineTokens] at ih ⊢
      rw [List.flatMap_cons, List.length_append, List.length_append, List.length_cons,
        List.length_cons]
      omega

lemma getLast?_renderCommands (files : List OutputFile) (depth : ℕ) {commands : List Command}
    (hne : commands ≠ []) : (Program.renderCommands files depth commands).getLast? = some '\n' := by
  induction commands generalizing depth with
  | nil => exact absurd rfl hne
  | cons c commands ih =>
      rw [Program.renderCommands]
      dsimp only
      rw [List.append_assoc, List.getLast?_append, List.getLast?_append]
      cases commands with
      | nil => rfl
      | cons c' commands =>
          rw [List.getLast?_cons, ih _ (List.cons_ne_nil _ _)]
          rfl

/-- The tokens of a printed program are ahead at the start of its script. -/
lemma ahead_renderCommands {files : List OutputFile} {o : Options} {commands : List Command}
    (hne : commands ≠ []) (hwritable : ∀ c ∈ commands, c.Writable o)
    (hprintable : ∀ c ∈ commands, c.Printable o.extended)
    (htarget : ∀ c ∈ commands, ∀ t ∈ c.action.target?,
      Scanner.Word Scanner.isNameChar (t.name files)) :
    Ahead (start (.ofText (Program.renderCommands files 1 commands)) o)
      (Program.lineTokens files commands ++ [.endOfScript]) := by
  have hlexes : Scanner.LexesAfter 0 none (Program.renderCommands files 1 commands)
      (Program.lineTokens files commands ++ [.endOfScript]) :=
    Scanner.lexes_renderCommands hwritable hprintable htarget rfl 1
  have htext : (Script.ofText (Program.renderCommands files 1 commands)).text =
      Program.renderCommands files 1 commands :=
    (List.nil_append _).trans (if_pos (getLast?_renderCommands files 1 hne))
  have hfeeds : Scanner.Feeds
      (.start (Script.ofText (Program.renderCommands files 1 commands)).text)
      (Program.lineTokens files commands ++ [.endOfScript]) := by
    rw [htext]
    exact hlexes _ _ _
  revert hfeeds
  cases Program.lineTokens files commands ++ [.endOfScript] with
  | nil => exact fun _ => trivial
  | cons t ts => exact id

/-- The lines printed for the commands of a script are read back. -/
lemma exists_run_renderCommands {script : Script} {o : Options} {p : Parser}
    (h : wholeScript.run (start script o) = .ok ((), p))
    (hprintable : ∀ c ∈ p.commands, c.Printable o.extended) :
    ∃ q, wholeScript.run (start (.ofText (Program.renderCommands p.outputFiles 1 p.commands)) o) =
        .ok ((), q) ∧
      List.Forall₂ Command.Elsewhere p.commands q.commands ∧
      p.outputFiles.map (·.name) = q.outputFiles.map (·.name) ∧ p.rangeCount = q.rangeCount := by
  obtain ⟨hsound, hopen⟩ := sound_of_wholeScript h
  -- Without commands nothing is printed, not even a line.
  by_cases hne : p.commands = []
  · have hfiles : p.outputFiles = [] := by
      rw [← List.length_eq_zero_iff]
      by_contra hpos
      have hmem := hsound.files 0 (Nat.pos_of_ne_zero hpos)
      rw [show p.draft.commands = [] from hne] at hmem
      exact List.not_mem_nil hmem
    have hranges : p.rangeCount = 0 := by
      have hslots := hsound.slots
      rw [show p.draft.commands = [] from hne] at hslots
      exact List.range_eq_nil.1 hslots.symm
    obtain ⟨q, hrun, hdraft⟩ := run_wholeScript_nil o
    obtain ⟨hcommands, houtputs, hcount, -⟩ := Draft.mk.inj hdraft
    rw [hne, hfiles, hranges]
    exact ⟨q, hrun, by rw [hcommands]; exact .nil, by rw [houtputs], hcount.symm⟩
  have hsettled := settled_of_wholeScript h
  have hfiled : Filed p.outputFiles := ⟨hsettled.files, hsound.files_nodup⟩
  have htarget : ∀ c ∈ p.commands, ∀ t ∈ c.action.target?,
      Scanner.Word Scanner.isNameChar (t.name p.outputFiles) := by
    intro c hc t ht
    refine Scanner.word_target fun i hi => ?_
    subst hi
    have hlt := hsound.targets c hc i ht
    exact ⟨_, List.getElem?_eq_getElem hlt, hsettled.files _ (List.getElem_mem hlt)⟩
  have hahead := ahead_renderCommands hne hsettled.commands hprintable htarget
  generalize hr : start (.ofText (Program.renderCommands p.outputFiles 1 p.commands)) o =
    r at hahead
  have hfollows : Follows p.outputFiles o ⟨[], [], 0, []⟩ r
      (Program.lineTokens p.outputFiles p.commands ++ [.endOfScript]) := by
    subst hr
    exact ⟨settled_start _ o, rfl, .nil, rfl, rfl, hahead⟩
  obtain ⟨q, hrun, hq⟩ := hfollows.steps (yields_wholeScript _ _ _ h).1 hfiled hsettled.commands
    hprintable
  -- A line is two statements, the command and its end, and no longer than the text it stands in.
  have hbound : 2 * p.commands.length ≤ r.bound :=
    (length_lineTokens _ _).trans ((length_le_left hahead (lineTokens_ne_eof _ _)).trans
      (left_le_bound r))
  have hend : (statements (r.bound - 2 * p.commands.length)).run q = .ok ((), q) :=
    run_statements_of_eof (by rw [hq.ahead.1]; rfl) _
  refine ⟨q, run_wholeScript_eq_ok.2 ⟨?_, hq.openBlocks.trans hopen⟩, hq.commands, ?_,
    hq.rangeCount.symm⟩
  · rw [← hend, ← hrun]
    congr 2
    change r.bound = _ + 2 * (p.commands.length - 0)
    omega
  · refine (Eq.trans hq.named ?_).symm
    rw [List.take_length]
    rfl

end Parser

namespace Program

variable {labels : List (Text × ℕ)} {c c' : Command}

/-! ### Labels -/

lemma printable_resolve [Regex.Library] {extended : Bool} :
    (resolve labels c).Printable extended ↔ c.Printable extended := by
  rw [resolve]
  split
  · rename_i condition name target h
    exact ⟨.of_eq rfl (by rw [h]; rfl) (by rw [h]; rfl) fun y hy =>
      absurd (h.symm.trans hy) (by simp),
      .of_eq rfl (by rw [h]; rfl) (by rw [h]; rfl) fun y hy => absurd hy (by simp)⟩
  · exact Iff.rfl

lemma renderCommands_resolve (files : List OutputFile) (depth : ℕ) (commands : List Command) :
    renderCommands files depth (commands.map (resolve labels)) =
      renderCommands files depth commands := by
  have hrender : ∀ c : Command, (resolve labels c).render files = c.render files ∧
      ∀ depth, depths depth (resolve labels c) = depths depth c := by
    intro c
    rw [resolve]
    split
    · rename_i condition name target h
      rw [Command.render, Command.render, h]
      exact ⟨rfl, fun depth => by rw [depths, depths, h]⟩
    · exact ⟨rfl, fun _ => rfl⟩
  induction commands generalizing depth with
  | nil => rfl
  | cons c commands ih =>
      rw [List.map_cons, renderCommands, renderCommands, (hrender c).1, (hrender c).2]
      dsimp only
      rw [ih]

lemma elsewhere_resolve (h : c.Elsewhere c') :
    (resolve labels c).Elsewhere (resolve labels c') := by
  obtain ⟨letter, selection, negated, action, place⟩ := c
  obtain ⟨place', rfl⟩ := h
  refine ⟨place', ?_⟩
  cases action with
  | branch condition goal target => cases goal <;> rfl
  | _ => rfl

lemma undefinedLabel?_eq_none (h : c.Elsewhere c') (hc : undefinedLabel? labels c = none) :
    undefinedLabel? labels c' = none := by
  obtain ⟨letter, selection, negated, action, place⟩ := c
  obtain ⟨place', rfl⟩ := h
  cases action with
  | branch condition goal target =>
      cases goal with
      | none => rfl
      | some name =>
          rw [undefinedLabel?] at hc ⊢
          dsimp only at hc ⊢
          split at hc
          · cases hc
          · rw [if_neg ‹_›]
  | _ => rfl

/-- Labels do not depend on the places of commands. -/
lemma collectLabels_congr {commands commands' : List Command} {n : ℕ} {found : List (Text × ℕ)}
    (h : List.Forall₂ Command.Elsewhere commands commands')
    (hlabels : collectLabels n labels commands = .ok found) :
    collectLabels n labels commands' = .ok found := by
  induction h generalizing n labels with
  | nil => exact hlabels
  | @cons c c' commands commands' hc _ ih =>
      obtain ⟨letter, selection, negated, action, place⟩ := c
      obtain ⟨place', rfl⟩ := hc
      cases action with
      | label name =>
          rw [collectLabels] at hlabels ⊢
          dsimp only at hlabels ⊢
          split at hlabels
          · cases hlabels
          · rw [if_neg ‹_›]
            exact ih hlabels
      | _ => exact ih hlabels

/-- The printed form of a program without its header is a script of the same program, if it says
all that the commands do. -/
theorem parse_render [Regex.Library] {script : Script} {o : Options} {p : Program}
    (h : parse script o = .ok p) (hprintable : ∀ c ∈ p.commands, c.Printable o.extended) :
    ∃ q, parse (.ofText (p.render.drop header.length)) o = .ok q ∧ p.Alike q := by
  obtain ⟨r, labels, hrun, hlabels, hdefined, rfl⟩ := parse_eq_ok h
  have hprintable' : ∀ c ∈ r.commands, c.Printable o.extended := fun c hc =>
    printable_resolve.1 (hprintable _ (List.mem_map_of_mem hc))
  obtain ⟨q, hrun', hcommands, hfiles, hranges⟩ := Parser.exists_run_renderCommands hrun hprintable'
  have hrest : (render ⟨r.commands.map (resolve labels), labels, r.outputFiles, r.rangeCount,
      script.asksForQuiet⟩).drop header.length = renderCommands r.outputFiles 1 r.commands := by
    rw [render, List.drop_left, renderCommands_resolve]
  have hdefined' : ∀ c ∈ q.commands, undefinedLabel? labels c = none := by
    intro c' hc'
    obtain ⟨i, hi, rfl⟩ := List.mem_iff_getElem.1 hc'
    have hi' : i < r.commands.length := by rwa [hcommands.length_eq]
    exact undefinedLabel?_eq_none (hcommands.get hi' hi) (hdefined _ (List.getElem_mem hi'))
  rw [hrest]
  refine ⟨_, parse_of_run hrun' (collectLabels_congr hcommands hlabels) hdefined', ?_, rfl, hfiles,
    hranges⟩
  rw [List.forall₂_map_left_iff, List.forall₂_map_right_iff]
  exact hcommands.imp fun _ _ => elsewhere_resolve

/-- Printed are a range with a pattern, a block, a substitution that writes a file, a branch to a
label, a text, sets and a number. -/
theorem parse_render_block :
    ∃ p q, parse (.ofText (Text.ofString
        "1,/x/\x7bs/a/&b/2gw out\nb end\n\x7d;:end\na\\\nhi\ny/ab/cd/\nq 3")) .standard = .ok p ∧
      p.commands.length = 8 ∧ (∀ c ∈ p.commands, c.Printable false) ∧
      parse (.ofText (p.render.drop header.length)) .standard = .ok q ∧ p.Alike q := by
  have hok : (parse (.ofText (Text.ofString
      "1,/x/\x7bs/a/&b/2gw out\nb end\n\x7d;:end\na\\\nhi\ny/ab/cd/\nq 3")) .standard).toOption.any
        (fun p => decide (p.commands.length = 8 ∧ ∀ c ∈ p.commands,
          (∀ re ∈ c.selection.expressions ++ c.action.regex?.toList,
            re.isPlain false = true ∧ '/' ∉ re.source) ∧
          (∀ t ∈ c.action.text?.toList, '\n' ∉ t ∧ '\\' ∉ t) ∧
          c.action.sets.all Char.isAlphanum = true)) = true := by
    decide +kernel
  rcases h : parse (.ofText (Text.ofString
      "1,/x/\x7bs/a/&b/2gw out\nb end\n\x7d;:end\na\\\nhi\ny/ab/cd/\nq 3")) .standard with _ | p
  · rw [h] at hok
    cases hok
  · rw [h] at hok
    obtain ⟨hlength, hplain⟩ := of_decide_eq_true hok
    have hprintable : ∀ c ∈ p.commands, c.Printable false := fun c hc =>
      Command.printable_of_isPlain (hplain c hc).1 (hplain c hc).2.1 (hplain c hc).2.2
    obtain ⟨q, hq, halike⟩ := parse_render h hprintable
    exact ⟨p, q, rfl, hlength, hprintable, hq, halike⟩

end Program

end StreamEditor
