import StreamEditor.Proofs.Parser.Reread
import StreamEditor.Proofs.Program.Relocated
import StreamEditor.Regex.Builtin

/-!
Commands with a text, before the rest of a script.

* `Quoted.textCommand`: the lines of a command with a text; `lineReads_lines` and
  `unescapeText_scannedLines` say what the scanner and the parser make of the text.
* `Parser.run_one_second`, `Parser.run_textCommand`: a source that is one command is read, and a
  second one behind it as it is by itself.
* `Program.behind`: a program behind a command on lines of its own.
* `Program.parse_textCommand_append`: a script that begins with such a command is read as this
  command, with just the text, followed by the program of the rest.
-/

namespace StreamEditor

/-! ### Quoted texts -/

namespace Quoted

open Regex.BasicNotation (escapeIf)
open Scanner (LineReads)

/-- A text with a backslash before each backslash and each newline. -/
def lines (t : Text) : Text := t.flatMap (escapeIf fun c => c = '\\' || c = '\n')

/-- A quoted text without the quotes of newlines. -/
def scannedLines (t : Text) : Text := t.flatMap (escapeIf fun c => c = '\\')

/-- The lines of a command with a text. -/
def textCommand (letter : Char) (t : Text) : Text := letter :: '\\' :: '\n' :: (lines t ++ ['\n'])

lemma readUntil_lines_escaped {c : Char} (hc : c = '\\' ∨ c = '\n') (passed rest : Text) :
    Cursor.readUntil (· = '\n') passed ('\\' :: c :: rest) =
      ((if c = '\n' then ['\n'] else ['\\', c]) ++
          (Cursor.readUntil (· = '\n') (c :: '\\' :: passed) rest).1,
        (Cursor.readUntil (· = '\n') (c :: '\\' :: passed) rest).2) := by
  obtain rfl | rfl := hc <;> rfl

/-- The text is read up to the newline that is not quoted. -/
lemma lineReads_lines (t : Text) : LineReads (lines t) (scannedLines t) := by
  induction t with
  | nil => exact Scanner.lineReads_nil
  | cons c t ih =>
      rw [lines, List.flatMap_cons, ← lines, scannedLines, List.flatMap_cons, ← scannedLines]
      by_cases hc : c = '\\' ∨ c = '\n'
      · intro passed rest
        have hquoted : escapeIf (fun c => c = '\\' || c = '\n') c = ['\\', c] :=
          if_pos (by simpa using hc)
        rw [hquoted, List.append_assoc, List.cons_append, List.cons_append, List.nil_append,
          readUntil_lines_escaped hc, ih]
        obtain rfl | rfl := hc <;> simp [escapeIf]
      · obtain ⟨hbackslash, hnewline⟩ := not_or.1 hc
        have hbare := ih.bare hnewline hbackslash
        simpa [escapeIf, hbackslash, hnewline] using hbare

/-- Each backslash is read as itself, so that no escape is left. -/
lemma unescapeText_scannedLines (posix : Bool) (t : Text) :
    unescapeText posix (scannedLines t) = t := by
  induction t with
  | nil => rfl
  | cons c t ih =>
      rw [scannedLines, List.flatMap_cons, ← scannedLines]
      by_cases hbackslash : c = '\\'
      · subst hbackslash
        cases posix <;> exact congrArg ('\\' :: ·) ih
      · have hbare : escapeIf (fun c => c = '\\') c = [c] := by simp [escapeIf, hbackslash]
        rw [hbare, List.singleton_append, unescapeText, unescapeWith, expand, if_neg hbackslash]
        exact congrArg (c :: ·) ih

lemma count_lines (t : Text) : (lines t).count '\n' = t.count '\n' := by
  induction t with
  | nil => rfl
  | cons c t ih =>
      rw [lines, List.flatMap_cons, ← lines, List.count_append, ih, List.count_cons]
      by_cases hc : c = '\\' ∨ c = '\n'
      · obtain rfl | rfl := hc <;> simp [escapeIf, Nat.add_comm]
      · obtain ⟨hbackslash, hnewline⟩ := not_or.1 hc
        simp [escapeIf, hbackslash, hnewline]

lemma getLast?_textCommand (letter : Char) (t : Text) :
    (textCommand letter t).getLast? = some '\n' := by
  rw [textCommand, ← List.cons_append, ← List.cons_append, ← List.cons_append, List.getLast?_concat]

lemma terminated_textCommand (letter : Char) (t : Text) :
    Script.terminated (textCommand letter t) = textCommand letter t :=
  if_pos (getLast?_textCommand letter t)

lemma text_joined (letter : Char) (t name name' contents' : Text) :
    (Script.append (.append .empty name (textCommand letter t)) name' contents').text =
      textCommand letter t ++ Script.terminated contents' := by
  rw [Script.text_append, Script.text_append, terminated_textCommand]
  rfl

lemma count_textCommand {letter : Char} (hletter : letter ≠ '\n') (t : Text) :
    (textCommand letter t).count '\n' = t.count '\n' + 2 := by
  simp [textCommand, hletter, count_lines]

end Quoted

/-! ### Reading the command -/

lemma Action.texts_ofText (letter : Char) (t : Text) : (Action.ofText letter t).Texts := by
  unfold Action.ofText
  split
  · exact .append t
  · exact .insert t
  · exact .change t

/-- Only the last line of a script may have to be ended. -/
lemma Script.text_ofText_append (first : Text) {rest : Text} (hrest : rest ≠ []) :
    (ofText (first ++ rest)).text = first ++ terminated rest := by
  change [] ++ terminated (first ++ rest) = _
  rw [List.nil_append, terminated, terminated, List.getLast?_append_of_ne_nil _ hrest]
  split
  · rfl
  · rw [List.append_assoc]

/-- A first source that is one command is read, and the second behind it as it is by itself. -/
lemma Parser.run_one_second [Regex.Library] {name contents name' contents' newline : Text}
    {o : Options} {letter : Char} {kind : Argument} {addresses : ℕ} {action : Action}
    {p q qb : Parser} (hp : start (.append (.append .empty name contents) name' contents') o = p)
    (htoken : p.token = ⟨.command, [letter]⟩)
    (hletter : Argument.ofLetter? o.posix letter = some (kind, addresses))
    (hargument : (argument letter p.place kind).run p = .ok (action, q)) (honward : Onward p q)
    (hahead : Ahead q [⟨.newline, newline⟩])
    (hscanner : q.scanner = ⟨⟨(Script.terminated contents).reverse, Script.terminated contents'⟩,
      .command, [], 0, some .newline, false, q.scanner.tokenStart⟩) (hleft : q.left < p.left)
    (hsecond : wholeScript.run (start (.append .empty name' contents') o) = .ok ((), qb)) :
    ∃ q', wholeScript.run p = .ok ((), q') ∧ (Setting.second name name' contents contents' o
      ⟨[⟨letter, .all, false, action, p.place⟩], [], 0, []⟩).Drafts qb.draft q'.draft := by
  have hdraft : p.draft = ⟨[], [], 0, []⟩ := by rw [← hp]; rfl
  have hscript : p.script = .append (.append .empty name contents) name' contents' := by
    rw [← hp]
    rfl
  have hoptions : p.options = o := by rw [← hp]; rfl
  rw [← hoptions] at hletter
  obtain ⟨fuel, hfuel⟩ : ∃ fuel, p.bound = fuel + 2 := ⟨p.bound - 2, by
    simp only [Parser.bound, Scanner.bound]
    omega⟩
  have hrun := run_statements_line htoken hletter hargument hahead fuel
  generalize (⟨letter, .all, false, action, p.place⟩ : Command) = c at hrun ⊢
  have hpushed : (q.pushed c).draft = ⟨[c], [], 0, []⟩ := by
    change { q.draft with commands := q.draft.commands ++ [c] } = _
    rw [honward.draft, hdraft]
    rfl
  -- The command and the end of its line are passed, so that the fuel left is enough for the rest.
  have hlast : (q.pushed c).advanced.left ≤ fuel := by
    have hkind : (q.pushed c).token.kind ≠ .eof := by
      change q.token.kind ≠ .eof
      rw [hahead.1]
      exact Token.Kind.noConfusion
    have hnewline : (q.pushed c).advanced.left < q.left := left_advanced hkind
    have hbound := left_le_bound p
    omega
  obtain ⟨q', hrest, hopen, hdrafts⟩ := run_second
    (show (q.pushed c).script = _ from honward.script.trans hscript)
    (honward.options.trans hoptions) hpushed rfl hscanner hlast hsecond
  refine ⟨q', run_wholeScript_eq_ok.2 ⟨?_, hopen⟩, hdrafts⟩
  rw [hfuel]
  exact hrun.trans hrest

/-- The letters of the commands with a text. -/
def textLetters : List Char := ['a', 'i', 'c']

section Command

variable {library : Regex.Library}

variable {letter : Char} (hletter : letter ∈ textLetters) (t w : Text)

include hletter

lemma ne_newline : letter ≠ '\n' := by
  rintro rfl
  exact absurd hletter (by decide)

lemma exists_ofLetter?_text (posix : Bool) :
    ∃ n, Argument.ofLetter? posix letter = some (.text, n) := by
  simp only [textLetters, List.mem_cons, List.not_mem_nil, or_false] at hletter
  rcases hletter with rfl | rfl | rfl <;> exact ⟨_, rfl⟩

/-- The tokens of the command, up to the beginning of the line behind it. -/
lemma Scanner.next_textCommand :
    ∃ s₁ s₂ s₃, (start (Quoted.textCommand letter t ++ w)).next = (⟨.command, [letter]⟩, s₁) ∧
      s₁.lineColumn = (0, 1) ∧ s₁.next = (⟨.backslash, ['\\']⟩, s₂) ∧
      s₂.next = (⟨.text, Quoted.scannedLines t⟩, s₃) ∧
      s₃.next = (.lineEnd, ⟨⟨(Quoted.textCommand letter t).reverse, w⟩, .command, [], 0,
        some .newline, false, (Quoted.lines t).length + 3⟩) := by
  have htext : Quoted.textCommand letter t ++ w =
      letter :: '\\' :: '\n' :: (Quoted.lines t ++ '\n' :: w) := by simp [Quoted.textCommand]
  have hstart : (start (Quoted.textCommand letter t ++ w)).next = (⟨.command, [letter]⟩,
      ⟨⟨[letter], '\\' :: '\n' :: (Quoted.lines t ++ '\n' :: w)⟩, .text, [], 0,
        some .command, false, 0⟩) := by
    rw [htext]
    simp only [textLetters, List.mem_cons, List.not_mem_nil, or_false] at hletter
    rcases hletter with rfl | rfl | rfl <;> rfl
  have hreverse : (Quoted.textCommand letter t).reverse =
      '\n' :: ((Quoted.lines t).reverse ++ ['\n', '\\', letter]) := by simp [Quoted.textCommand]
  have hlength : (Quoted.lines t).length + 3 =
      ((Quoted.lines t).reverse ++ ['\n', '\\', letter]).length := by simp
  refine ⟨_, _, _, hstart, rfl, rfl, next_textBody (Quoted.lineReads_lines t) _ _ _, ?_⟩
  rw [hreverse, hlength]
  rfl

/-- A script begins with the command. -/
lemma Parser.start_textCommand {script : Script} (o : Options)
    (htext : script.text = Quoted.textCommand letter t ++ w) {ts : List Token}
    (hrest : Scanner.Feeds ⟨⟨(Quoted.textCommand letter t).reverse, w⟩, .command, [], 0,
      some .newline, false, (Quoted.lines t).length + 3⟩ ts) :
    Ahead (start script o) (⟨.command, [letter]⟩ :: ⟨.backslash, ['\\']⟩ ::
        ⟨.text, Quoted.scannedLines t⟩ :: .lineEnd :: ts) ∧
      (start script o).place = script.location 0 1 ∧
      (start script o).advanced.advanced.advanced.scanner =
        ⟨⟨(Quoted.textCommand letter t).reverse, w⟩, .command, [], 0, some .newline, false,
          (Quoted.lines t).length + 3⟩ := by
  obtain ⟨s₁, s₂, s₃, hcommand, hplace, hbackslash, hliteral, hline⟩ :=
    Scanner.next_textCommand hletter t w
  have hstart : (start script o).token = ⟨.command, [letter]⟩ ∧ (start script o).scanner = s₁ := by
    change (Scanner.start script.text).next.1 = _ ∧ (Scanner.start script.text).next.2 = _
    rw [htext, hcommand]
    exact ⟨rfl, rfl⟩
  obtain ⟨htoken, hscanner⟩ := hstart
  refine ⟨⟨htoken, ?_⟩, ?_, ?_⟩
  · rw [hscanner, Scanner.Feeds, Scanner.Feeds, Scanner.Feeds, hbackslash, hliteral, hline]
    exact ⟨rfl, rfl, rfl, hrest⟩
  · rw [place, hscanner, hplace]
    rfl
  · change (start script o).scanner.next.2.next.2.next.2 = _
    rw [hscanner, hbackslash, hliteral, hline]

/-- The command is read, and a second source behind it as it is read by itself. -/
lemma Parser.run_textCommand (name : Text) {name' contents' : Text} {o : Options} {qb : Parser}
    (hsecond : wholeScript.run (start (.append .empty name' contents') o) = .ok ((), qb)) :
    ∃ q, wholeScript.run (start (.append (.append .empty name (Quoted.textCommand letter t)) name'
        contents') o) = .ok ((), q) ∧
      (Setting.second name name' (Quoted.textCommand letter t) contents' o
        ⟨[⟨letter, .all, false, .ofText letter t, ⟨name, 1, 1⟩⟩], [], 0, []⟩).Drafts
          qb.draft q.draft := by
  have hterminated := Quoted.terminated_textCommand letter t
  have hlocation : (Script.append (.append .empty name (Quoted.textCommand letter t)) name'
      contents').location 0 1 = ⟨name, 1, 1⟩ := by
    rw [Script.location_pair, hterminated, Quoted.count_textCommand (ne_newline hletter),
      if_neg (Nat.not_succ_le_zero _)]
  have hnone : ∀ s, Scanner.Feeds s [] := fun _ => trivial
  obtain ⟨hahead, hplace, hscanner⟩ := start_textCommand hletter t _ o
    (Quoted.text_joined letter t name name' contents') (hnone _)
  rw [hlocation] at hplace
  obtain ⟨n, hargument⟩ := exists_ofLetter?_text hletter o.posix
  generalize hp : start (.append (.append .empty name (Quoted.textCommand letter t)) name'
    contents') o = p at hahead hplace hscanner ⊢
  have hpassed := left_iterate_advanced [_, _, _] hahead (by simp)
  have hleft : p.advanced.advanced.advanced.left < p.left :=
    Nat.lt_of_lt_of_le (Nat.lt_add_of_pos_right (Nat.succ_pos 2)) hpassed
  have hbehind : p.advanced.advanced.advanced.scanner =
      ⟨⟨(Script.terminated (Quoted.textCommand letter t)).reverse, Script.terminated contents'⟩,
        .command, [], 0, some .newline, false,
        p.advanced.advanced.advanced.scanner.tokenStart⟩ := by
    rw [hscanner, hterminated]
  have hrun := run_one_second hp hahead.1 hargument
    (run_textArgument (Quoted.unescapeText_scannedLines _ t) hahead) ⟨rfl, rfl, rfl⟩
    hahead.advanced.advanced.advanced hbehind hleft hsecond
  rw [hplace] at hrun
  exact hrun

end Command

/-! ### Programs -/

namespace Program

/-- The program behind a command whose text takes some lines of the same source. -/
def behind (c : Command) (lines : ℕ) (p : Program) : Program where
  commands := c :: p.commands.map fun d =>
    { d.moved 1 0 id with place := d.place.behind c.place.source lines }
  labels := movedLabels 1 p.labels
  outputFiles := p.outputFiles.map fun f => { f with place := f.place.behind c.place.source lines }
  rangeCount := p.rangeCount
  quiet := false

section Behind

variable {library : Regex.Library}

variable {letter : Char} (t : Text) {o : Options} {p : Program}

/-- In one source the command keeps its place, and what comes behind it is moved by its lines. -/
lemma relocated_joined {name : Text} (source : Text) (lines : ℕ)
    (hcommands : ∀ c ∈ p.commands, c.place.source ≠ name)
    (hfiles : ∀ f ∈ p.outputFiles, f.place.source ≠ name) :
    Program.relocated (fun l => l.behind source (if l.source = name then 0 else lines))
        { p with
          commands := ⟨letter, .all, false, .ofText letter t, ⟨name, 1, 1⟩⟩ ::
            p.commands.map (Command.moved 1 0 id)
          labels := movedLabels 1 p.labels
          quiet := false } =
      p.behind ⟨letter, .all, false, .ofText letter t, ⟨source, 1, 1⟩⟩ lines := by
  have hmoved : ∀ c ∈ p.commands, (⟨c.letter, c.selection.moved 0, c.negated, c.action.moved 1 id,
      c.place.behind source (if c.place.source = name then 0 else lines)⟩ : Command) =
        { c.moved 1 0 id with place := c.place.behind source lines } := by
    intro c hc
    rw [if_neg (hcommands c hc)]
    rfl
  have hfiled : ∀ f ∈ p.outputFiles, (⟨f.name,
      f.place.behind source (if f.place.source = name then 0 else lines)⟩ : OutputFile) =
        { f with place := f.place.behind source lines } := by
    intro f hf
    rw [if_neg (hfiles f hf)]
  rw [relocated, behind]
  dsimp only
  rw [List.map_cons, List.map_map, if_pos rfl, List.map_congr_left hfiled]
  congr 2
  exact List.map_congr_left hmoved

variable (hletter : letter ∈ textLetters)

include hletter

lemma asksForQuiet_textCommand {script : Script} {w : Text}
    (h : script.text = Quoted.textCommand letter t ++ w) : script.asksForQuiet = false := by
  refine Script.asksForQuiet_of_ne fun rest hrest => ?_
  rw [h, Quoted.textCommand, List.cons_append] at hrest
  obtain ⟨rfl, -⟩ := List.cons.inj hrest
  exact absurd hletter (by decide)

/-- The command, and a second source behind it. -/
lemma parse_textCommand_joined (name : Text) {name' contents' : Text}
    (h : parse (.append .empty name' contents') o = .ok p) :
    parse (.append (.append .empty name (Quoted.textCommand letter t)) name' contents') o = .ok
      { p with
        commands := ⟨letter, .all, false, .ofText letter t, ⟨name, 1, 1⟩⟩ ::
          p.commands.map (Command.moved 1 0 id)
        labels := movedLabels 1 p.labels
        quiet := false } := by
  obtain ⟨qb, labels, hrunb, hcollect, hdefined, rfl⟩ := parse_eq_ok h
  obtain ⟨q, hrun, hdrafts⟩ := Parser.run_textCommand hletter t name hrunb
  generalize hc : (⟨letter, .all, false, .ofText letter t, ⟨name, 1, 1⟩⟩ : Command) = c
    at hdrafts ⊢
  have htexts : c.action.Texts := by
    rw [← hc]
    exact Action.texts_ofText letter t
  obtain ⟨hsound, hopen⟩ := Parser.sound_of_wholeScript hrunb
  have hfiles : q.outputFiles = qb.outputFiles := hdrafts.files.trans (mergedFiles_nil _)
  have hranges : q.rangeCount = qb.rangeCount := hdrafts.ranges
  have hcommands : q.commands = c :: qb.commands.map (Command.moved 1 0 id) := by
    have hmoved := hdrafts.commands_eq (hsound.ne_block_zero hopen)
      (Parser.sound_of_wholeScript hrun).1.files_nodup
    change q.commands = [c] ++ qb.commands.map (Command.moved 1 0
      (fileNumber qb.outputFiles q.outputFiles)) at hmoved
    have hself : fileNumber qb.outputFiles qb.outputFiles = id := fileNumber_self hsound.files_nodup
    rw [hmoved, hfiles, hself]
    rfl
  have hnew : (([] : List (Text × ℕ)).map Prod.fst).Disjoint (labels.map Prod.fst) :=
    List.disjoint_nil_left _
  have hcollect' : collectLabels 0 [] q.commands = .ok (movedLabels 1 labels) := by
    rw [hcommands, collectLabels_of_texts htexts]
    exact collectLabels_moved 1 0 id hcollect hnew
  have hresolve : ∀ d ∈ qb.commands, resolve (movedLabels 1 labels) (d.moved 1 0 id) =
      (resolve labels d).moved 1 0 id ∧
        undefinedLabel? (movedLabels 1 labels) (d.moved 1 0 id) = none :=
    fun d hd => resolve_moved (hdefined d hd) hnew
  have hdefined' : ∀ d ∈ q.commands, undefinedLabel? (movedLabels 1 labels) d = none := by
    rw [hcommands, List.forall_mem_cons, List.forall_mem_map]
    exact ⟨undefinedLabel?_of_texts htexts, fun d hd => (hresolve d hd).2⟩
  rw [parse_of_run hrun hcollect' hdefined', hfiles, hranges, hcommands, List.map_cons,
    resolve_of_texts htexts, List.map_map, List.map_map]
  have hquiet : (Script.append (.append .empty name (Quoted.textCommand letter t)) name'
      contents').asksForQuiet = false :=
    asksForQuiet_textCommand t hletter (Quoted.text_joined letter t name name' contents')
  rw [hquiet]
  congr 3
  exact List.map_congr_left fun d hd => (hresolve d hd).1

/-- The command alone. -/
lemma parse_textCommand_alone :
    parse (.ofText (Quoted.textCommand letter t)) o = .ok
      ⟨[⟨letter, .all, false, .ofText letter t,
        ⟨Script.nameOf (Quoted.textCommand letter t), 1, 1⟩⟩], [], [], 0, false⟩ := by
  have htext : (Script.ofText (Quoted.textCommand letter t)).text =
      Quoted.textCommand letter t ++ [] := by
    rw [List.append_nil]
    exact Quoted.terminated_textCommand letter t
  have hplace : (Script.ofText (Quoted.textCommand letter t)).location 0 1 = _ :=
    Script.location_single _ _ 0 1
  obtain ⟨hahead, hstart, -⟩ := Parser.start_textCommand hletter t [] o htext
    (show Scanner.Feeds _ [.endOfScript] from ⟨rfl, trivial⟩)
  obtain ⟨n, hargument⟩ := exists_ofLetter?_text hletter o.posix
  have htexts := Action.texts_ofText letter t
  have hparse := parse_one hahead.1 hargument
    (Parser.run_textArgument (Quoted.unescapeText_scannedLines _ t) hahead) rfl
    hahead.advanced.advanced.advanced
    (fun name hlabel => by rw [hlabel] at htexts; cases htexts)
    (fun c name target hbranch => by rw [hbranch] at htexts; cases htexts)
  rw [hparse, hstart, hplace, asksForQuiet_textCommand t hletter htext]

/-- A command with a text at the beginning of a script that can be read without it, its text quoted
on the lines behind the letter, is read with just this text, in either mode. Behind it come the
commands of the rest, the ends of their blocks and the targets of their branches moved by one. -/
theorem parse_textCommand_append {rest : Text} (h : parse (.ofText rest) o = .ok p) :
    parse (.ofText (Quoted.textCommand letter t ++ rest)) o = .ok
      (p.behind ⟨letter, .all, false, .ofText letter t,
        ⟨Script.nameOf (Quoted.textCommand letter t ++ rest), 1, 1⟩⟩ (t.count '\n' + 2)) := by
  by_cases hrest : rest = []
  · subst hrest
    have hempty : parse (.ofText []) o = .ok ⟨[], [], [], 0, false⟩ := rfl
    rw [hempty] at h
    cases h
    rw [List.append_nil]
    exact parse_textCommand_alone t hletter
  · -- a name that tells the command from all that is behind it
    obtain ⟨name, hname⟩ := Infinite.exists_notMem_finset (Script.nameOf rest ::
      (p.commands.map (·.place.source) ++ p.outputFiles.map (·.place.source))).toFinset
    simp only [List.mem_toFinset, List.mem_cons, List.mem_append, List.mem_map, not_or, not_exists,
      not_and] at hname
    obtain ⟨hne, hcommands, hfiles⟩ := hname
    have hjoined := parse_textCommand_joined t hletter name h
    have htext := (Script.text_ofText_append _ hrest).trans
      (Quoted.text_joined letter t name (Script.nameOf rest) rest).symm
    have hwhole := parse_relocated htext (f := fun l => l.behind _ (if l.source = name then 0
      else (Script.terminated (Quoted.textCommand letter t)).count '\n'))
      (Script.location_joined (Ne.symm hne) _ _ rest _) hjoined
    rw [Quoted.terminated_textCommand, Quoted.count_textCommand (ne_newline hletter),
      relocated_joined t _ _ hcommands hfiles] at hwhole
    exact hwhole

end Behind

/-- A text with a blank at its beginning, two newlines and a backslash at its end, read as the
standard has it, before a block with a branch. -/
theorem parse_textCommand_append_block :
    'i' ∈ textLetters ∧
      parse (.ofText (Text.ofString "2\x7bb e\n\x7d\n:e")) { Options.standard with posix := true } =
        .ok ⟨[⟨'{', .single (.line 2), false, .block 2, ⟨Text.ofString "2\x7bb e...", 1, 2⟩⟩,
          ⟨'b', .all, false, .branch .always (some ['e']) (some 3),
            ⟨Text.ofString "2\x7bb e...", 1, 3⟩⟩,
          ⟨'}', .all, false, .blockEnd, ⟨Text.ofString "2\x7bb e...", 2, 1⟩⟩,
          ⟨':', .all, false, .label ['e'], ⟨Text.ofString "2\x7bb e...", 3, 1⟩⟩],
            [(['e'], 3)], [], 0, false⟩ ∧
      parse (.ofText (Text.ofString "i\\\n \\\\\\\n\\\nx\\\\\n2\x7bb e\n\x7d\n:e"))
          { Options.standard with posix := true } =
        .ok ⟨[⟨'i', .all, false, .insert (Text.ofString " \\\n\nx\\"),
            ⟨Text.ofString "i\\...", 1, 1⟩⟩,
          ⟨'{', .single (.line 2), false, .block 3, ⟨Text.ofString "i\\...", 5, 2⟩⟩,
          ⟨'b', .all, false, .branch .always (some ['e']) (some 4),
            ⟨Text.ofString "i\\...", 5, 3⟩⟩,
          ⟨'}', .all, false, .blockEnd, ⟨Text.ofString "i\\...", 6, 1⟩⟩,
          ⟨':', .all, false, .label ['e'], ⟨Text.ofString "i\\...", 7, 1⟩⟩],
            [(['e'], 4)], [], 0, false⟩ := by
  have hrest : parse (.ofText (Text.ofString "2\x7bb e\n\x7d\n:e"))
      { Options.standard with posix := true } = .ok ⟨[⟨'{', .single (.line 2), false, .block 2,
          ⟨Text.ofString "2\x7bb e...", 1, 2⟩⟩,
        ⟨'b', .all, false, .branch .always (some ['e']) (some 3),
          ⟨Text.ofString "2\x7bb e...", 1, 3⟩⟩,
        ⟨'}', .all, false, .blockEnd, ⟨Text.ofString "2\x7bb e...", 2, 1⟩⟩,
        ⟨':', .all, false, .label ['e'], ⟨Text.ofString "2\x7bb e...", 3, 1⟩⟩],
          [(['e'], 3)], [], 0, false⟩ := rfl
  have hinsert : 'i' ∈ textLetters := by decide
  exact ⟨hinsert, hrest, parse_textCommand_append (Text.ofString " \\\n\nx\\") hinsert hrest⟩

end Program

end StreamEditor
