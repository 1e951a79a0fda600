import StreamEditor.Proofs.Parser.Passage
import StreamEditor.Proofs.Program.Sources
import StreamEditor.Regex.Builtin

/-!
Scripts that are joined from two sources.

* `Script.load_pair`: the script of two sources is that of the first with the second appended.
* `Setting.first`, `Setting.second`: each of the two as a passage of the whole.
* `Program.parse_joined`: the program of the whole is the program of the first, followed by that of
  the second with its blocks, branches, ranges and output files numbered on.
-/

namespace StreamEditor

/-! ### Sources -/

namespace Script

lemma load_singleton {storage storage' : Storage} {source : Source} {s : Script}
    (h : load storage [source] = (.ok s, storage')) :
    ∃ part : Part, source.Gives storage part storage' ∧
      s = empty.append part.name part.contents := by
  obtain ⟨parts, hall, hs⟩ := load_eq_ok_iff.1 h
  cases hall with
  | cons first rest =>
      cases rest
      exact ⟨_, first, hs⟩

/-- Two sources that can be read one after the other give one script. -/
lemma load_pair {storage storage' storage'' : Storage} {first second : Source} {s t : Script}
    (hfirst : load storage [first] = (.ok s, storage'))
    (hsecond : load storage' [second] = (.ok t, storage'')) :
    ∃ name contents name' contents', s = empty.append name contents ∧
      t = empty.append name' contents' ∧
      load storage [first, second] = (.ok (s.append name' contents'), storage'') := by
  obtain ⟨part, hgives, hs⟩ := load_singleton hfirst
  obtain ⟨part', hgives', ht⟩ := load_singleton hsecond
  refine ⟨part.name, part.contents, part'.name, part'.contents, hs, ht, ?_⟩
  exact load_eq_ok_iff.2 ⟨[part, part'], .cons hgives (.cons hgives' (.nil _)), by rw [hs]; rfl⟩

/-! ### Places -/

section Places

variable (name name' contents contents' : Text)

/-- All places of a single source are its own. -/
lemma location_single (line column : ℕ) :
    (empty.append name contents).location line column = ⟨name, line + 1, column⟩ :=
  location_append name contents empty line column

lemma location_pair (line column : ℕ) :
    ((empty.append name contents).append name' contents').location line column =
      if (terminated contents).count '\n' ≤ line then
        ⟨name', line - (terminated contents).count '\n' + 1, column⟩
      else ⟨name, line + 1, column⟩ := by
  rw [location_append, location_single]
  rfl

/-- The lines of the first source are those of the script that holds it alone. -/
lemma placeOf_first {position : ℕ} (h : position < (terminated contents).length) :
    ((empty.append name contents).append name' contents').placeOf position =
      (empty.append name contents).placeOf position := by
  have htake : (terminated contents ++ terminated contents').take position =
      (terminated contents).take position := List.take_append_of_le_length h.le
  have hline := count_take_lt contents h
  rw [← Cursor.lineColumnAfter_fst] at hline
  simp only [placeOf, text_append, empty, List.nil_append, htake]
  rw [← empty, location_pair, location_single, if_neg (not_le.2 hline)]

/-- The lines of the second source are counted from its first line. -/
lemma placeOf_second (position : ℕ) :
    ((empty.append name contents).append name' contents').placeOf
        ((terminated contents).length + position) =
      (empty.append name' contents').placeOf position := by
  simp only [placeOf, text_append, empty, List.nil_append, List.take_length_add_append]
  rw [← empty, Cursor.lineColumnAfter_append (getLast?_terminated contents), location_pair,
    location_single, if_pos (Nat.le_add_right _ _), Nat.add_sub_cancel_left]

end Places

end Script

namespace Parser

variable {library : Regex.Library}

open Script (terminated)

/-- The parser before the first token. -/
def unread (script : Script) (options : Options) : Parser where
  script := script
  options := options
  scanner := .start script.text
  token := .endOfScript
  commands := []
  outputFiles := []
  rangeCount := 0
  openBlocks := []

lemma start_eq (script : Script) (options : Options) :
    start script options = (unread script options).advanced := rfl

namespace Setting

/-- At the beginning of a passage the parser stands as at the beginning of a script. -/
lemma stands_start (S : Setting) (p' : Parser) (hscript : p'.script = S.whole)
    (hoptions : p'.options = S.options)
    (hscanner : p'.scanner = S.passage.scanner (.start S.own.text))
    (hdrafts : S.Drafts ⟨[], [], 0, []⟩ p'.draft) :
    S.Stands (start S.own S.options).left p'.advanced.left (start S.own S.options)
      p'.advanced := by
  have hinside : S.passage.Inside (unread S.own S.options).scanner := by
    refine ⟨⟨S.own_text, ?_⟩, le_rfl⟩
    by_cases hafter : S.passage.after = []
    · exact .inl hafter
    · refine .inr ?_
      change S.own.text ≠ []
      rw [S.own_text]
      exact (S.passage.text_ends hafter).ne_nil
  have hwithin : S.Within (unread S.own S.options).left
      ({ p' with token := .endOfScript } : Parser).left (unread S.own S.options)
      { p' with token := .endOfScript } :=
    ⟨⟨rfl, hscript, rfl, hoptions, rfl, hdrafts, le_rfl, le_rfl⟩, hscanner, hinside⟩
  exact (hwithin.advance_of_size rfl le_rfl le_rfl).tight

variable (name name' contents contents' : Text) (o : Options)

/-- The first source as a passage of the script of both. -/
def first (h : EndsLine (terminated contents)) : Setting where
  passage := ⟨[], terminated contents, terminated contents', nofun, fun _ => h⟩
  own := Script.empty.append name contents
  whole := (Script.empty.append name contents).append name' contents'
  options := o
  own_text := rfl
  whole_text := rfl
  places := by
    rintro position - (hafter | hlt)
    · have hlast := Script.getLast?_terminated contents'
      rw [show terminated contents' = [] from hafter] at hlast
      cases hlast
    · rw [List.length_nil, Nat.zero_add]
      exact Script.placeOf_first name name' contents contents' hlt
  commands := []
  files := []
  ranges := 0

/-- The second source as a passage of the script of both, after what is read of the first. -/
def second (d : Draft) : Setting where
  passage := ⟨terminated contents, terminated contents', [],
    by rw [Script.getLast?_terminated]; decide, nofun⟩
  own := Script.empty.append name' contents'
  whole := (Script.empty.append name contents).append name' contents'
  options := o
  own_text := rfl
  whole_text := by rw [List.append_nil]; rfl
  places := fun position _ _ => Script.placeOf_second name name' contents contents' position
  commands := d.commands
  files := d.outputFiles
  ranges := d.rangeCount

end Setting

lemma run_wholeScript_eq_ok {p q : Parser} :
    wholeScript.run p = .ok ((), q) ↔
      (statements p.bound).run p = .ok ((), q) ∧ q.openBlocks = [] := by
  rw [wholeScript, run_get_bind, run_bind_eq_ok]
  constructor
  · rintro ⟨_, r, hrun, hend⟩
    rw [run_get_bind] at hend
    split at hend
    · cases hend
      exact ⟨hrun, ‹_›⟩
    · cases hend
  · rintro ⟨hrun, hopen⟩
    refine ⟨(), q, hrun, ?_⟩
    rw [run_get_bind, hopen]
    rfl

/-- A first draft is read as it stands. -/
lemma Setting.Drafts.eq_of_first {name name' contents contents' : Text} {o : Options}
    {h : EndsLine (terminated contents)} {d d' : Draft}
    (hdrafts : (Setting.first name name' contents contents' o h).Drafts d d')
    (hnodup : (d.outputFiles.map (Path.key ·.name)).Nodup) : d' = d := by
  obtain ⟨⟨moved, hcommands, hmoves⟩, hmerged, hranges, hblocks⟩ := hdrafts
  have hfiles : d'.outputFiles = d.outputFiles := hmerged.trans (mergedFiles_nil _)
  clear hmerged
  have hmoved : moved = d.commands := by
    rw [hfiles] at hmoves
    have hsame : List.Forall₂ (· = ·) d.commands moved := hmoves.imp fun c c' hc => by
      obtain ⟨number, hnumber, hc⟩ := hc
      have hself := Command.moved_zero (c := c) fun i hi => hnumber.eq_self hnodup hi
      rcases hc with rfl | ⟨hopen, rfl⟩
      · exact hself.symm
      · change c = { c.moved 0 0 number with action := .block 0 }
        rw [hself, ← hopen]
    rw [List.forall₂_eq_eq_eq] at hsame
    exact hsame.symm
  obtain ⟨commands, files, ranges, blocks⟩ := d
  obtain ⟨commands', files', ranges', blocks'⟩ := d'
  dsimp only at hcommands hfiles hranges hblocks hmoved
  subst hmoved
  obtain rfl : commands' = moved := hcommands
  obtain rfl : files' = files := hfiles
  obtain rfl : ranges' = ranges := hranges
  obtain rfl : blocks' = blocks := hblocks.trans (List.map_id' _)
  rfl

section Joined

variable {name name' contents contents' : Text} {o : Options}

/-- Behind the end of a line of the whole the second source is read as it is by itself. -/
lemma run_second {d : Draft} {r' qb : Parser} {fuel : ℕ}
    (hscript : r'.script = .append (.append .empty name contents) name' contents')
    (hoptions : r'.options = o) (hdraft : r'.draft = d) (hopen : d.openBlocks = [])
    (hscanner : r'.scanner =
      ⟨⟨(terminated contents).reverse, terminated contents'⟩, .command, [], 0,
      some .newline, false, r'.scanner.tokenStart⟩) (hfuel : r'.advanced.left ≤ fuel)
    (hsecond : wholeScript.run (start (.append .empty name' contents') o) = .ok ((), qb)) :
    ∃ q, (statements fuel).run r'.advanced = .ok ((), q) ∧ q.openBlocks = [] ∧
      (Setting.second name name' contents contents' o d).Drafts qb.draft q.draft := by
  obtain ⟨hrunb, hopenb⟩ := run_wholeScript_eq_ok.1 hsecond
  let S := Setting.second name name' contents contents' o d
  have hstart : S.passage.scanner (.start S.own.text) =
      ⟨⟨(terminated contents).reverse, terminated contents'⟩, .command, [], 0, none, false,
        (terminated contents).length⟩ := by
    simp [Passage.scanner, Passage.cursor, Scanner.start, Cursor.start, S, Setting.second,
      Script.empty]
  -- But for the token before and the place of this one, the scanner stands where the second source
  -- begins.
  have hscanner' : r'.scanner = { S.passage.scanner (.start S.own.text) with
      previous := some .newline
      tokenStart := r'.scanner.tokenStart } := by
    rw [hstart]
    exact hscanner
  have hnext : r'.scanner.next = (S.passage.scanner (.start S.own.text)).next := by
    rw [hscanner']
    exact Scanner.next_newline rfl rfl _
  have hdrafts : S.Drafts ⟨[], [], 0, []⟩ r'.draft := by
    rw [hdraft]
    exact ⟨⟨[], (List.append_nil _).symm, .nil⟩, (List.append_nil _).symm, (Nat.zero_add _).symm,
      hopen⟩
  have hstandb := S.stands_start { r' with scanner := S.passage.scanner (.start S.own.text) }
    hscript hoptions rfl hdrafts
  have hadvanced : ({ r' with scanner := S.passage.scanner (.start S.own.text) } :
      Parser).advanced = r'.advanced := by
    rw [advanced, advanced, hnext]
  rw [hadvanced] at hstandb
  have hfinishb := hstandb.statements (left_le_bound _) hfuel hrunb
  cases hfinishb with
  | ended hrun' hdrafts' _ =>
      refine ⟨_, hrun', hdrafts'.openBlocks.trans ?_, hdrafts'⟩
      rw [show qb.draft.openBlocks = [] from hopenb, List.map_nil]
  | passed _ _ _ hdone' => exact absurd rfl hdone'.follows

/-- Scripts that can be read by themselves can be read one after the other. -/
lemma run_joined {qa qb : Parser} (h : EndsLine (terminated contents))
    (hfirst : wholeScript.run (start (.append .empty name contents) o) = .ok ((), qa))
    (hsecond : wholeScript.run (start (.append .empty name' contents') o) = .ok ((), qb)) :
    ∃ q, wholeScript.run (start (.append (.append .empty name contents) name' contents') o) =
        .ok ((), q) ∧
      (Setting.second name name' contents contents' o qa.draft).Drafts qb.draft q.draft := by
  obtain ⟨hruna, hopena⟩ := run_wholeScript_eq_ok.1 hfirst
  have hstanda := (Setting.first name name' contents contents' o h).stands_start
    (unread (.append (.append .empty name contents) name' contents') o) rfl rfl rfl
    ⟨⟨[], rfl, .nil⟩, rfl, rfl, rfl⟩
  have hfinisha := hstanda.statements (left_le_bound _) (left_le_bound _) hruna
  cases hfinisha with
  | ended _ _ hafter =>
      have hlast := Script.getLast?_terminated contents'
      rw [show terminated contents' = [] from hafter] at hlast
      cases hlast
  | @passed r r' n n' fuel hagree hprevious hscanner hdone hdraft hfuel hrun =>
      have hsame : r'.draft = qa.draft := by
        rw [← hdraft]
        refine hagree.drafts.eq_of_first ?_
        rw [hdraft]
        exact (sound_of_wholeScript hfirst).1.files_nodup
      have hscanner' : r'.scanner =
          ⟨⟨(terminated contents).reverse, terminated contents'⟩, .command, [], 0,
            some .newline, false, r'.scanner.tokenStart⟩ := by
        rw [hscanner, Passage.scanner, hdone.cursor, hdone.mode, hdone.pending, hdone.addresses,
          hdone.afterPattern, hprevious]
        simp [Passage.cursor, Setting.first]
      obtain ⟨q, hrun', hopen, hdrafts⟩ := run_second hagree.script'
        (hagree.options'.trans hagree.options) hsame hopena hscanner' hfuel hsecond
      exact ⟨q, run_wholeScript_eq_ok.2 ⟨hrun.trans hrun', hopen⟩, hdrafts⟩

end Joined

/-- Where all blocks have their ends, the commands of the passage are moved as a whole. -/
lemma Setting.Drafts.commands_eq {S : Setting} {d d' : Draft} (h : S.Drafts d d')
    (hstops : ∀ c ∈ d.commands, c.action ≠ .block 0)
    (hnodup : (d'.outputFiles.map (Path.key ·.name)).Nodup) :
    d'.commands = S.commands ++ d.commands.map (Command.moved S.commands.length S.ranges
      (fileNumber d.outputFiles d'.outputFiles)) := by
  obtain ⟨moved, hcommands, hmoves⟩ := h.commands
  rw [hcommands]
  congr 1
  have hfiles := h.files
  clear hcommands h
  generalize d.commands = commands at hstops hmoves
  induction hmoves with
  | nil => rfl
  | @cons c c' commands moved hc _ ih =>
      rw [List.forall_mem_cons] at hstops
      rw [List.map_cons, ih hstops.2]
      obtain ⟨number, hnumber, rfl | ⟨hopen, -⟩⟩ := hc
      · rw [hfiles] at hnumber hnodup
        rw [Command.moved, Command.moved, hfiles,
          Action.moved_congr fun i hi => hnumber.eq_fileNumber hnodup hi]
      · exact absurd hopen hstops.1

/-- In the end every block has an end behind its beginning. -/
lemma Draft.Sound.ne_block_zero {d : Draft} (h : d.Sound) (hopen : d.openBlocks = []) :
    ∀ c ∈ d.commands, c.action ≠ .block 0 := by
  intro c hc hblock
  obtain ⟨i, hi⟩ := List.mem_iff_getElem?.1 hc
  obtain ⟨hlt, -⟩ := h.nested.opens i 0 ⟨c, hi, hblock⟩ (by rw [hopen]; exact List.not_mem_nil)
  exact absurd hlt (Nat.not_lt_zero _)

end Parser

namespace Script

lemma asksForQuiet_of_ne {s : Script} (h : ∀ rest, s.text ≠ '#' :: 'n' :: rest) :
    s.asksForQuiet = false := by
  rw [asksForQuiet]
  split
  · exact absurd ‹_› (h _)
  · rfl

/-- The first line, which may ask for quiet operation, is that of the first source. -/
lemma asksForQuiet_append {s : Script} (h : s.text.getLast? = some '\n') (name contents : Text) :
    (s.append name contents).asksForQuiet = s.asksForQuiet := by
  by_cases hstart : ∃ rest, s.text = '#' :: 'n' :: rest
  · obtain ⟨rest, hrest⟩ := hstart
    rw [asksForQuiet, asksForQuiet, text_append, hrest]
    rw [hrest] at h
    rcases rest with _ | ⟨c, _ | ⟨d, rest⟩⟩
    · cases h
    · cases h
      rfl
    · rfl
  · have hne : ∀ rest, s.text ≠ '#' :: 'n' :: rest := fun rest hrest => hstart ⟨rest, hrest⟩
    rw [asksForQuiet_of_ne hne, asksForQuiet_of_ne]
    intro rest hrest
    rw [text_append] at hrest
    generalize s.text = t at h hne hrest
    rcases t with _ | ⟨c, _ | ⟨d, t⟩⟩
    · cases h
    · cases h
      cases hrest
    · cases hrest
      exact hne _ rfl

end Script

namespace Program

/-- The program of a script that is read to its end, and whose labels are defined. -/
lemma parse_of_run [Regex.Library] {script : Script} {o : Options} {q : Parser}
    {labels : List (Text × ℕ)} (hrun : Parser.wholeScript.run (Parser.start script o) = .ok ((), q))
    (hlabels : collectLabels 0 [] q.commands = .ok labels)
    (hdefined : ∀ c ∈ q.commands, undefinedLabel? labels c = none) :
    parse script o = .ok ⟨q.commands.map (resolve labels), labels, q.outputFiles, q.rangeCount,
      script.asksForQuiet⟩ := by
  have hnone : q.commands.filterMap (undefinedLabel? labels) = [] :=
    List.filterMap_eq_nil_iff.2 hdefined
  rw [parse, hrun]
  simp only [bind, Except.bind, hlabels, hnone]
  rfl

/-- The program of two sources, each of which is a script by itself: the commands of the first,
then those of the second with the ends of blocks and the targets of branches moved by the number
of commands before, the ranges by the number of ranges, and each output file under the number that
has its path; no path has two numbers. Every command keeps its place. The first source must not end
in a backslash that takes away the end of its last line, and no label may be defined in both. -/
theorem parse_joined [Regex.Library] {storage storage' storage'' : Storage} {first second : Source}
    {a b : Script} {o : Options} {pa pb : Program}
    (hfirst : Script.load storage [first] = (.ok a, storage'))
    (hsecond : Script.load storage' [second] = (.ok b, storage''))
    (ha : parse a o = .ok pa) (hb : parse b o = .ok pb)
    (hend : a.text.dropLast.getLast? ≠ some '\\')
    (hlabels : (pa.labels.map Prod.fst).Disjoint (pb.labels.map Prod.fst)) :
    ∃ s p number, Script.load storage [first, second] = (.ok s, storage'') ∧
      parse s o = .ok p ∧
      p.commands = pa.commands ++
        pb.commands.map (Command.moved pa.commands.length pa.rangeCount number) ∧
      p.outputFiles = mergedFiles pa.outputFiles pb.outputFiles ∧
      (p.outputFiles.map (Path.key ·.name)).Nodup ∧
      (∀ i f, pb.outputFiles[i]? = some f →
        ∃ f', p.outputFiles[number i]? = some f' ∧ Path.key f'.name = Path.key f.name) ∧
      p.labels = pa.labels ++ movedLabels pa.commands.length pb.labels ∧
      p.rangeCount = pa.rangeCount + pb.rangeCount ∧ p.quiet = pa.quiet := by
  obtain ⟨name, contents, name', contents', rfl, rfl, hload⟩ := Script.load_pair hfirst hsecond
  obtain ⟨qa, labelsa, hruna, hcollecta, hdefineda, rfl⟩ := parse_eq_ok ha
  obtain ⟨qb, labelsb, hrunb, hcollectb, hdefinedb, rfl⟩ := parse_eq_ok hb
  obtain ⟨q, hrun, hdrafts⟩ := Parser.run_joined ⟨Script.getLast?_terminated contents, hend⟩
    hruna hrunb
  obtain ⟨hsoundb, hopenb⟩ := Parser.sound_of_wholeScript hrunb
  have hnodup := (Parser.sound_of_wholeScript hrun).1.files_nodup
  have hcommands := hdrafts.commands_eq (hsoundb.ne_block_zero hopenb) hnodup
  have hfiles : q.outputFiles = mergedFiles qa.outputFiles qb.outputFiles := hdrafts.files
  have hranges : q.rangeCount = qb.rangeCount + qa.rangeCount := hdrafts.ranges
  let number := fileNumber qb.outputFiles q.outputFiles
  let places := qa.commands.length
  let labels := labelsa ++ movedLabels places labelsb
  have hcommands : q.commands =
      qa.commands ++ qb.commands.map (Command.moved places qa.rangeCount number) := hcommands
  have hcollect : collectLabels 0 [] q.commands = .ok labels := by
    have hmoved := collectLabels_moved places qa.rangeCount number hcollectb hlabels
    rw [hcommands, collectLabels_append, hcollecta]
    rw [Nat.zero_add, movedLabels, List.map_nil, List.append_nil] at hmoved
    exact (congrArg (collectLabels · _ _) (Nat.zero_add places)).trans hmoved
  have hfirst' : ∀ c ∈ qa.commands, resolve labels c = resolve labelsa c ∧
      undefinedLabel? labels c = none := fun c hc => resolve_append (hdefineda c hc) _
  have hsecond' : ∀ c ∈ qb.commands,
      resolve labels (c.moved places qa.rangeCount number) =
          (resolve labelsb c).moved places qa.rangeCount number ∧
        undefinedLabel? labels (c.moved places qa.rangeCount number) = none :=
    fun c hc => resolve_moved (hdefinedb c hc) hlabels
  have hdefined : ∀ c ∈ q.commands, undefinedLabel? labels c = none := by
    rw [hcommands, List.forall_mem_append, List.forall_mem_map]
    exact ⟨fun c hc => (hfirst' c hc).2, fun c hc => (hsecond' c hc).2⟩
  refine ⟨_, _, number, hload, parse_of_run hrun hcollect hdefined, ?_, hfiles, hnodup, ?_, ?_,
    ?_, ?_⟩
  · dsimp only
    rw [hcommands, List.map_append, List.map_map, List.map_map, List.length_map]
    congr 1
    · exact List.map_congr_left fun c hc => (hfirst' c hc).1
    · exact List.map_congr_left fun c hc => (hsecond' c hc).1
  · intro i f hf
    simp only [number, hfiles]
    exact getElem?_fileNumber _ hf
  · dsimp only
    rw [List.length_map]
  · exact hranges.trans (Nat.add_comm _ _)
  · exact Script.asksForQuiet_append (Script.getLast?_terminated contents) name' contents'

/-- Both sources hold a block, a label and a branch, and write the same file. -/
theorem parse_joined_blocks :
    ∃ pa pb s p number,
      parse (.ofText (Text.ofString "/x/\x7bw out\nb a\n\x7d\n:a")) .standard = .ok pa ∧
      parse (.ofText (Text.ofString "#n\n2,3\x7bw ./out\nb b\n\x7d;:b")) .standard = .ok pb ∧
      Script.load .empty [.text (Text.ofString "/x/\x7bw out\nb a\n\x7d\n:a"),
          .text (Text.ofString "#n\n2,3\x7bw ./out\nb b\n\x7d;:b")] = (.ok s, .empty) ∧
      parse s .standard = .ok p ∧
      p.commands = pa.commands ++
        pb.commands.map (Command.moved pa.commands.length pa.rangeCount number) ∧
      p.outputFiles = mergedFiles pa.outputFiles pb.outputFiles ∧ p.quiet = pa.quiet := by
  have hoka : (parse (.ofText (Text.ofString "/x/\x7bw out\nb a\n\x7d\n:a")) .standard).toOption.map
      (·.labels) = some [(['a'], 4)] := by decide +kernel
  have hokb : (parse (.ofText (Text.ofString "#n\n2,3\x7bw ./out\nb b\n\x7d;:b"))
      .standard).toOption.map (·.labels) = some [(['b'], 4)] := by decide +kernel
  rcases ha : parse (.ofText (Text.ofString "/x/\x7bw out\nb a\n\x7d\n:a")) .standard with _ | pa
  · rw [ha] at hoka
    cases hoka
  rcases hb : parse (.ofText (Text.ofString "#n\n2,3\x7bw ./out\nb b\n\x7d;:b")) .standard with
    _ | pb
  · rw [hb] at hokb
    cases hokb
  rw [ha] at hoka
  rw [hb] at hokb
  have hlabelsa : pa.labels = [(['a'], 4)] := Option.some.inj hoka
  have hlabelsb : pb.labels = [(['b'], 4)] := Option.some.inj hokb
  have hdisjoint : (pa.labels.map Prod.fst).Disjoint (pb.labels.map Prod.fst) := by
    rw [hlabelsa, hlabelsb]
    simp
  have hloada : Script.load .empty [.text (Text.ofString "/x/\x7bw out\nb a\n\x7d\n:a")] =
      (.ok (.ofText (Text.ofString "/x/\x7bw out\nb a\n\x7d\n:a")), .empty) := rfl
  have hloadb : Script.load .empty [.text (Text.ofString "#n\n2,3\x7bw ./out\nb b\n\x7d;:b")] =
      (.ok (.ofText (Text.ofString "#n\n2,3\x7bw ./out\nb b\n\x7d;:b")), .empty) := rfl
  obtain ⟨s, p, number, hload, hparse, hcommands, hfiles, -, -, -, -, hquiet⟩ :=
    parse_joined hloada hloadb ha hb (by decide +kernel) hdisjoint
  exact ⟨pa, pb, s, p, number, rfl, rfl, hload, hparse, hcommands, hfiles, hquiet⟩

end Program

end StreamEditor
