import StreamEditor.Proofs.Parser.Parallel
import StreamEditor.Proofs.Program.Moved
import StreamEditor.Proofs.Scanner.Passage

/-!
Reading a passage of a script.

* `Parser.Setting`: a script that is read by itself and as a passage of a longer one.
* `Setting.Stands`: a state of the parser in the script by itself, and one in the whole.
* `Stands.statement`, `Stands.closeBlock`: a statement is read alike.
* `Stands.statements`: so are all statements, up to the end of the passage.
-/

namespace StreamEditor

variable {library : Regex.Library}

/-- The place of a position of the text. -/
def Script.placeOf (s : Script) (position : ℕ) : Location :=
  let (line, column) := Cursor.lineColumnAfter (s.text.take position)
  s.location line column

/-- A command of a passage and the same in the whole; a block that is open has no end yet. -/
def Command.Moves (places ranges : ℕ) (files files' : List OutputFile) (c c' : Command) : Prop :=
  ∃ number, Renumbers files files' number c.action.target? ∧
    (c' = c.moved places ranges number ∨
      c.action = .block 0 ∧ c' = { c.moved places ranges number with action := .block 0 })

/-- Where files are added on both sides, commands that name others move as before. -/
lemma Command.Moves.append {places ranges : ℕ} {files files' : List OutputFile} {c c' : Command}
    (h : c.Moves places ranges files files' c') (more more' : List OutputFile) :
    c.Moves places ranges (files ++ more) (files' ++ more') c' := by
  obtain ⟨number, hnumber, hmoved⟩ := h
  exact ⟨number, hnumber.append more more', hmoved⟩

/-- Where a block gets its end, it gets the one that comes after the same commands. -/
lemma Command.Moves.closed {places ranges : ℕ} {files files' : List OutputFile} {c c' : Command}
    (h : c.Moves places ranges files files' c') (stop : ℕ) :
    (Parser.closed stop c).Moves places ranges files files' (Parser.closed (stop + places) c') := by
  obtain ⟨number, hnumber, hmoved⟩ := h
  refine ⟨number, by rwa [target?_closed], .inl ?_⟩
  by_cases hblock : ∃ s, c.action = .block s
  · obtain ⟨s, hs⟩ := hblock
    rcases hmoved with rfl | ⟨-, rfl⟩ <;> simp [Parser.closed, Command.moved, Action.moved, hs]
  · have hc : Parser.closed stop c = c := by
      rw [Parser.closed]
      split
      · exact absurd ⟨_, ‹_›⟩ hblock
      · rfl
    rcases hmoved with rfl | ⟨hopen, -⟩
    · rw [hc, Parser.closed]
      split
      · exact absurd (Action.moved_eq_block ‹_›) hblock
      · rfl
    · exact absurd ⟨_, hopen⟩ hblock

section Modify

variable {α β : Type} {R : α → β → Prop} {f : α → α} {g : β → β}

lemma modify_append_right (l₁ l₂ : List α) (i : ℕ) (f : α → α) :
    (l₁ ++ l₂).modify (i + l₁.length) f = l₁ ++ l₂.modify i f := by
  induction l₁ with
  | nil => rfl
  | cons a l₁ ih => rw [List.cons_append, List.length_cons, ← Nat.add_assoc, List.modify_succ_cons,
      ih, List.cons_append]

lemma forall₂_modify {l : List α} {l' : List β} (h : List.Forall₂ R l l')
    (hfg : ∀ a b, R a b → R (f a) (g b)) (i : ℕ) :
    List.Forall₂ R (l.modify i f) (l'.modify i g) := by
  induction h generalizing i with
  | nil => simp
  | cons hab hl ih =>
      cases i with
      | zero => exact .cons (hfg _ _ hab) hl
      | succ i => exact .cons hab (ih i)

end Modify

namespace Parser

open Scanner (fieldTokens Feeds)
open Token (Kind)

/-- A script that is read by itself, and as a passage of a longer script after other commands. -/
structure Setting where
  passage : Passage
  own : Script
  whole : Script
  options : Options
  own_text : own.text = passage.text
  whole_text : whole.text = passage.before ++ (passage.text ++ passage.after)
  places : ∀ position ≤ passage.text.length,
    (passage.after = [] ∨ position < passage.text.length) →
      whole.placeOf (passage.before.length + position) = own.placeOf position
  commands : List Command
  files : List OutputFile
  ranges : ℕ

namespace Setting

variable {S : Setting} {n n' : ℕ} {p p' : Parser} {d d' : Draft}

/-- What is read of the passage by itself, and what is read of the whole. -/
structure Drafts (S : Setting) (d d' : Draft) : Prop where
  commands : ∃ moved, d'.commands = S.commands ++ moved ∧
    List.Forall₂ (Command.Moves S.commands.length S.ranges d.outputFiles d'.outputFiles)
      d.commands moved
  files : d'.outputFiles = mergedFiles S.files d.outputFiles
  ranges : d'.rangeCount = d.rangeCount + S.ranges
  openBlocks : d'.openBlocks = d.openBlocks.map (· + S.commands.length)

/-- Two states of the parser that agree but for the scanner. -/
structure Agree (S : Setting) (n n' : ℕ) (p p' : Parser) : Prop where
  script : p.script = S.own
  script' : p'.script = S.whole
  options : p.options = S.options
  options' : p'.options = p.options
  token : p'.token = p.token
  drafts : S.Drafts p.draft p'.draft
  left : p.left ≤ n
  left' : p'.left ≤ n'

/-- The scanner stands in the passage; tokens may wait. -/
structure Within (S : Setting) (n n' : ℕ) (p p' : Parser) : Prop extends S.Agree n n' p p' where
  scanner : p'.scanner = S.passage.scanner p.scanner
  inside : S.passage.Inside p.scanner

/-- The states between the parts of a statement. -/
inductive Stands (S : Setting) (n n' : ℕ) (p p' : Parser) : Prop
  | within (h : S.Within n n' p p') (tidy : Passage.Tidy (p.token, p.scanner))
  /-- Behind the last newline of the passage. -/
  | done (h : S.Agree n n' p p') (hkind : p.token.kind = .newline)
      (hprevious : p.scanner.previous = some .newline)
      (hscanner : p'.scanner = S.passage.scanner p.scanner) (hdone : S.passage.Done p.scanner)
  /-- The script by itself cannot be read on. -/
  | lost (h : S.Agree n n' p p') (hlost : Passage.Lost (p.token, p.scanner))

/-- Only before tokens of these kinds the states may differ in more than their place. -/
def edges : List Kind := [.newline, .illegal, .slash, .delimiter, .eof]

lemma Stands.agree (h : S.Stands n n' p p') : S.Agree n n' p p' := by
  cases h with
  | within h => exact h.toAgree
  | done h | lost h => exact h

lemma Agree.mono (h : S.Agree n n' p p') {m m' : ℕ} (hm : n ≤ m) (hm' : n' ≤ m') :
    S.Agree m m' p p' :=
  { h with left := h.left.trans hm, left' := h.left'.trans hm' }

lemma Stands.mono (h : S.Stands n n' p p') {m m' : ℕ} (hm : n ≤ m) (hm' : n' ≤ m') :
    S.Stands m m' p p' := by
  cases h with
  | within h tidy => exact .within ⟨h.toAgree.mono hm hm', h.scanner, h.inside⟩ tidy
  | done h hkind hprevious hscanner hdone =>
      exact .done (h.mono hm hm') hkind hprevious hscanner hdone
  | lost h hlost => exact .lost (h.mono hm hm') hlost

lemma Stands.tight (h : S.Stands n n' p p') : S.Stands p.left p'.left p p' := by
  have hagree (h : S.Agree n n' p p') : S.Agree p.left p'.left p p' :=
    { h with left := le_rfl, left' := le_rfl }
  cases h with
  | within h tidy => exact .within ⟨hagree h.toAgree, h.scanner, h.inside⟩ tidy
  | done h hkind hprevious hscanner hdone =>
      exact .done (hagree h) hkind hprevious hscanner hdone
  | lost h hlost => exact .lost (hagree h) hlost

/-- What is added to the drafts makes no difference to what comes next. -/
lemma Stands.redraft (h : S.Stands n n' p p') {q q' : Parser}
    (hq : q.script = p.script ∧ q.options = p.options ∧ q.scanner = p.scanner ∧ q.token = p.token)
    (hq' : q'.script = p'.script ∧ q'.options = p'.options ∧ q'.scanner = p'.scanner ∧
      q'.token = p'.token) (hdrafts : S.Drafts q.draft q'.draft) : S.Stands n n' q q' := by
  obtain ⟨hscript, hoptions, hscanner, htoken⟩ := hq
  obtain ⟨hscript', hoptions', hscanner', htoken'⟩ := hq'
  have hagree (h : S.Agree n n' p p') : S.Agree n n' q q' := by
    refine ⟨hscript.trans h.script, hscript'.trans h.script', hoptions.trans h.options, ?_, ?_,
      hdrafts, ?_, ?_⟩
    · rw [hoptions, hoptions', h.options']
    · rw [htoken, htoken', h.token]
    · rw [left, hscanner, htoken]
      exact h.left
    · rw [left, hscanner', htoken']
      exact h.left'
  cases h with
  | within h tidy =>
      refine .within ⟨hagree h.toAgree, ?_, ?_⟩ (by rw [hscanner, htoken]; exact tidy)
      · rw [hscanner, hscanner', h.scanner]
      · rw [hscanner]
        exact h.inside
  | done h hkind hprevious hscan hdone =>
      refine .done (hagree h) (by rw [htoken, hkind]) (by rw [hscanner, hprevious]) ?_
        (by rw [hscanner]; exact hdone)
      rw [hscanner, hscanner', hscan]
  | lost h hlost => exact .lost (hagree h) (by rw [hscanner, htoken]; exact hlost)

/-- At most tokens the scanner stands in the passage, and none waits. -/
lemma Stands.plain (h : S.Stands n n' p p') (hkind : p.token.kind ∉ edges) :
    S.Within n n' p p' ∧ p.scanner.pending = [] := by
  cases h with
  | within h tidy =>
      refine ⟨h, ?_⟩
      rw [Passage.Tidy] at tidy
      split at tidy
      · rename_i heof
        exact tidy.1
      · rename_i hslash
        exact absurd (by rw [hslash]; decide) hkind
      · rename_i hdelimiter
        exact absurd (by rw [hdelimiter]; decide) hkind
      · exact tidy
  | done h hnewline => exact absurd (by rw [hnewline]; decide) hkind
  | lost h hlost =>
      cases hlost with
      | illegal hlost | pattern _ hlost | first _ hlost | second _ _ _ hlost =>
          exact absurd (by rw [hlost]; decide) hkind

/-! ### Places -/

lemma place_eq (h : p.scanner.cursor.text = p.script.text) :
    p.place = p.script.placeOf p.scanner.tokenStart := by
  rw [place, Scanner.lineColumn, Cursor.lineColumn, h]
  rfl

/-- The tokens stand at the same place of their source. -/
lemma Within.place (h : S.Within n n' p p') : p'.place = p.place := by
  have hholds := h.inside.holds
  have hown : p.scanner.cursor.text = p.script.text := by
    rw [hholds.text, h.script, S.own_text]
  have hwhole : p'.scanner.cursor.text = p'.script.text := by
    rw [h.scanner, h.script', S.whole_text, ← hholds.text]
    simp [Passage.scanner, Passage.cursor, Cursor.text]
  have hlength : p.scanner.cursor.position + p.scanner.cursor.ahead.length =
      S.passage.text.length := by
    rw [← hholds.text, Cursor.text, List.length_append, List.length_reverse]
    rfl
  have hstarted := h.inside.started
  rw [place_eq hown, place_eq hwhole, h.scanner, h.script, h.script']
  refine S.places _ (by omega) (hholds.ahead.imp_right fun hahead => ?_)
  have hpos := List.length_pos_iff.2 hahead
  omega

/-! ### The next token -/

/-- Another token is read where none waits. -/
lemma Within.advance_of_size (h : S.Within n n' p p') (hpending : p.scanner.pending = [])
    {m m' : ℕ} (hm : p.scanner.size ≤ m) (hm' : p'.scanner.size ≤ m') :
    S.Stands m m' p.advanced p'.advanced := by
  have hscans := h.inside.next hpending
  have hagree (htoken : (S.passage.scanner p.scanner).next.1 = p.scanner.next.1) :
      S.Agree m m' p.advanced p'.advanced := by
    refine ⟨h.script, h.script', h.options, h.options', ?_, h.drafts, (left_advanced_le p).trans hm,
      (left_advanced_le p').trans hm'⟩
    change p'.scanner.next.1 = p.scanner.next.1
    rw [h.scanner, htoken]
  have hscanner : p'.advanced.scanner = (S.passage.scanner p.scanner).next.2 := by
    rw [← h.scanner]
    rfl
  cases hscans with
  | inside heq hinside htidy =>
      exact .within ⟨hagree (by rw [heq]), hscanner.trans (by rw [heq]; rfl), hinside⟩ htidy
  | done heq hkind hdone =>
      exact .done (hagree (by rw [heq])) hkind (congrArg some hkind)
        (hscanner.trans (by rw [heq]; rfl)) hdone
  | lost heq hlost => exact .lost (hagree heq) hlost

lemma Within.advance (h : S.Within n n' p p') (hpending : p.scanner.pending = [])
    (heof : p.token.kind ≠ .eof) : S.Stands (n - 1) (n' - 1) p.advanced p'.advanced := by
  have hleft := h.left
  have hleft' := h.left'
  rw [left_eq heof] at hleft
  rw [left_eq (p := p') (by rwa [h.token])] at hleft'
  exact h.advance_of_size hpending (by omega) (by omega)

/-- The mode is changed on both sides. -/
lemma Within.withMode (h : S.Within n n' p p') (mode : Scanner.Mode)
    (hmode : mode.readsText = false) :
    S.Within n n' { p with scanner := { p.scanner with mode } }
      { p' with scanner := { p'.scanner with mode } } := by
  refine ⟨⟨h.script, h.script', h.options, h.options', h.token, h.drafts, ?_, ?_⟩, ?_,
    h.inside.withMode mode⟩
  · exact (left_withMode hmode p).trans h.left
  · exact (left_withMode hmode p').trans h.left'
  · rw [h.scanner]
    rfl

lemma Stands.advance_lt (h : S.Stands n n' p p') (hkind : p.token.kind ∉ edges) :
    S.Stands (n - 1) (n' - 1) p.advanced p'.advanced := by
  obtain ⟨hwithin, hpending⟩ := h.plain hkind
  exact hwithin.advance hpending fun he => hkind (by rw [he]; decide)

lemma Stands.advance (h : S.Stands n n' p p') (hkind : p.token.kind ∉ edges) :
    S.Stands n n' p.advanced p'.advanced :=
  (h.advance_lt hkind).mono (Nat.sub_le _ _) (Nat.sub_le _ _)

/-- A token that waits is passed. -/
lemma Within.advance_pending (h : S.Within n n' p p') {t : Token} {pending : List Token}
    (hpending : p.scanner.pending = t :: pending) (heof : p.token.kind ≠ .eof) :
    S.Within n n' p.advanced p'.advanced ∧ p.advanced.token = t ∧
      p.advanced.scanner.pending = pending := by
  obtain ⟨halone, hwhole, hinside⟩ := h.inside.next_of_pending hpending
  have hnext : p'.scanner.next = (p.scanner.next.1, S.passage.scanner p.scanner.next.2) := by
    rw [h.scanner, hwhole]
  refine ⟨⟨⟨h.script, h.script', h.options, h.options', ?_, h.drafts, ?_, ?_⟩, ?_, hinside⟩, ?_, ?_⟩
  · change p'.scanner.next.1 = p.scanner.next.1
    rw [hnext]
  · exact (left_advanced heof).le.trans h.left
  · exact (left_advanced (p := p') (by rwa [h.token])).le.trans h.left'
  · change p'.scanner.next.2 = _
    rw [hnext]
    rfl
  · change p.scanner.next.1 = t
    rw [halone]
  · change p.scanner.next.2.pending = pending
    rw [halone]

/-- Both end in states that agree, with the same result. -/
def Alike (S : Setting) (n n' : ℕ) {α : Type} : α → Parser → α → Parser → Prop :=
  fun a q a' q' => a' = a ∧ S.Stands n n' q q'

/-! ### Addresses -/

lemma Stands.numberAfter (h : S.Stands n n' p p') (hkind : p.token.kind ∉ edges) :
    Parallel numberAfter numberAfter p p' (S.Alike n n') := by
  have hnext := h.advance hkind
  refine .advance (.ifAt hnext.agree.token (fun hnumber => ?_) fun _ => parallel_complain _)
  refine .number hnext.agree.token fun k => .advance (.pure ⟨rfl, hnext.advance ?_⟩)
  rw [hnumber]
  decide

lemma patternFlags_of_ne (fuel : ℕ) (options : Regex.Options) (h : p.token.kind ≠ .word) :
    (patternFlags fuel options).run p = .ok (options, p) := by
  cases fuel with
  | zero => rfl
  | succ fuel =>
      have hrun : (isAt .word).run p = .ok (false, p) := by
        rw [← decide_eq_false h]
        rfl
      exact run_bind_of_ok hrun

/-- Each flag lessens what is left. -/
lemma Stands.patternFlags {fuel fuel' : ℕ} (h : S.Stands n n' p p') (hfuel : p.left ≤ fuel)
    (hfuel' : p'.left ≤ fuel') (options : Regex.Options) :
    Parallel (patternFlags fuel options) (patternFlags fuel' options) p p' (S.Alike n n') := by
  induction fuel generalizing fuel' options p p' with
  | zero =>
      have hkind : p.token.kind ≠ .word := fun hword => by
        have hpos := left_pos (p := p) (by rw [hword]; decide)
        omega
      refine .of_run (patternFlags_of_ne _ _ hkind) (patternFlags_of_ne _ _ ?_) ⟨rfl, h⟩
      rwa [h.agree.token]
  | succ fuel ih =>
      by_cases hkind : p.token.kind = .word
      · have heof : p.token.kind ≠ .eof := by rw [hkind]; decide
        have heof' : p'.token.kind ≠ .eof := by rwa [h.agree.token]
        have hlt := left_advanced heof
        have hlt' := left_advanced heof'
        obtain ⟨fuel', rfl⟩ : ∃ k, fuel' = k + 1 := ⟨fuel' - 1, by omega⟩
        have hnext := h.advance (by rw [hkind]; decide)
        refine .ifAt h.agree.token (fun _ => ?_) fun hne => absurd hkind hne
        refine .currentChar h.agree.token (.advance ?_)
        exact ih hnext (by omega) (by omega) _
      · refine .of_run (patternFlags_of_ne _ _ hkind) (patternFlags_of_ne _ _ ?_) ⟨rfl, h⟩
        rwa [h.agree.token]

/-- The text between delimiters, which waits, is passed. -/
lemma Within.literalIf {α β : Type} {f : Option Text → Parse α} {f' : Option Text → Parse β}
    {Q : α → Parser → β → Parser → Prop} (h : S.Within n n' p p') {text : Text} {t : Token}
    {pending : List Token} (hpending : p.scanner.pending = fieldTokens text ++ t :: pending)
    (heof : p.token.kind ≠ .eof) (ht : t.kind ≠ .text)
    (hf : ∀ found q q', found.getD [] = text → S.Within n n' q q' → q.token = t →
      q.scanner.pending = pending → Parallel (f found) (f' found) q q' Q) :
    Parallel (Parser.advance >>= fun _ => literalIf .text >>= f)
      (Parser.advance >>= fun _ => literalIf .text >>= f') p p' Q := by
  refine .advance ?_
  by_cases htext : text = []
  · rw [fieldTokens, if_pos htext, List.nil_append] at hpending
    obtain ⟨hnext, htoken, hwaiting⟩ := h.advance_pending hpending heof
    refine .literalIf hnext.token (fun hkind => ?_) fun _ => ?_
    · rw [htoken] at hkind
      exact absurd hkind ht
    · exact hf none _ _ htext.symm hnext htoken hwaiting
  · rw [fieldTokens, if_neg htext, List.singleton_append] at hpending
    obtain ⟨hnext, htoken, hwaiting⟩ := h.advance_pending hpending heof
    have hkind : p.advanced.token.kind = .text := by rw [htoken]
    refine .literalIf hnext.token (fun _ => ?_) fun hne => absurd hkind hne
    obtain ⟨hnext', htoken', hwaiting'⟩ :=
      hnext.advance_pending hwaiting (by rw [hkind]; decide)
    rw [htoken]
    exact hf (some text) _ _ rfl hnext' htoken' hwaiting'

/-- A pattern that is not closed is no address. -/
lemma fails_patternAddress {t : Token} {pattern : Text}
    (h : Ahead p (t :: (fieldTokens pattern ++ [.endOfScript]))) : Fails patternAddress p := by
  refine (reads_advance h).fails_bind fun q h => ?_
  obtain ⟨found, -, hfound⟩ := reads_literalText h nofun
  refine hfound.fails_bind fun q h => (reads_isAt .slash h).fails_bind fun q _ => ?_
  exact fails_complain _ _

/-- Where nothing is ahead but tokens that wait, they are the last. -/
lemma feeds_waiting {s : Scanner} (hmode : s.mode = .command ∨ s.mode = .ending)
    (hahead : s.cursor.ahead = []) : Feeds s (s.pending ++ [.endOfScript]) := by
  obtain ⟨⟨passed, ahead⟩, mode, pending, addresses, previous, afterPattern, tokenStart⟩ := s
  obtain rfl : ahead = [] := hahead
  refine Scanner.feeds_pending (s := ⟨⟨passed, []⟩, mode, pending, addresses, previous,
    afterPattern, tokenStart⟩) pending (fun previous => ?_) previous
  obtain rfl | rfl := hmode
  · exact ⟨rfl, trivial⟩
  · exact ⟨rfl, trivial⟩

lemma Stands.patternAddress (h : S.Stands n n' p p') (hkind : p.token.kind = .slash) :
    Parallel patternAddress patternAddress p p' (S.Alike n n') := by
  cases h with
  | within h tidy =>
      rw [Passage.Tidy, hkind] at tidy
      obtain ⟨pattern, delimiter, hpending⟩ := tidy
      refine h.literalIf hpending (by rw [hkind]; decide) (by simp) ?_
      intro found q q' _ hq ht hw
      refine .ifAt hq.token (fun _ => ?_) fun _ => parallel_complain _
      have hnext := (hq.advance hw (by simp [ht])).mono (Nat.sub_le n 1)
        (Nat.sub_le n' 1)
      refine .advance (.get ?_)
      rw [hnext.agree.options']
      refine .bind (hnext.patternFlags (left_le_bound _) (left_le_bound _) _) ?_
      rintro _ r options r' ⟨rfl, hr⟩
      exact .compilePattern fun re => .pure ⟨rfl, hr⟩
  | done h hnewline =>
      rw [hkind] at hnewline
      cases hnewline
  | lost h hlost =>
      cases hlost with
      | pattern pattern _ hmode hahead hpending =>
          have hfeeds := feeds_waiting (.inl hmode) hahead
          rw [hpending] at hfeeds
          exact .of_fails (fails_patternAddress ⟨rfl, hfeeds⟩)
      | illegal h | first _ h | second _ _ _ h =>
          rw [hkind] at h
          cases h

lemma Stands.numberAddress (h : S.Stands n n' p p') (hkind : p.token.kind = .number) :
    Parallel numberAddress numberAddress p p' (S.Alike n n') := by
  have hnext := h.advance (by rw [hkind]; decide)
  refine .number h.agree.token fun first => .advance ?_
  refine .ifAt hnext.agree.token (fun htilde => ?_) fun _ => .pure ⟨rfl, hnext⟩
  refine .bind (hnext.numberAfter (by rw [htilde]; decide)) ?_
  rintro _ q step q' ⟨rfl, hq⟩
  exact .pure ⟨rfl, hq⟩

/-- The kinds of tokens with which an address begins. -/
def addressKinds : List Kind := [.dollar, .number, .slash]

lemma Stands.address (h : S.Stands n n' p p') (hkind : p.token.kind ∈ addressKinds) :
    Parallel address address p p' (S.Alike n n') := by
  refine .get ?_
  rw [h.agree.token]
  split
  · rename_i hdollar
    exact .advance (.pure ⟨rfl, h.advance (by rw [hdollar]; decide)⟩)
  · exact h.numberAddress ‹_›
  · rename_i hdollar hnumber
    have hkinds : p.token.kind = .dollar ∨ p.token.kind = .number ∨ p.token.kind = .slash := by
      simpa [addressKinds] using hkind
    exact h.patternAddress ((hkinds.resolve_left hdollar).resolve_left hnumber)

lemma Stands.rangeEnd (h : S.Stands n n' p p') :
    Parallel rangeEnd rangeEnd p p' (S.Alike n n') := by
  have hafter (make : ℕ → RangeEnd) (hkind : p.token.kind ∉ edges) :
      Parallel (Parser.numberAfter >>= fun k => pure (make k))
        (Parser.numberAfter >>= fun k => pure (make k)) p p' (S.Alike n n') := by
    refine .bind (h.numberAfter hkind) ?_
    rintro _ q k q' ⟨rfl, hq⟩
    exact .pure ⟨rfl, hq⟩
  have haddress (hkind : p.token.kind ∈ addressKinds) :
      Parallel (Parser.address >>= fun a => pure (RangeEnd.address a))
        (Parser.address >>= fun a => pure (RangeEnd.address a)) p p' (S.Alike n n') := by
    refine .bind (h.address hkind) ?_
    rintro _ q a q' ⟨rfl, hq⟩
    exact .pure ⟨rfl, hq⟩
  refine .get ?_
  rw [h.agree.token]
  split
  case h_1 hkind => exact hafter _ (by rw [hkind]; decide)
  case h_2 hkind => exact hafter _ (by rw [hkind]; decide)
  case h_6 => exact parallel_complain _
  all_goals
    rename_i hkind
    exact haddress (by rw [hkind]; decide)

/-- The selection is the same, but for the number of a range. -/
lemma Stands.selection (h : S.Stands n n' p p') :
    Parallel selection selection p p'
      (fun s q s' q' => s' = s.moved S.ranges ∧ S.Stands n n' q q') := by
  refine .get ?_
  rw [h.agree.token]
  split
  case h_4 => exact .pure ⟨rfl, h⟩
  all_goals
    rename_i hkind
    refine .bind (h.address (by rw [hkind]; decide)) ?_
    rintro _ q start q' ⟨rfl, hq⟩
    refine .ifAt hq.agree.token (fun hcomma => ?_) fun _ => ?_
    · refine .advance (.bind (hq.advance (by rw [hcomma]; decide)).rangeEnd ?_)
      rintro _ r stop r' ⟨rfl, hr⟩
      refine .ite (fun _ => .get (.modify (.pure ⟨?_, ?_⟩))) fun _ => parallel_complain _
      · exact congrArg _ hr.agree.drafts.ranges
      · have hdrafts := hr.agree.drafts
        refine hr.redraft ⟨rfl, rfl, rfl, rfl⟩ ⟨rfl, rfl, rfl, rfl⟩
          ⟨hdrafts.commands, hdrafts.files, ?_, hdrafts.openBlocks⟩
        exact (congrArg (· + 1) hdrafts.ranges).trans (Nat.add_right_comm _ _ _)
    · split
      · exact parallel_complain _
      · exact .pure ⟨rfl, hq⟩

lemma Stands.negation (h : S.Stands n n' p p') :
    Parallel negation negation p p' (S.Alike n n') := by
  refine .ifAt h.agree.token (fun hbang => ?_) fun _ => .pure ⟨rfl, h⟩
  have hnext := h.advance (by rw [hbang]; decide)
  refine .advance (.ifAt hnext.agree.token (fun _ => parallel_complain _) fun _ => ?_)
  exact .pure ⟨rfl, hnext⟩

/-! ### Arguments -/

lemma Stands.fileName (h : S.Stands n n' p p') (hkind : p.token.kind ∉ edges) :
    Parallel fileName fileName p p' (S.Alike (n - 1) (n' - 1)) := by
  have hnext := h.advance_lt hkind
  refine .get ?_
  rw [h.agree.options']
  refine .ite (fun _ => parallel_complain _) fun _ => .advance ?_
  refine .literalIf hnext.agree.token (fun hword => .pure ⟨rfl, ?_⟩) fun _ => parallel_complain _
  exact hnext.advance (by rw [hword]; decide)

/-- A target is the same, but for the number of a file. -/
def Targeted (S : Setting) (n n' : ℕ) (t : Target) (q : Parser) (t' : Target) (q' : Parser) :
    Prop :=
  (∃ number, Renumbers q.outputFiles q'.outputFiles number (some t) ∧ t' = t.moved number) ∧
    S.Stands n n' q q'

/-- A file is added if no file before has its path. -/
lemma Drafts.addFile (h : S.Drafts d d') (f : OutputFile) {files' : List OutputFile}
    (hfiles : files' = mergedFiles S.files (d.outputFiles ++ [f])) :
    S.Drafts { d with outputFiles := d.outputFiles ++ [f] } { d' with outputFiles := files' } := by
  subst hfiles
  obtain ⟨moved, hcommands, hmoves⟩ := h.commands
  refine ⟨⟨moved, hcommands, ?_⟩, rfl, h.ranges, h.openBlocks⟩
  obtain ⟨more, hmore⟩ : ∃ more, mergedFiles S.files (d.outputFiles ++ [f]) =
      d'.outputFiles ++ more := by
    rw [h.files, mergedFiles, mergedFiles, List.filter_append, ← List.append_assoc]
    exact ⟨_, rfl⟩
  dsimp only
  rw [hmore]
  exact hmoves.imp fun c c' hc => hc.append _ _

/-- A file name stands for a file with the same path on both sides. -/
lemma Stands.target (h : S.Stands n n' p p') (name : Text) (place : Location) :
    Parallel (target name place) (target name place) p p' (S.Targeted n n') := by
  have hfiles : p'.outputFiles = mergedFiles S.files p.outputFiles := h.agree.drafts.files
  refine .ite (fun _ => .pure ⟨⟨id, nofun, rfl⟩, h⟩) fun _ => ?_
  refine .ite (fun _ => .pure ⟨⟨id, nofun, rfl⟩, h⟩) fun _ => .get ?_
  dsimp only
  -- The path is known in the passage, or known only before it, or new to both.
  cases hown : p.outputFiles.findIdx? (Path.key ·.name = Path.key name) with
  | some i =>
      obtain ⟨hi, hkey, -⟩ := List.findIdx?_eq_some_iff_getElem.1 hown
      have hkey : Path.key p.outputFiles[i].name = Path.key name := of_decide_eq_true hkey
      obtain ⟨f', hf', hkey'⟩ :=
        exists_mem_mergedFiles S.files (List.getElem_mem hi)
      cases hwhole : p'.outputFiles.findIdx? (Path.key ·.name = Path.key name) with
      | none =>
          have hno := List.findIdx?_eq_none_iff.1 hwhole f' (by rwa [hfiles])
          exact absurd (hkey'.trans hkey) (of_decide_eq_false hno)
      | some j =>
          obtain ⟨hj, hkeyj, -⟩ := List.findIdx?_eq_some_iff_getElem.1 hwhole
          refine .pure ⟨⟨fun _ => j, fun k hk => ?_, rfl⟩, h⟩
          cases hk
          exact ⟨_, _, List.getElem?_eq_getElem hi, List.getElem?_eq_getElem hj,
            (of_decide_eq_true hkeyj).trans hkey.symm⟩
  | none =>
      have hnew : ∀ g ∈ p.outputFiles, Path.key g.name ≠ Path.key name := fun g hg =>
        of_decide_eq_false (List.findIdx?_eq_none_iff.1 hown g hg)
      have hlast : (p.outputFiles ++ [⟨name, place⟩])[p.outputFiles.length]? =
          some (⟨name, place⟩ : OutputFile) := by simp
      have hadded {files' : List OutputFile}
          (hfiles' : files' = mergedFiles S.files (p.outputFiles ++ [⟨name, place⟩])) :
          S.Stands n n' { p with outputFiles := p.outputFiles ++ [⟨name, place⟩] }
            { p' with outputFiles := files' } :=
        h.redraft ⟨rfl, rfl, rfl, rfl⟩ ⟨rfl, rfl, rfl, rfl⟩ (h.agree.drafts.addFile _ hfiles')
      cases hwhole : p'.outputFiles.findIdx? (Path.key ·.name = Path.key name) with
      | some j =>
          obtain ⟨hj, hkeyj, -⟩ := List.findIdx?_eq_some_iff_getElem.1 hwhole
          have hkeyj : Path.key p'.outputFiles[j].name = Path.key name := of_decide_eq_true hkeyj
          have hmem : p'.outputFiles[j] ∈ mergedFiles S.files p.outputFiles := by
            rw [← hfiles]
            exact List.getElem_mem hj
          have hsame : p'.outputFiles = mergedFiles S.files (p.outputFiles ++ [⟨name, place⟩]) := by
            rw [mergedFiles_concat_of_mem hmem hkeyj hnew, hfiles]
          refine .of_run rfl rfl ⟨⟨fun _ => j, fun k hk => ?_, rfl⟩, hadded hsame⟩
          cases hk
          exact ⟨_, _, hlast, List.getElem?_eq_getElem hj, hkeyj⟩
      | none =>
          have hnew' : ∀ g ∈ mergedFiles S.files p.outputFiles,
              Path.key g.name ≠ Path.key name := fun g hg =>
            of_decide_eq_false (List.findIdx?_eq_none_iff.1 hwhole g (by rwa [hfiles]))
          have hboth : p'.outputFiles ++ [⟨name, place⟩] =
              mergedFiles S.files (p.outputFiles ++ [⟨name, place⟩]) := by
            rw [mergedFiles_concat_of_new hnew', hfiles]
          refine .modify (.pure ⟨⟨fun _ => p'.outputFiles.length, fun k hk => ?_, rfl⟩,
            hadded hboth⟩)
          cases hk
          exact ⟨_, _, hlast, by simp, rfl⟩

/-- What a command does is the same, but for the numbers of blocks, branches and files. -/
def Acts (S : Setting) (n n' : ℕ) (a : Action) (q : Parser) (a' : Action) (q' : Parser) : Prop :=
  (∃ number, Renumbers q.outputFiles q'.outputFiles number a.target? ∧
    a' = a.moved S.commands.length number) ∧ S.Stands n n' q q'

/-- An action without numbers. -/
lemma Stands.acts {a : Action} (h : S.Stands n n' p p') (ha : a.target? = none)
    (hmoved : a.moved S.commands.length id = a) : S.Acts n n' a p a p' :=
  ⟨⟨id, by rw [ha]; exact renumbers_none _ _ _, hmoved.symm⟩, h⟩

lemma Stands.textArgument (h : S.Stands n n' p p') (hkind : p.token.kind ∉ edges) (letter : Char) :
    Parallel (textArgument letter) (textArgument letter) p p' (S.Acts (n - 1) (n' - 1)) := by
  have hnext := h.advance_lt hkind
  refine .advance (.isAt hnext.agree.token ?_)
  have hpast (hbackslash : (!!decide (p.advanced.token.kind = .backslash)) = true) :
      p.advanced.token.kind ∉ edges := by
    have hkind : p.advanced.token.kind = .backslash := by simpa using hbackslash
    rw [hkind]
    decide
  refine .ite (fun hbackslash => .advance ?_) fun _ => ?_
  case' refine_1 => have hq := hnext.advance (hpast hbackslash)
  case' refine_2 => have hq := hnext
  all_goals
    refine .get ?_
    rw [hq.agree.token, hq.agree.options']
    refine .ite (fun _ => parallel_complain _) fun htext => ?_
    refine .ite (fun _ => parallel_complain _) fun _ => ?_
    have hlast := hq.advance (by
      rw [Bool.or_eq_true, not_or, decide_eq_true_iff, not_not] at htext
      rw [htext.1]
      decide)
    refine .advance (.isAt hlast.agree.token (.ite (fun _ => parallel_complain _) fun _ => ?_))
    split <;> exact .pure (hlast.acts rfl rfl)

/-- A field that waits is passed. -/
lemma Within.field (h : S.Within n n' p p') (hkind : p.token.kind = .delimiter) {text : Text}
    {t : Token} {pending : List Token}
    (hpending : p.scanner.pending = fieldTokens text ++ t :: pending) (ht : t.kind ≠ .text)
    (letter : Char) :
    Parallel (field letter) (field letter) p p' fun a q a' q' =>
      a' = a ∧ S.Within n n' q q' ∧ q.token = t ∧ q.scanner.pending = pending := by
  refine .ifAt h.token (fun _ => ?_) fun hne => absurd hkind hne
  refine h.literalIf hpending (by rw [hkind]; decide) ht fun found q q' hfound hq ht hw => ?_
  exact .pure ⟨rfl, hq, ht, hw⟩

/-- Fields are read only behind a delimiter. -/
lemma fails_field {letter : Char} (h : p.token.kind ≠ .delimiter) : Fails (field letter) p := by
  intro a q hrun
  have hat : (isAt .delimiter).run p = .ok (false, p) := by
    rw [← decide_eq_false h]
    rfl
  rw [field, run_bind_of_ok hat] at hrun
  cases hrun

/-- The fields of a command, behind the token before them. -/
lemma Stands.fields (h : S.Stands n n' p p') (hkind : p.token.kind ∉ edges) (letter : Char) :
    Parallel (fields letter) (fields letter) p p' fun r q r' q' =>
      r' = r ∧ S.Within (n - 1) (n' - 1) q q' ∧ q.token.kind = .delimiter ∧
        q.scanner.pending = [] := by
  have hnext := h.advance_lt hkind
  refine .advance (.ifAt hnext.agree.token (fun _ => parallel_complain _) fun hlegal => ?_)
  by_cases hdelimiter : p.advanced.token.kind = .delimiter
  case neg => exact .of_fails (fails_field hdelimiter).bind
  generalize p.advanced = q at hnext hlegal hdelimiter
  -- Behind a letter the field is in the passage. A passage that has lost its way has fields without
  -- an end, of which reading fails.
  cases hnext with
  | within hq tidy =>
      rw [Passage.Tidy, hdelimiter] at tidy
      obtain ⟨first, second, delimiter, hpending⟩ := tidy
      refine .bind (hq.field hdelimiter hpending (by simp) letter) ?_
      rintro _ r first r' ⟨rfl, hr, htoken, hwaiting⟩
      refine .bind (hr.field (by rw [htoken]) hwaiting (by simp) letter) ?_
      rintro _ u second u' ⟨rfl, hu, htoken', hwaiting'⟩
      refine .ifAt hu.token (fun hkind => .pure ⟨rfl, hu, hkind, hwaiting'⟩) fun _ => ?_
      exact parallel_complain _
  | done _ hnewline =>
      rw [hdelimiter] at hnewline
      cases hnewline
  | lost _ hlost =>
      refine .of_fails ?_
      have htoken : q.token = ⟨.delimiter, q.token.literal⟩ := by rw [← hdelimiter]
      cases hlost with
      | illegal hillegal => exact absurd hillegal hlegal
      | pattern _ hslash =>
          rw [hdelimiter] at hslash
          cases hslash
      | first first _ hmode hahead hpending =>
          have hfeeds := feeds_waiting (.inr hmode) hahead
          rw [hpending] at hfeeds
          refine (reads_field (t := .endOfScript) ⟨htoken, hfeeds⟩ (by decide)).fails_bind
            fun r hr => ?_
          exact (fails_field (by rw [hr.1]; decide)).bind
      | second first second delimiter _ hmode hahead hpending =>
          have hfeeds := feeds_waiting (.inr hmode) hahead
          rw [hpending, List.append_assoc, List.cons_append] at hfeeds
          refine (reads_field ⟨htoken, hfeeds⟩ (by simp)).fails_bind fun r hr => ?_
          refine (reads_field (t := .endOfScript) hr (by decide)).fails_bind fun u hu => ?_
          exact (reads_isAt .delimiter hu).fails_bind fun v _ => fails_complain _ _

/-- Flags are the same, but for the number of a file. -/
def Flagged (S : Setting) (n n' : ℕ) (f : SubstitutionFlags) (q : Parser)
    (f' : SubstitutionFlags) (q' : Parser) : Prop :=
  (∃ number, Renumbers q.outputFiles q'.outputFiles number f.write ∧
    f' = { f with write := f.write.map (·.moved number) }) ∧ S.Stands n n' q q'

lemma Stands.flagged {f : SubstitutionFlags} (h : S.Stands n n' p p') (hf : f.write = none) :
    S.Flagged n n' f p f p' := by
  refine ⟨⟨id, by rw [hf]; exact renumbers_none _ _ _, ?_⟩, h⟩
  obtain ⟨pattern, occurrence, everywhere, print, write⟩ := f
  obtain rfl : write = none := hf
  rfl

lemma substitutionFlags_of_ne {place : Location} (fuel : ℕ) (flags : SubstitutionFlags)
    (hnumber : p.token.kind ≠ .number) (hword : p.token.kind ≠ .word) :
    (substitutionFlags place fuel flags).run p = .ok (flags, p) := by
  cases fuel with
  | zero => rfl
  | succ fuel =>
      refine (run_get_bind _).trans ?_
      split
      · exact absurd ‹_› hnumber
      · exact absurd ‹_› hword
      · rfl

/-- Each flag lessens what is left. -/
lemma Stands.substitutionFlags {fuel fuel' : ℕ} (h : S.Stands n n' p p') (hfuel : p.left ≤ fuel)
    (hfuel' : p'.left ≤ fuel') (place : Location) {flags : SubstitutionFlags}
    (hflags : flags.write = none) :
    Parallel (substitutionFlags place fuel flags) (substitutionFlags place fuel' flags) p p'
      (S.Flagged n n') := by
  induction fuel generalizing fuel' flags p p' with
  | zero =>
      have heof : p.token.kind = .eof := eof_of_left hfuel
      have heof' : p'.token.kind = .eof := by rw [h.agree.token, heof]
      refine .of_run (substitutionFlags_of_ne _ _ ?_ ?_) (substitutionFlags_of_ne _ _ ?_ ?_)
        (h.flagged hflags) <;> simp [heof, heof']
  | succ fuel ih =>
      by_cases hkind : p.token.kind = .number ∨ p.token.kind = .word
      · have heof : p.token.kind ≠ .eof := by
          rintro heof
          simp [heof] at hkind
        have heof' : p'.token.kind ≠ .eof := by rwa [h.agree.token]
        have hlt := left_advanced heof
        have hlt' := left_advanced heof'
        obtain ⟨fuel', rfl⟩ : ∃ k, fuel' = k + 1 := ⟨fuel' - 1, by omega⟩
        -- A flag does not end the passage, so that the next token is behind it on both sides.
        have hedges : p.token.kind ∉ edges := by
          rcases hkind with hkind | hkind <;> rw [hkind] <;> decide
        have hnext := h.advance hedges
        refine .get ?_
        rw [h.agree.token]
        split
        · refine .ite (fun _ => parallel_complain _) fun _ => .number h.agree.token fun k => ?_
          refine .ite (fun _ => parallel_complain _) fun _ => .advance ?_
          exact ih hnext (by omega) (by omega) hflags
        · refine .currentChar h.agree.token (.ite (fun _ => ?_) fun _ => ?_)
          · refine .bind (h.fileName hedges) ?_
            rintro _ q name q' ⟨rfl, hq⟩
            refine .bind (hq.target name place) ?_
            rintro t r _ r' ⟨⟨number, hnumber, rfl⟩, hr⟩
            exact .pure ⟨⟨number, hnumber, rfl⟩, hr.mono (Nat.sub_le _ _) (Nat.sub_le _ _)⟩
          · split
            · rename_i flags' hadd
              refine .advance (ih hnext (by omega) (by omega) ?_)
              rw [(eq_of_add? hadd).2, hflags]
            · exact parallel_complain _
        · rename_i hnumber hword
          exact absurd hkind (not_or.2 ⟨hnumber, hword⟩)
      · obtain ⟨hnumber, hword⟩ := not_or.1 hkind
        refine .of_run (substitutionFlags_of_ne _ _ hnumber hword)
          (substitutionFlags_of_ne _ _ ?_ ?_) (h.flagged hflags) <;> rwa [h.agree.token]

lemma Stands.substitution (h : S.Stands n n' p p') (hkind : p.token.kind ∉ edges)
    (place : Location) :
    Parallel (substitution place) (substitution place) p p' (S.Acts (n - 1) (n' - 1)) := by
  refine .bind (h.fields hkind 's') ?_
  rintro _ q ⟨pattern, replacement⟩ q' ⟨rfl, hq, hdelimiter, hwaiting⟩
  have hnext := (hq.advance hwaiting (by rw [hdelimiter]; decide)).mono (Nat.sub_le _ _)
    (Nat.sub_le _ _)
  refine .advance (.get ?_)
  dsimp only
  rw [hnext.agree.options']
  refine .bind (hnext.substitutionFlags (left_le_bound _) (left_le_bound _) place rfl) ?_
  rintro flags r _ r' ⟨⟨number, hnumber, rfl⟩, hr⟩
  refine .ifAt hr.agree.token (fun _ => ?_) fun _ => ?_
  · exact .currentChar hr.agree.token (parallel_complain _)
  · refine .compilePattern fun regex => .ite (fun _ => parallel_complainOf _ _ _) fun _ => ?_
    exact .pure ⟨⟨number, hnumber, rfl⟩, hr⟩

lemma Stands.transliteration (h : S.Stands n n' p p') (hkind : p.token.kind ∉ edges) :
    Parallel transliteration transliteration p p' (S.Acts (n - 1) (n' - 1)) := by
  refine .bind (h.fields hkind 'y') ?_
  rintro _ q ⟨source, target⟩ q' ⟨rfl, hq, hdelimiter, hwaiting⟩
  refine .ite (fun _ => parallel_complain _) fun _ => ?_
  have hending := hq.withMode .ending rfl
  have hnext := (hending.advance hwaiting (by rw [hdelimiter]; decide)).mono
    (Nat.sub_le _ _) (Nat.sub_le _ _)
  exact .modify (.pure (hnext.acts rfl rfl))

lemma Stands.numberArgument (h : S.Stands n n' p p') (hkind : p.token.kind ∉ edges)
    (letter : Char) :
    Parallel (numberArgument letter) (numberArgument letter) p p' (S.Acts (n - 1) (n' - 1)) := by
  have hnext := h.advance_lt hkind
  have hend {q q' : Parser} (hq : S.Stands (n - 1) (n' - 1) q q') (k : Option ℕ) :
      Parallel
        (if letter = 'l' then Pure.pure (Action.list k)
          else if k.getD 0 < exitCodeLimit then Pure.pure (Action.quit (k.getD 0) (letter = 'q'))
            else complain .invalidExitCode)
        (if letter = 'l' then Pure.pure (Action.list k)
          else if k.getD 0 < exitCodeLimit then Pure.pure (Action.quit (k.getD 0) (letter = 'q'))
            else complain .invalidExitCode) q q' (S.Acts (n - 1) (n' - 1)) :=
    .ite (fun _ => .pure (hq.acts rfl rfl)) fun _ =>
      .ite (fun _ => .pure (hq.acts rfl rfl)) fun _ => parallel_complain _
  refine .advance (.ifAt hnext.agree.token (fun hnumber => ?_) fun _ => hend hnext none)
  refine .number hnext.agree.token fun k => .advance (hend (hnext.advance ?_) (some k))
  rw [hnumber]
  decide

/-- The argument is read behind the letter of the command. -/
lemma Stands.argument (h : S.Stands n n' p p') (hkind : p.token.kind ∉ edges) (letter : Char)
    (place : Location) (kind : Argument) :
    Parallel (argument letter place kind) (argument letter place kind) p p'
      (S.Acts (n - 1) (n' - 1)) := by
  cases kind with
  | nothing =>
      obtain ⟨hwithin, hpending⟩ := h.plain hkind
      have hnext := (hwithin.withMode .ending rfl).advance hpending
        fun he => hkind (by rw [he]; decide)
      refine .modify (.pure (hnext.acts ?_ ?_)) <;> unfold plainAction <;> split <;> rfl
  | label =>
      have hnext := h.advance_lt hkind
      refine .advance (.literalIf hnext.agree.token (fun hword => ?_) fun _ => ?_)
      · exact .pure ((hnext.advance (by rw [hword]; decide)).acts rfl rfl)
      · exact .pure (hnext.acts rfl rfl)
  | number => exact h.numberArgument hkind letter
  | readName =>
      refine .bind (h.fileName hkind) ?_
      rintro _ q name q' ⟨rfl, hq⟩
      by_cases hletter : letter = 'R'
      · simp only [if_pos hletter]
        exact .pure (hq.acts rfl rfl)
      · simp only [if_neg hletter]
        exact .pure (hq.acts rfl rfl)
  | writeName =>
      refine .bind (h.fileName hkind) ?_
      rintro _ q name q' ⟨rfl, hq⟩
      refine .bind (hq.target name place) ?_
      rintro t r _ r' ⟨⟨number, hnumber, rfl⟩, hr⟩
      by_cases hletter : letter = 'W'
      · simp only [if_pos hletter]
        exact .pure ⟨⟨number, hnumber, rfl⟩, hr⟩
      · simp only [if_neg hletter]
        exact .pure ⟨⟨number, hnumber, rfl⟩, hr⟩
  | text => exact h.textArgument hkind letter
  | substitution => exact h.substitution hkind place
  | transliteration => exact h.transliteration hkind

/-! ### Statements -/

/-- Both end in states that agree. -/
def Onwards (S : Setting) (n n' : ℕ) : Unit → Parser → Unit → Parser → Prop :=
  fun _ q _ q' => S.Stands n n' q q'

lemma Drafts.push (h : S.Drafts d d') {c c' : Command}
    (hc : c.Moves S.commands.length S.ranges d.outputFiles d'.outputFiles c') :
    S.Drafts { d with commands := d.commands ++ [c] }
      { d' with commands := d'.commands ++ [c'] } := by
  obtain ⟨moved, hcommands, hmoves⟩ := h.commands
  refine ⟨⟨moved ++ [c'], ?_, List.rel_append hmoves (.cons hc .nil)⟩, h.files, h.ranges,
    h.openBlocks⟩
  dsimp only
  rw [hcommands, List.append_assoc]

/-- A command is added on both sides. -/
lemma Stands.push (h : S.Stands n n' p p') {c c' : Command}
    (hc : c.Moves S.commands.length S.ranges p.outputFiles p'.outputFiles c') :
    S.Stands n n' { p with commands := p.commands ++ [c] }
      { p' with commands := p'.commands ++ [c'] } :=
  h.redraft ⟨rfl, rfl, rfl, rfl⟩ ⟨rfl, rfl, rfl, rfl⟩ (h.agree.drafts.push hc)

/-- A command that names no file. -/
lemma moves_of_target?_eq_none {c : Command} (h : c.action.target? = none) (places ranges : ℕ)
    (files files' : List OutputFile) :
    c.Moves places ranges files files' (c.moved places ranges id) :=
  ⟨id, by rw [h]; exact renumbers_none _ _ _, .inl rfl⟩

lemma Stands.command (h : S.Stands n n' p p') (hkind : p.token.kind ∉ edges) (s : Selection)
    (negated : Bool) (place : Location) :
    Parallel (command s negated place) (command (s.moved S.ranges) negated place) p p'
      (S.Onwards (n - 1) (n' - 1)) := by
  refine .get (.currentChar h.agree.token ?_)
  rw [h.agree.options']
  split
  · exact parallel_complain _
  · rw [addressCount_moved]
    refine .ite (fun _ => parallel_complain _) fun _ => .bind (h.argument hkind _ place _) ?_
    rintro a q a' q' ⟨⟨number, hnumber, rfl⟩, hq⟩
    exact .of_run rfl rfl (hq.push ⟨number, hnumber, .inl rfl⟩)

lemma Stands.label (h : S.Stands n n' p p') (hkind : p.token.kind ∉ edges) (s : Selection)
    (place : Location) :
    Parallel (label s place) (label (s.moved S.ranges) place) p p'
      (S.Onwards (n - 1) (n' - 1)) := by
  have hnext := h.advance_lt hkind
  rw [Parser.label, Parser.label, addressCount_moved]
  refine .ite (fun _ => parallel_complain _) fun _ => .advance (.get ?_)
  rw [hnext.agree.token]
  refine .ite (fun hword => ?_) fun _ => parallel_complain _
  have hpush := hnext.push (moves_of_target?_eq_none
    (c := ⟨':', s, false, .label p.advanced.token.literal, place⟩) rfl _ _ _ _)
  have hlast := hpush.advance (by rw [hword]; decide)
  exact .modify (.advance (parallel_expectEnd hlast.agree.token hlast))

lemma Drafts.length (h : S.Drafts d d') :
    d'.commands.length = d.commands.length + S.commands.length := by
  obtain ⟨moved, hcommands, hmoves⟩ := h.commands
  rw [hcommands, List.length_append, ← hmoves.length_eq, Nat.add_comm]

/-- A block is opened without an end. -/
lemma Stands.openBlock (h : S.Stands n n' p p') (hkind : p.token.kind ∉ edges) (s : Selection)
    (negated : Bool) (place : Location) :
    Parallel (openBlock s negated place) (openBlock (s.moved S.ranges) negated place) p p'
      (S.Onwards (n - 1) (n' - 1)) := by
  have hdrafts := h.agree.drafts
  have hlength : p'.commands.length = p.commands.length + S.commands.length := hdrafts.length
  have hopened : S.Stands n n' { p with openBlocks := p.commands.length :: p.openBlocks }
      { p' with openBlocks := p'.commands.length :: p'.openBlocks } := by
    refine h.redraft ⟨rfl, rfl, rfl, rfl⟩ ⟨rfl, rfl, rfl, rfl⟩
      ⟨hdrafts.commands, hdrafts.files, hdrafts.ranges, ?_⟩
    exact congrArg₂ List.cons hlength hdrafts.openBlocks
  have hmoves : (⟨'{', s, negated, .block 0, place⟩ : Command).Moves S.commands.length S.ranges
      p.outputFiles p'.outputFiles ⟨'{', s.moved S.ranges, negated, .block 0, place⟩ :=
    ⟨id, renumbers_none _ _ _, .inr ⟨rfl, rfl⟩⟩
  exact .of_run rfl rfl ((hopened.push hmoves).advance_lt hkind)

/-- A statement is read alike, and uses up some of what is left. -/
lemma Stands.statement (h : S.Stands n n' p p') :
    Parallel statement statement p p' (S.Onwards (n - 1) (n' - 1)) := by
  refine .bind h.selection ?_
  rintro s q _ q' ⟨rfl, hq⟩
  refine .bind hq.negation ?_
  rintro _ r negated r' ⟨rfl, hr⟩
  refine .get ?_
  have hplace (hkind : r.token.kind ∉ edges) : r'.place = r.place := (hr.plain hkind).1.place
  rw [hr.agree.token]
  split
  · rename_i hbrace
    have hkind : r.token.kind ∉ edges := by rw [hbrace]; decide
    rw [hplace hkind]
    exact hr.openBlock hkind s negated r.place
  · rename_i hcolon
    have hkind : r.token.kind ∉ edges := by rw [hcolon]; decide
    rw [hplace hkind]
    exact hr.label hkind s r.place
  · rename_i hletter
    have hkind : r.token.kind ∉ edges := by rw [hletter]; decide
    rw [hplace hkind]
    refine .bind (hr.command hkind s negated r.place) ?_
    rintro _ u _ u' hu
    exact parallel_expectEnd hu.agree.token hu
  · exact parallel_complain _
  · exact parallel_complain _
  · exact parallel_complain _
  · exact parallel_complain _
  · exact .currentChar hr.agree.token (parallel_complain _)

/-- The innermost block gets its end. -/
lemma Drafts.close (h : S.Drafts d d') (block : ℕ) (outer : List ℕ) :
    S.Drafts
      { d with
        commands := d.commands.modify block (closed d.commands.length)
        openBlocks := outer }
      { d' with
        commands := d'.commands.modify (block + S.commands.length) (closed d'.commands.length)
        openBlocks := outer.map (· + S.commands.length) } := by
  have hlength := h.length
  obtain ⟨moved, hcommands, hmoves⟩ := h.commands
  refine ⟨⟨moved.modify block (closed d'.commands.length), ?_, ?_⟩, h.files, h.ranges, rfl⟩
  · dsimp only
    rw [hcommands, modify_append_right]
  · refine forall₂_modify hmoves (fun c c' hc => ?_) block
    rw [hlength]
    exact hc.closed _

lemma Stands.closeBlock (h : S.Stands n n' p p') (hkind : p.token.kind ∉ edges) :
    Parallel closeBlock closeBlock p p' (S.Onwards (n - 1) (n' - 1)) := by
  have hdrafts := h.agree.drafts
  refine .get ?_
  rw [show p'.openBlocks = p.openBlocks.map (· + S.commands.length) from hdrafts.openBlocks]
  cases hblocks : p.openBlocks with
  | nil => exact parallel_complain _
  | cons block outer =>
      have hclose : S.Stands n n'
          { p with
            commands := p.commands.modify block (closed p.commands.length)
            openBlocks := outer }
          { p' with
            commands := p'.commands.modify (block + S.commands.length) (closed p'.commands.length)
            openBlocks := outer.map (· + S.commands.length) } :=
        h.redraft ⟨rfl, rfl, rfl, rfl⟩ ⟨rfl, rfl, rfl, rfl⟩ (hdrafts.close block outer)
      have hpush := hclose.push (moves_of_target?_eq_none
        (c := ⟨'}', .all, false, .blockEnd, p.place⟩) rfl _ _ _ _)
      have hnext := hpush.advance_lt hkind
      have hplace : p'.place = p.place := (h.plain hkind).1.place
      rw [hplace]
      exact .set (.modify (.advance (parallel_expectEnd hnext.agree.token hnext)))

/-! ### The whole passage -/

/-- What is read at a token of a kind. -/
def turn [Regex.Library] : Kind → Parse Unit
  | .newline | .semicolon => Parser.advance
  | .closeBrace => Parser.closeBlock
  | _ => Parser.statement

lemma run_statements_succ [Regex.Library] (hkind : p.token.kind ≠ .eof) (fuel : ℕ) :
    (statements (fuel + 1)).run p = (turn p.token.kind >>= fun _ => statements fuel).run p := by
  refine (run_get_bind _).trans ?_
  revert hkind
  cases p.token.kind <;> intro hkind <;> first
    | rfl
    | exact absurd rfl hkind

lemma run_statements_of_eof [Regex.Library] (hkind : p.token.kind = .eof) (fuel : ℕ) :
    (statements fuel).run p = .ok ((), p) := by
  cases fuel with
  | zero => rfl
  | succ fuel =>
      refine (run_get_bind _).trans ?_
      rw [hkind]
      rfl

/-- How the statements of a passage end in the whole: with the whole, or behind the last newline of
the passage. -/
inductive Finishes [Regex.Library] (S : Setting) (fuel : ℕ) (p' : Parser) (d : Draft) : Prop
  | ended {q' : Parser} (hrun : (statements fuel).run p' = .ok ((), q'))
      (hdrafts : S.Drafts d q'.draft) (hafter : S.passage.after = [])
  | passed {r r' : Parser} {n n' fuel' : ℕ} (hagree : S.Agree n n' r r')
      (hprevious : r.scanner.previous = some .newline)
      (hscanner : r'.scanner = S.passage.scanner r.scanner) (hdone : S.passage.Done r.scanner)
      (hdraft : r.draft = d) (hfuel : r'.advanced.left ≤ fuel')
      (hrun : (statements fuel).run p' = (statements fuel').run r'.advanced)

lemma Stands.turn (h : S.Stands n n' p p') (heof : p.token.kind ≠ .eof)
    (hwithin : p.token.kind = .newline → S.Within n n' p p' ∧ p.scanner.pending = []) :
    Parallel (turn p.token.kind) (turn p.token.kind) p p' (S.Onwards (n - 1) (n' - 1)) := by
  unfold Setting.turn
  split
  · rename_i hnewline
    obtain ⟨hwithin, hpending⟩ := hwithin hnewline
    exact .of_run rfl rfl (hwithin.advance hpending heof)
  · rename_i hsemicolon
    exact .of_run rfl rfl (h.advance_lt (by rw [hsemicolon]; decide))
  · rename_i hbrace
    exact h.closeBlock (by rw [hbrace]; decide)
  · exact h.statement

/-- Where the script by itself ends, no other one follows. -/
lemma Stands.finishes_of_eof (h : S.Stands n n' p p') (heof : p.token.kind = .eof) (fuel : ℕ) :
    S.Finishes fuel p' p.draft := by
  cases h with
  | within h tidy =>
      rw [Passage.Tidy, heof] at tidy
      have hafter := h.inside.holds.ahead.resolve_right (not_not_intro tidy.2)
      exact .ended (run_statements_of_eof (by rw [h.token, heof]) fuel) h.drafts hafter
  | done _ hkind =>
      rw [heof] at hkind
      cases hkind
  | lost _ hlost =>
      cases hlost with
      | illegal hkind | pattern _ hkind | first _ hkind | second _ _ _ hkind =>
          rw [heof] at hkind
          cases hkind

/-- Behind the last newline of the passage the script by itself ends. -/
lemma eof_of_done (h : S.passage.Done p.scanner) : p.advanced.token.kind = .eof := by
  have hfeeds := feeds_waiting (.inl h.mode) (by rw [h.cursor])
  rw [h.pending, List.nil_append] at hfeeds
  change p.scanner.next.1.kind = .eof
  rw [hfeeds.1]
  rfl

/-- The statements of a passage are read in the whole as they are read by themselves. -/
lemma Stands.statements {fuel fuel' : ℕ} {q : Parser} (h : S.Stands n n' p p') (hfuel : n ≤ fuel)
    (hfuel' : n' ≤ fuel') (hrun : (statements fuel).run p = .ok ((), q)) :
    S.Finishes fuel' p' q.draft := by
  induction fuel generalizing fuel' n n' p p' with
  | zero =>
      have heof : p.token.kind = .eof := eof_of_left (h.agree.left.trans hfuel)
      cases hrun
      exact h.finishes_of_eof heof fuel'
  | succ fuel ih =>
      by_cases heof : p.token.kind = .eof
      · rw [run_statements_of_eof heof] at hrun
        cases hrun
        exact h.finishes_of_eof heof fuel'
      have heof' : p'.token.kind ≠ .eof := by rwa [h.agree.token]
      have hleft' := h.agree.left'
      have hpos' := left_pos heof'
      obtain ⟨fuel', rfl⟩ : ∃ k, fuel' = k + 1 := ⟨fuel' - 1, by omega⟩
      have hwhole := run_statements_succ heof' fuel'
      rw [h.agree.token] at hwhole
      rw [run_statements_succ heof] at hrun
      -- if the passage goes on, a turn is taken on both sides
      have honward (hwithin : p.token.kind = .newline →
          S.Within n n' p p' ∧ p.scanner.pending = []) : S.Finishes (fuel' + 1) p' q.draft := by
        obtain ⟨_, r, hturn, hrest⟩ := run_bind_eq_ok.1 hrun
        obtain ⟨_, r', hturn', hr⟩ := h.turn heof hwithin _ _ hturn
        rw [run_bind_of_ok hturn'] at hwhole
        have hfinishes : S.Finishes fuel' r' q.draft := ih hr (by omega) (by omega) hrest
        cases hfinishes with
        | ended hrun hdrafts hafter => exact .ended (hwhole.trans hrun) hdrafts hafter
        | passed hagree hprevious hscanner hdone hdraft hfuel hrun =>
            exact .passed hagree hprevious hscanner hdone hdraft hfuel (hwhole.trans hrun)
      cases h with
      | within hw tidy =>
          refine honward fun hnewline => ⟨hw, ?_⟩
          rwa [Passage.Tidy, hnewline] at tidy
      | done hagree hnewline hprevious hscanner hdone =>
          have hlt' := left_advanced heof'
          rw [hnewline] at hwhole hrun
          have hdraft : q = p.advanced := by
            have hlast := run_statements_of_eof (eof_of_done hdone) fuel
            obtain ⟨_, r, hturn, hrest⟩ := run_bind_eq_ok.1 hrun
            cases hturn
            rw [hlast] at hrest
            cases hrest
            rfl
          refine .passed hagree hprevious hscanner hdone ?_ (by omega) hwhole
          rw [hdraft]
          rfl
      | lost hagree hlost =>
          refine honward fun hnewline => ?_
          cases hlost with
          | illegal hkind | pattern _ hkind | first _ hkind | second _ _ _ hkind =>
              rw [hnewline] at hkind
              cases hkind

end Setting

end Parser

end StreamEditor
