import StreamEditor.Proofs.Editor.Cycles
import StreamEditor.Proofs.Editor.Printing
import StreamEditor.Proofs.Program.Sandboxed
import StreamEditor.Regex.Builtin

/-!
Two scripts that carry lines from one cycle to the next.

* `Program.window`: two lines at a time are in the pattern space. `Editor.Windowed.move`: the first
  one is printed when the next one is read.
* `Program.reversal`: the lines are gathered in the hold space, the last one first.
  `Editor.Reversing.turn`: each cycle puts its line in front.
* `Editor.delivered_of_window_and_reversal`: the one delivers all lines as they are, and the other
  one delivers them in reverse.
-/

namespace StreamEditor

open Output (Write)

namespace Text

variable {t : Text}

lemma splitLine_of_not_mem (h : '\n' ∉ t) : splitLine t = (t, none) := by
  have hline : ∀ c ∈ t, decide (c ≠ '\n') = true := fun c hc =>
    decide_eq_true fun he : c = '\n' => h (he ▸ hc)
  have hall : t.dropWhile (· ≠ '\n') = [] := by
    simpa using @List.dropWhile_append_of_pos _ _ t [] hline
  rw [splitLine, hall]

lemma splitLine_append (h : '\n' ∉ t) (rest : Text) :
    splitLine (t ++ '\n' :: rest) = (t, some rest) := by
  have hline : ∀ c ∈ t, decide (c ≠ '\n') = true := fun c hc =>
    decide_eq_true fun he : c = '\n' => h (he ▸ hc)
  rw [splitLine, List.dropWhile_append_of_pos hline, List.takeWhile_append_of_pos hline]
  simp

/-- A text is put in front of others. -/
lemma joinWith_cons (t : Text) (rest : List Text) :
    joinWith '\n' (t :: rest) = if rest.isEmpty then t else t ++ '\n' :: joinWith '\n' rest := by
  cases rest <;> rfl

end Text

namespace Record

/-- Records that are written with a separator each, but the last one as it is. -/
lemma joined_concat (separator : UInt8) (records : List Record) (last : Record)
    {before : Option Write} (hbefore : before.any Write.lacksSeparator = false) :
    Write.joined separator before
        (records.map (fun r => .record r.content true) ++ [.record last.content last.terminated]) =
      joined separator (records ++ [last]) := by
  induction records generalizing before with
  | nil => simp [Write.joined, joined, Write.bytes, hbefore]
  | cons r records ih =>
      have hrest := @ih (some (.record r.content true)) rfl
      rw [List.map_cons, List.cons_append, List.cons_append, Write.joined, joined, hrest, hbefore]
      simp [Write.bytes]

end Record

namespace Program

/-! ### The scripts -/

/-- The place of a command in a script of one line. -/
def placeIn (script : String) (column : ℕ) : Location :=
  ⟨Script.nameOf (Text.ofString script), 1, column⟩

/-- Two lines at a time are in the pattern space, of which the first one is printed. -/
def window : Program where
  commands := [⟨'N', .single .last, true, .appendNext, placeIn "$!N;P;D" 3⟩,
    ⟨'P', .all, false, .printFirstLine, placeIn "$!N;P;D" 5⟩,
    ⟨'D', .all, false, .deleteFirstLine, placeIn "$!N;P;D" 7⟩]
  labels := []
  outputFiles := []
  rangeCount := 0
  quiet := false

/-- The lines are gathered in the hold space, each in front of those before it. -/
def reversal : Program where
  commands := [⟨'G', .single (.line 1), true, .getAppend, placeIn "1!G;h;$!d" 3⟩,
    ⟨'h', .all, false, .hold, placeIn "1!G;h;$!d" 5⟩,
    ⟨'d', .single .last, true, .delete, placeIn "1!G;h;$!d" 9⟩]
  labels := []
  outputFiles := []
  rangeCount := 0
  quiet := false

lemma parse_window [Regex.Library] (o : Options) :
    parse (.ofText (Text.ofString "$!N;P;D")) o = .ok window := by
  have hstrict (extended posix : Bool) : parse (.ofText (Text.ofString "$!N;P;D"))
      { Options.standard with extended, posix, sandbox := true } = .ok window := by
    cases extended <;> cases posix <;> rfl
  exact parse_of_freer (hstrict o.extended o.posix) rfl (fun _ => rfl) rfl

lemma parse_reversal [Regex.Library] (o : Options) :
    parse (.ofText (Text.ofString "1!G;h;$!d")) o = .ok reversal := by
  have hstrict (extended posix : Bool) : parse (.ofText (Text.ofString "1!G;h;$!d"))
      { Options.standard with extended, posix, sandbox := true } = .ok reversal := by
    cases extended <;> cases posix <;> rfl
  exact parse_of_freer (hstrict o.extended o.posix) rfl (fun _ => rfl) rfl

end Program

namespace Editor

open Program (window reversal)

/-! ### The window -/

section Lines

variable {c : Command} {e : Editor} {first rest : Text}

/-- Where there are two lines the first one is printed, with a separator. -/
lemma run_printFirstLine_of_two (hc : c.action = .printFirstLine)
    (hsplit : Text.splitLine e.pattern = (first, some rest)) (hendless : e.output.Endless)
    (following : ℕ) :
    (perform c following).run e =
      (.ok (.goOn following), { e with output := e.output.after [.record first true] }) := by
  rw [perform, run_get_bind, hc]
  dsimp only
  rw [hsplit]
  exact run_bind_of_ok (run_emit_of_endless hendless (.record first true))

/-- A line that is alone is printed as it was read. -/
lemma run_printFirstLine_of_one (hc : c.action = .printFirstLine)
    (hsplit : Text.splitLine e.pattern = (first, none)) (hendless : e.output.Endless)
    (following : ℕ) :
    (perform c following).run e = (.ok (.goOn following),
      { e with output := e.output.after [.record e.pattern e.terminated] }) := by
  rw [perform, run_get_bind, hc]
  dsimp only
  rw [hsplit]
  exact run_bind_of_ok (run_emit_of_endless hendless (.record e.pattern e.terminated))

lemma run_deleteFirstLine_of_two (hc : c.action = .deleteFirstLine)
    (hsplit : Text.splitLine e.pattern = (first, some rest)) (following : ℕ) :
    (perform c following).run e = (.ok .restart, { e with pattern := rest }) := by
  rw [perform, run_get_bind, hc]
  dsimp only
  rw [hsplit]
  rfl

lemma run_deleteFirstLine_of_one (hc : c.action = .deleteFirstLine)
    (hsplit : Text.splitLine e.pattern = (first, none)) (following : ℕ) :
    (perform c following).run e = (.ok (.endCycle false), e) := by
  rw [perform, run_get_bind, hc]
  dsimp only
  rw [hsplit]
  rfl

end Lines

section Windowed

variable {e₀ e e' : Editor} {all : List Delivery} {n : ℕ} {d d' : Delivery} {ws : List Write}

/-- Of two lines the first one is printed, and a cycle begins on the second one. -/
lemma Underway.window_of_two {first rest : Text} (h : Underway window e₀ all (.running 1) n ws e)
    (hfirst : '\n' ∉ first) (hpattern : e.pattern = first ++ '\n' :: rest) :
    ∃ e', Underway window e₀ all (.running 0) n (ws ++ [.record first true]) e' ∧
      e'.pattern = rest ∧ e'.terminated = e.terminated := by
  have hsplit : Text.splitLine e.pattern = (first, some rest) := by
    rw [hpattern, Text.splitLine_append hfirst]
  let e₁ : Editor := { e with output := e.output.after [.record first true] }
  have hprint : (step window (.running 1)).run e = (.ok (.running 2), e₁) :=
    run_step_of_applies rfl rfl (run_printFirstLine_of_two rfl hsplit h.endless 2)
  let e₂ : Editor := { e₁ with pattern := rest }
  have hqueue : e₂.queue = [] := h.queue
  have hdelete : (step window (.running 2)).run e₁ =
      (.ok (.running 0), told (.cycle e₂.lineNumber e₂.pattern) e₂) :=
    (run_step_of_applies rfl rfl (run_deleteFirstLine_of_two (e := e₁) rfl hsplit 3)).trans
      (run_bind_of_ok (run_endCycle_false hqueue))
  obtain ⟨environment, htold, -⟩ := undisturbed_told (.cycle e₂.lineNumber e₂.pattern) e₂
  have honward : Onward [] e₁ (told (.cycle e₂.lineNumber e₂.pattern) e₂) :=
    (onward_texts e₁ rest e₁.hold e₁.substituted).append (onward_told _ e₂)
  have hnext := (h.next hprint (onward_write _ e)).next hdelete honward
  rw [List.append_nil] at hnext
  refine ⟨_, hnext, ?_, ?_⟩ <;> rw [htold]

/-- A line that is alone is printed as it was read, and the cycle ends. -/
lemma Underway.window_of_one (h : Underway window e₀ all (.running 1) n ws e)
    (hpattern : '\n' ∉ e.pattern) :
    ∃ e', Underway window e₀ all .reading n (ws ++ [.record e.pattern e.terminated]) e' := by
  have hsplit := Text.splitLine_of_not_mem hpattern
  let e₁ : Editor := { e with output := e.output.after [.record e.pattern e.terminated] }
  have hqueue : e₁.queue = [] := h.queue
  have hprint : (step window (.running 1)).run e = (.ok (.running 2), e₁) :=
    run_step_of_applies rfl rfl (run_printFirstLine_of_one rfl hsplit h.endless 2)
  have hdelete : (step window (.running 2)).run e₁ = (.ok .reading, e₁) :=
    (run_step_of_applies rfl rfl (run_deleteFirstLine_of_one (e := e₁) rfl hsplit 3)).trans
      (run_bind_of_ok (run_endCycle_false hqueue))
  have hnext := (h.next hprint (onward_write _ e)).next hdelete (Onward.refl e₁)
  rw [List.append_nil] at hnext
  exact ⟨e₁, hnext⟩

/-- The lines before the record number `n` are printed, each with a separator. -/
def printedBefore (all : List Delivery) (n : ℕ) : List Write :=
  ((all.take n).map (·.record)).map fun r => .record r.content true

/-- The commands are about to begin on the record number `n`, and those before it are printed. -/
structure Windowed (e₀ : Editor) (all : List Delivery) (n : ℕ) (d : Delivery) (e : Editor) :
    Prop where
  underway : Underway window e₀ all (.running 0) (n + 1) (printedBefore all n) e
  record : all[n]? = some d
  pattern : e.pattern = d.record.content
  terminated : e.terminated = d.record.terminated

/-- The window moves on to the next record. -/
lemma Windowed.move (h : Windowed e₀ all n d e) (hjoined : e₀.options.separate = false)
    (hlines : ∀ d ∈ all, '\n' ∉ d.record.content) (hd : all[n + 1]? = some d') :
    ∃ e', Windowed e₀ all (n + 1) d' e' := by
  have hrun := h.underway
  have hmore : n + 1 < all.length := (List.getElem?_eq_some_iff.1 hd).1
  obtain ⟨e₁, hperform, hasked⟩ := hrun.perform_before_last hjoined rfl rfl rfl hmore
  obtain ⟨e₂, happend, hpattern, hterminated⟩ := hrun.append hjoined rfl hperform hasked hd
  rw [h.pattern] at hpattern
  obtain ⟨e₃, hmoved, hpattern₃, hterminated₃⟩ :=
    happend.window_of_two (hlines d (List.mem_of_getElem? h.record)) hpattern
  refine ⟨e₃, ⟨?_, hd, hpattern₃, hterminated₃.trans hterminated⟩⟩
  have hprinted : printedBefore all (n + 1) =
      printedBefore all n ++ [.record d.record.content true] := by
    rw [printedBefore, List.take_add_one, h.record, List.map_append, List.map_append]
    rfl
  rwa [hprinted]

/-- At the last record the commands print it as it was read. -/
lemma Windowed.last (h : Windowed e₀ all n d e) (hjoined : e₀.options.separate = false)
    (hlines : ∀ d ∈ all, '\n' ∉ d.record.content) (hlast : all.length ≤ n + 1) :
    ∃ e', Underway window e₀ all .reading (n + 1)
      (printedBefore all n ++ [.record d.record.content d.record.terminated]) e' := by
  obtain ⟨e₁, hskip, hasked⟩ := h.underway.skip_at_last hjoined rfl rfl rfl hlast
  have hpattern : e₁.pattern = d.record.content := hasked.pattern.trans h.pattern
  have hterminated : e₁.terminated = d.record.terminated :=
    hasked.onward.terminated.trans h.terminated
  rw [← hpattern, ← hterminated]
  exact hskip.window_of_one (hpattern ▸ hlines d (List.mem_of_getElem? h.record))

/-- The window comes to every record. -/
lemma Windowed.run (hstart : Underway window e₀ all .reading 0 [] e₀)
    (hjoined : e₀.options.separate = false) (hlines : ∀ d ∈ all, '\n' ∉ d.record.content)
    (hd : all[n]? = some d) : ∃ e, Windowed e₀ all n d e := by
  induction n generalizing d with
  | zero =>
      obtain ⟨input, environment, -, hread⟩ := hstart.read hd
      exact ⟨_, hread, hd, rfl, rfl⟩
  | succ n ih =>
      have hlt := Nat.lt_of_succ_lt (List.getElem?_eq_some_iff.1 hd).1
      obtain ⟨e, h⟩ := ih (List.getElem?_eq_getElem hlt)
      exact h.move hjoined hlines hd

/-- All records are printed, each with a separator but the last one as it is. -/
lemma Underway.window (hstart : Underway window e₀ all .reading 0 [] e₀)
    (hjoined : e₀.options.separate = false) (hlines : ∀ d ∈ all, '\n' ∉ d.record.content)
    (separator : UInt8) :
    ∃ ws e, Underway window e₀ all .reading all.length ws e ∧
      Write.joined separator none ws = Record.joined separator (all.map (·.record)) := by
  rcases all.eq_nil_or_concat' with rfl | ⟨front, d, rfl⟩
  · exact ⟨[], e₀, hstart, rfl⟩
  · have hd : (front ++ [d])[front.length]? = some d := by simp
    have hlength : (front ++ [d]).length = front.length + 1 := by simp
    obtain ⟨e, h⟩ := Windowed.run hstart hjoined hlines hd
    obtain ⟨e', hend⟩ := h.last hjoined hlines hlength.le
    refine ⟨_, e', hlength ▸ hend, ?_⟩
    rw [printedBefore, List.take_left, List.map_append]
    exact @Record.joined_concat separator (front.map (·.record)) d.record none rfl

end Windowed

/-! ### The reversal -/

section Reversing

variable {e₀ e e' : Editor} {all : List Delivery} {n : ℕ} {d d' : Delivery} {ws : List Write}

/-- The lines of the first `n` records, the last one first. -/
def turned (all : List Delivery) (n : ℕ) : Text :=
  Text.joinWith '\n' ((all.take n).map (·.record.content)).reverse

/-- The first line stands alone, and any other one in front of those before it. -/
lemma turned_succ (hd : all[n]? = some d) :
    turned all (n + 1) =
      if n = 0 then d.record.content else d.record.content ++ '\n' :: turned all n := by
  have hlt := (List.getElem?_eq_some_iff.1 hd).1
  have hfront : ((all.take (n + 1)).map (·.record.content)).reverse =
      d.record.content :: ((all.take n).map (·.record.content)).reverse := by
    rw [List.take_add_one, hd, List.map_append, List.reverse_append]
    rfl
  have hempty : ((all.take n).map (·.record.content)).reverse.isEmpty = decide (n = 0) := by
    rw [Bool.eq_iff_iff]
    cases all <;> simp_all
  rw [turned, hfront, Text.joinWith_cons, hempty, turned]
  simp only [decide_eq_true_eq]

/-- The run stands between two cycles, nothing is printed yet, and the first `n` lines are held. -/
structure Reversing (e₀ : Editor) (all : List Delivery) (n : ℕ) (e : Editor) : Prop where
  underway : Underway reversal e₀ all .reading n [] e
  hold : e.hold = turned all n

/-- A cycle puts its line in front of the others. -/
lemma Reversing.turn (h : Reversing e₀ all n e) (hjoined : e₀.options.separate = false)
    (hd : all[n]? = some d) :
    ∃ e', Underway reversal e₀ all (.running 2) (n + 1) [] e' ∧ e'.pattern = turned all (n + 1) ∧
      e'.hold = turned all (n + 1) ∧ e'.terminated = d.record.terminated := by
  obtain ⟨input, environment, -, hread⟩ := h.underway.read hd
  let e₁ := loaded d d.record.content { e with input, environment }
  have hnumber : e₁.lineNumber = n + 1 := hread.lineNumber (hread.options ▸ hjoined)
  let e₂ : Editor := { e₁ with pattern := turned all (n + 1) }
  obtain ⟨c, hc, hselection, hnegated, haction⟩ : ∃ c, Program.reversal.commands[0]? = some c ∧
      c.selection = .single (.line 1) ∧ c.negated = true ∧ c.action = .getAppend :=
    ⟨_, rfl, rfl, rfl, rfl⟩
  have happlies : (applies c).run e₁ = (.ok (decide (n ≠ 0)), e₁) := by
    have hone : decide (decide (e₁.lineNumber = 1) ≠ true) = decide (n ≠ 0) := by simp [hnumber]
    rw [applies, hselection, hnegated, ← hone]
    rfl
  have hget : (step reversal (.running 0)).run e₁ = (.ok (.running 1), e₂) := by
    have hturned := turned_succ hd
    -- The first line has nothing to be put in front of.
    by_cases hn : n = 0
    · rw [decide_eq_false (not_not.2 hn)] at happlies
      rw [if_pos hn] at hturned
      have hsame : e₂ = e₁ := by
        simp only [e₂, hturned]
        rfl
      rw [hsame, run_step_of_skips hc happlies, skip, haction]
    · rw [decide_eq_true hn] at happlies
      rw [if_neg hn, ← h.hold] at hturned
      have hperform : (perform c 1).run e₁ = (.ok (.goOn 1), e₂) := by
        rw [perform, run_get_bind, haction]
        simp only [e₂, hturned]
        rfl
      exact run_step_of_applies hc happlies hperform
  let e₃ : Editor := { e₂ with hold := turned all (n + 1) }
  have hhold : (step reversal (.running 1)).run e₂ = (.ok (.running 2), e₃) := rfl
  have hnext := (hread.next hget (onward_texts e₁ _ e₁.hold e₁.substituted)).next hhold
    (onward_texts e₂ e₂.pattern _ e₂.substituted)
  exact ⟨e₃, hnext, rfl, rfl, rfl⟩

/-- As long as records follow, a cycle deletes its lines. -/
lemma Reversing.next (h : Reversing e₀ all n e) (hjoined : e₀.options.separate = false)
    (hd : all[n]? = some d) (hmore : n + 1 < all.length) : ∃ e', Reversing e₀ all (n + 1) e' := by
  obtain ⟨e₁, hrun, -, hhold, -⟩ := h.turn hjoined hd
  obtain ⟨e₂, hperform, hasked⟩ := hrun.perform_before_last hjoined rfl rfl rfl hmore
  have hqueue : e₂.queue = [] := hasked.onward.queue.trans hrun.queue
  have hdelete : (step reversal (.running 2)).run e₁ = (.ok .reading, e₂) :=
    hperform.trans (run_bind_of_ok (run_endCycle_false hqueue))
  refine ⟨e₂, hrun.next hdelete hasked.onward, ?_⟩
  obtain ⟨-, _, _, _, _, rfl⟩ := hasked
  exact hhold

/-- The last cycle prints what it has put together. -/
lemma Reversing.last (h : Reversing e₀ all n e) (hjoined : e₀.options.separate = false)
    (hprinting : e₀.options.quiet = false) (hd : all[n]? = some d) (hlast : all.length ≤ n + 1) :
    ∃ e', Underway reversal e₀ all .reading (n + 1)
      [.record (turned all (n + 1)) d.record.terminated] e' := by
  obtain ⟨e₁, hrun, hpattern, -, hterminated⟩ := h.turn hjoined hd
  obtain ⟨e₂, hskip, hasked⟩ := hrun.skip_at_last hjoined rfl rfl rfl hlast
  have hprint := Underway.print hskip rfl hprinting
  rw [hasked.pattern, hpattern, hasked.onward.terminated, hterminated] at hprint
  exact ⟨_, hprint⟩

lemma Reversing.run (hstart : Underway reversal e₀ all .reading 0 [] e₀) (hhold : e₀.hold = [])
    (hjoined : e₀.options.separate = false) (hn : n < all.length) : ∃ e, Reversing e₀ all n e := by
  induction n with
  | zero => exact ⟨e₀, hstart, hhold⟩
  | succ n ih =>
      have hlt := Nat.lt_of_succ_lt hn
      obtain ⟨e, h⟩ := ih hlt
      exact h.next hjoined (List.getElem?_eq_getElem hlt) hn

/-- All lines are printed in reverse, with a separator at the end where the last record had one. -/
lemma Underway.reversal (hstart : Underway reversal e₀ all .reading 0 [] e₀) (hhold : e₀.hold = [])
    (hjoined : e₀.options.separate = false) (hprinting : e₀.options.quiet = false)
    (separator : UInt8) :
    ∃ ws e, Underway reversal e₀ all .reading all.length ws e ∧
      Write.joined separator none ws = Text.utf8 (turned all all.length) ++
        if (all.getLast?).any (·.record.terminated) then [separator] else [] := by
  rcases all.eq_nil_or_concat' with rfl | ⟨front, d, rfl⟩
  · exact ⟨[], e₀, hstart, rfl⟩
  · have hd : (front ++ [d])[front.length]? = some d := by simp
    have hlength : (front ++ [d]).length = front.length + 1 := by simp
    obtain ⟨e, h⟩ := Reversing.run hstart hhold hjoined (List.getElem?_eq_some_iff.1 hd).1
    obtain ⟨e', hend⟩ := h.last hjoined hprinting hd hlength.le
    refine ⟨_, e', hlength ▸ hend, ?_⟩
    rw [List.getLast?_concat, hlength]
    simp [Write.joined, Write.bytes]

end Reversing

/-- Over a single stream of records that end in newlines the one script delivers every record as it
is, each with a newline but the last one, which has one where it had one. The other script delivers
their lines in reverse with newlines between them, and a newline at the end where the last record
had one. If the files hold UTF-8, the first one so delivers the files one after the other. -/
theorem delivered_of_window_and_reversal [Regex.Library] {o : Options} (hprinting : o.quiet = false)
    (hsingle : o.separate = false) (hnewlines : o.nullData = false) {sink : Sink}
    (hroom : sink.room = none) (names : List Text) (env : Environment) :
    let records := (Input.deliveries 10 env.storage names).map (·.record)
    (∃ p e₀ e, Program.parse (.ofText (Text.ofString "$!N;P;D")) o = .ok p ∧
      (start? p o (.ofFiles names o.separator o.separate) sink env).1 = .ok e₀ ∧
      Concludes p e₀ (.ok 0) e ∧
      e.output.sink.delivered = sink.delivered ++ Record.joined 10 records) ∧
    (∃ p e₀ e, Program.parse (.ofText (Text.ofString "1!G;h;$!d")) o = .ok p ∧
      (start? p o (.ofFiles names o.separator o.separate) sink env).1 = .ok e₀ ∧
      Concludes p e₀ (.ok 0) e ∧
      e.output.sink.delivered = sink.delivered ++
        Text.utf8 (Text.joinWith '\n' (records.map (·.content)).reverse) ++
          if records.getLast?.any (·.terminated) then [10] else []) ∧
    ∀ contents, Input.Holds env.storage (if names.isEmpty then [['-']] else names) contents →
      (∀ bytes ∈ contents, ∃ t, bytes = Text.utf8 t) →
        Record.joined 10 records = Input.joined 10 contents := by
  intro records
  have hseparator : o.separator = 10 := by rw [Options.separator, hnewlines]; rfl
  have hlines : ∀ d ∈ Input.deliveries 10 env.storage names, '\n' ∉ d.record.content :=
    fun d hd => Input.newline_not_mem_of_fromFiles hd
  refine ⟨?_, ?_, fun contents hholds hutf8 => ?_⟩
  · obtain ⟨e₀, hstart, hbegin, hoptions, houtput, -⟩ :=
      exists_underway (p := window) rfl o names hroom env
    have hsingle : e₀.options.separate = false := (congrArg Options.separate hoptions).trans hsingle
    rw [hseparator] at hbegin houtput
    obtain ⟨ws, e, hrun, hjoined⟩ := hbegin.window hsingle hlines 10
    obtain ⟨e', hends, hdelivered⟩ := hrun.concludes hroom houtput
    rw [hjoined] at hdelivered
    exact ⟨window, e₀, e', Program.parse_window o, hstart, hends, hdelivered⟩
  · obtain ⟨e₀, hstart, hbegin, hoptions, houtput, hhold⟩ :=
      exists_underway (p := reversal) rfl o names hroom env
    have hsingle : e₀.options.separate = false := (congrArg Options.separate hoptions).trans hsingle
    have hprinting : e₀.options.quiet = false := by
      rw [hoptions, hprinting]
      rfl
    rw [hseparator] at hbegin houtput
    obtain ⟨ws, e, hrun, hjoined⟩ := hbegin.reversal hhold hsingle hprinting 10
    obtain ⟨e', hends, hdelivered⟩ := hrun.concludes hroom houtput
    rw [hjoined] at hdelivered
    refine ⟨reversal, e₀, e', Program.parse_reversal o, hstart, hends, ?_⟩
    rw [hdelivered, turned, List.take_length, List.map_map, List.getLast?_map, Option.any_map,
      ← List.append_assoc]
    rfl
  · rw [← Input.joined_records (by decide) hutf8, ← Input.records_fromFiles hholds 10 0]
    rfl

/-- Three lines in two files, of which both lack their last newline. -/
theorem delivered_of_window_and_reversal_three :
    ∃ p e₀ e p' e₀' e',
      Program.parse (.ofText (Text.ofString "$!N;P;D")) .standard = .ok p ∧
      (start? p .standard (.ofFiles [['f'], ['g']] 10 false) .unlimited
        (.start ⟨[([['f']], [97, 10, 98]), ([['g']], [99])], [], []⟩)).1 = .ok e₀ ∧
      Concludes p e₀ (.ok 0) e ∧ e.output.sink.delivered = [97, 10, 98, 10, 99] ∧
      Program.parse (.ofText (Text.ofString "1!G;h;$!d")) .standard = .ok p' ∧
      (start? p' .standard (.ofFiles [['f'], ['g']] 10 false) .unlimited
        (.start ⟨[([['f']], [97, 10, 98]), ([['g']], [99])], [], []⟩)).1 = .ok e₀' ∧
      Concludes p' e₀' (.ok 0) e' ∧ e'.output.sink.delivered = [99, 10, 98, 10, 97] := by
  let env : Environment := .start ⟨[([['f']], [97, 10, 98]), ([['g']], [99])], [], []⟩
  have hrecords : (Input.deliveries 10 env.storage [['f'], ['g']]).map (·.record) =
      [⟨['a'], true⟩, ⟨['b'], false⟩, ⟨['c'], false⟩] := by decide +kernel
  obtain ⟨⟨p, e₀, e, hp, hstart, hends, hdelivered⟩,
    ⟨p', e₀', e', hp', hstart', hends', hdelivered'⟩, -⟩ :=
    @delivered_of_window_and_reversal _ .standard rfl rfl rfl .unlimited rfl [['f'], ['g']] env
  rw [hrecords] at hdelivered hdelivered'
  refine ⟨p, e₀, e, p', e₀', e', hp, hstart, hends, hdelivered.trans ?_, hp', hstart', hends',
    hdelivered'.trans ?_⟩ <;> decide

end Editor

end StreamEditor
