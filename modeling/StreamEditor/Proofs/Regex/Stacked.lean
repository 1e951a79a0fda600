import StreamEditor.Proofs.Regex.Composed
import StreamEditor.Proofs.Regex.Shortcut

/-!
Repetitions of repetitions in the basic notation.

* `BasicNotation.takesMark`: in the extended notation a question mark after some repetitions marks
  the last of them as one that prefers to be short.
* `Repeated.push`: one more repetition, which may be such a mark; so repetitions one after the other
  are written (`Repeated.text_foldl`).
* `allMatches_stacked`: a repetition that is no such mark matches what it would match after the
  group that is made of what stands before it.
* `allMatches_stacked_lazy`: one that is such a mark does not.
-/

namespace StreamEditor.Regex

open BasicNotation

namespace BasicNotation

/-! ### Repetitions -/

/-- True if a question mark behind a repetition marks it, where one behind what stands before it
does or does not. One that is such a mark itself takes no other. -/
def Repetition.marked (isOpen : Bool) (r : Repetition) : Bool := !(isOpen && r = .optional)

/-- True if a question mark behind repetitions marks the last of them. -/
def takesMark (rs : List Repetition) : Bool := rs.foldl Repetition.marked false

/-- Something repeated, and the whole repeated once more. -/
def stacked (operand : Text) (rs : List Repetition) (last : Repetition) : Text :=
  operand ++ (rs.flatMap Repetition.basic ++ last.basic)

/-- Something repeated, and the group that is made of it repeated. -/
def nested (operand : Text) (rs : List Repetition) (last : Repetition) : Text :=
  '\\' :: '(' :: (operand ++ (rs.flatMap Repetition.basic ++ '\\' :: ')' :: last.basic))

/-- Behind a repetition no expression ends. -/
lemma atEnd_repetitions {rs : List Repetition} (hrs : rs ≠ []) (t : Text) :
    atEnd (rs.flatMap Repetition.basic ++ t) = false := by
  cases rs with
  | nil => exact absurd rfl hrs
  | cons r rs => cases r <;> rfl

lemma convertAll_repetitions (rs : List Repetition) (rest : Text) :
    convertAll 0 .inside (rs.flatMap Repetition.basic ++ rest) =
      rs.flatMap Repetition.extended ++ convertAll 0 .inside rest := by
  induction rs with
  | nil => rfl
  | cons r rs ih => simp only [List.flatMap_cons, List.append_assoc, convertAll_repetition, ih]

end BasicNotation

namespace Repeated

/-- Marks the last repetition as one that prefers to be short. -/
def shorten : Repeated → Repeated
  | times e r _ => times e r false
  | e => e

/-- Takes in one more repetition. A question mark marks the one before it, if that is not marked
yet. -/
def push (e : Repeated) (r : Repetition) : Repeated :=
  if e.isOpen = true ∧ r = .optional then e.shorten else times e r true

lemma eq_times_of_isOpen {e : Repeated} (h : e.isOpen = true) : ∃ e' r, e = times e' r true := by
  cases e with
  | operand | group => cases h
  | times e r greedy =>
      obtain rfl : greedy = true := h
      exact ⟨e, r, rfl⟩

variable (e : Repeated) (r : Repetition)

lemma text_push : (e.push r).text = e.text ++ r.extended := by
  rw [push]
  split
  · rename_i hmark
    obtain ⟨e, first, rfl⟩ := eq_times_of_isOpen hmark.1
    simp [shorten, text, hmark.2, Repetition.extended]
  · simp [text]

lemma isOpen_push : (e.push r).isOpen = Repetition.marked e.isOpen r := by
  rw [push, Repetition.marked]
  split
  · rename_i hmark
    obtain ⟨e, first, rfl⟩ := eq_times_of_isOpen hmark.1
    rw [hmark.2]
    rfl
  · rename_i hmark
    have hboth : (e.isOpen && decide (r = .optional)) = false := by simpa using hmark
    rw [hboth]
    rfl

variable {e}

lemma Sound.push (h : e.Sound) : (e.push r).Sound := by
  rw [Repeated.push]
  split
  · rename_i hmark
    obtain ⟨e, first, rfl⟩ := eq_times_of_isOpen hmark.1
    exact h
  · rename_i hmark
    exact ⟨h, fun hopen hr => hmark ⟨hopen, hr⟩⟩

variable (e) (rs : List Repetition)

/-- Repetitions one after the other are written one after the other. -/
lemma text_foldl : (rs.foldl Repeated.push e).text = e.text ++ rs.flatMap Repetition.extended := by
  induction rs generalizing e with
  | nil => simp
  | cons r rs ih => rw [List.foldl_cons, ih, text_push, List.flatMap_cons, List.append_assoc]

lemma isOpen_foldl : (rs.foldl Repeated.push e).isOpen = rs.foldl Repetition.marked e.isOpen := by
  induction rs generalizing e with
  | nil => rfl
  | cons r rs ih => rw [List.foldl_cons, List.foldl_cons, ih, isOpen_push]

variable {e}

lemma Sound.foldl (h : e.Sound) : (rs.foldl Repeated.push e).Sound := by
  induction rs generalizing e with
  | nil => exact h
  | cons r rs ih => exact ih (h.push r)

end Repeated

/-! ### The choice of an automaton -/

/-- A sign may stand behind what a repetition can follow. -/
lemma unescapedAfter_operand {u : Text} (h : Lexeme.Operand u) :
    unescapedAfter u.reverse = true := by
  cases h with
  | flat h =>
      cases h with
      | literal c hc =>
          have hne : c ≠ '\\' := by
            rintro rfl
            cases hc
          simp [unescapedAfter, hne]
      | sign c hc => fin_cases hc <;> rfl
      | escape c hc =>
          by_cases hbackslash : c = '\\'
          · rw [hbackslash]
            rfl
          · simp [unescapedAfter, hbackslash]
      | brackets b hb =>
          rw [b.extended_eq]
          simp [unescapedAfter]
  | group => simp [unescapedAfter]

lemma needsTree_repetitions {u : Text} (h : Lexeme.Operand u) {rs : List Repetition} (hrs : rs ≠ [])
    (t : Text) : needsTree (u ++ (rs.flatMap Repetition.extended ++ t)) = true := by
  by_contra hsign
  rw [Bool.not_eq_true, needsTree] at hsign
  have hnone := not_beginsSign (by simpa using unescapedAfter_operand h) (anywhere_append u hsign)
  cases rs with
  | nil => exact hrs rfl
  | cons r rs =>
      cases r <;> cases hnone

lemma anywhere_reference_of_not_mem {t : Text} (ht : '\\' ∉ t) (before : Text) :
    anywhereUnescaped beginsReference before t = false := by
  induction t generalizing before with
  | nil => simp [anywhereUnescaped, beginsReference]
  | cons c t ih =>
      rw [List.mem_cons, not_or] at ht
      have hc : beginsReference (c :: t) = false := by
        rw [beginsReference.eq_def]
        split
        · rename_i heq
          exact absurd (List.cons.inj heq).1.symm ht.1
        · rfl
      rw [anywhereUnescaped, hc, Bool.and_false, Bool.false_or, ih ht.2]

/-- Whether a text begins with a reference is decided by two characters. -/
lemma beginsReference_cons (c d : Char) (t t' : Text) :
    beginsReference (c :: d :: t') = beginsReference (c :: d :: t) := by
  by_cases hc : c = '\\'
  · rw [hc]
    rfl
  · simp [beginsReference, hc]

/-- A parenthesis before a text, and what comes behind it without backslashes, makes no
reference. -/
lemma anywhere_reference_append {c : Char} {t t' : Text} (ht : '\\' ∉ c :: t) (ht' : '\\' ∉ c :: t')
    (u : Text) {before before' : Text}
    (hbefore : ∀ w, unescapedAfter (w ++ before') = unescapedAfter (w ++ before)) :
    anywhereUnescaped beginsReference before' (u ++ c :: t') =
      anywhereUnescaped beginsReference before (u ++ c :: t) := by
  induction u generalizing before before' with
  | nil => rw [List.nil_append, List.nil_append, anywhere_reference_of_not_mem ht,
      anywhere_reference_of_not_mem ht']
  | cons d u ih =>
      have hbegins : beginsReference (d :: (u ++ c :: t')) =
          beginsReference (d :: (u ++ c :: t)) := by
        cases u <;> exact beginsReference_cons _ _ _ _
      have hplace : unescapedAfter before' = unescapedAfter before := hbefore []
      have hlater := @ih (d :: before) (d :: before') fun w => by
        simpa using hbefore (w ++ [d])
      rw [List.cons_append, List.cons_append, anywhereUnescaped, anywhereUnescaped, hbegins, hplace,
        hlater]

/-- Repetitions are written without backslashes. -/
lemma not_mem_extended (r : Repetition) : '\\' ∉ r.extended := by
  have hu := quantifier_extended r
  generalize r.extended = u at hu
  cases hu with
  | sign c hc => fin_cases hc <;> simp
  | braces u hu =>
      have hmem : '\\' ∉ u := fun h => by simpa using hu _ h
      simpa using hmem

/-- The group that is made of a repetition refers to no other than the repetition does. -/
lemma refersBack_group (u : Text) {rs : List Repetition} (hrs : rs ≠ []) (last : Repetition) :
    refersBack ('(' :: (u ++ (rs.flatMap Repetition.extended ++ ')' :: last.extended))) =
      refersBack (u ++ (rs.flatMap Repetition.extended ++ last.extended)) := by
  have hloops : '\\' ∉ rs.flatMap Repetition.extended := fun h => by
    obtain ⟨r, -, hr⟩ := List.mem_flatMap.1 h
    exact not_mem_extended r hr
  obtain ⟨c, t, hsplit⟩ : ∃ c t, rs.flatMap Repetition.extended = c :: t := by
    cases rs with
    | nil => exact absurd rfl hrs
    | cons r rs => cases r <;> exact ⟨_, _, rfl⟩
  have hlast := not_mem_extended last
  rw [hsplit] at hloops ⊢
  have hopen : beginsReference ('(' :: (u ++ (c :: t ++ ')' :: last.extended))) = false := by
    simp [beginsReference]
  have hbefore (w : Text) : unescapedAfter (w ++ ['(']) = unescapedAfter (w ++ []) := by
    obtain - | ⟨d, - | ⟨e, w⟩⟩ := w
    · rfl
    · by_cases hd : d = '\\'
      · rw [hd]
        rfl
      · simp [unescapedAfter, hd]
    · by_cases hd : d = '\\'
      · rw [hd]
        rfl
      · simp [unescapedAfter, hd]
  rw [refersBack, refersBack, anywhereUnescaped, hopen, Bool.and_false, Bool.false_or]
  refine anywhere_reference_append ?_ ?_ u hbefore
  · simpa [hlast] using hloops
  · simpa [hlast] using hloops

/-- Without a reference, what means more than plain text is searched for by the library for
patterns without references. -/
lemma engine_of_needsTree [Library] {options : Options} {pattern : Text} {engine : Engine}
    (hneeds : needsTree pattern = true) (hrefers : refersBack pattern = false)
    (h : Engine.ofText? options pattern = some engine) :
    ∃ m, Library.standard? (options.flags ++ pattern) = some m ∧ engine = .standard m := by
  rw [Engine.ofText?, hneeds, hrefers] at h
  simp only [Bool.not_true, Bool.and_false, Bool.false_and, Bool.false_eq_true, if_false] at h
  obtain ⟨m, hm, rfl⟩ := Option.map_eq_some_iff.1 h
  exact ⟨m, hm, rfl⟩

/-- What so many of the matches cover depends on what all of them cover. -/
lemma allMatches_of_spans {m m' : Standard} {t : Text}
    (h : (m'.captures t).map Match.span = (m.captures t).map Match.span) (source source' : Text)
    (limit : Option ℕ) :
    (allMatches ⟨source', .standard m'⟩ limit t).map (List.map Match.span) id =
      (allMatches ⟨source, .standard m⟩ limit t).map (List.map Match.span) id := by
  cases limit with
  | none => exact Prod.ext h rfl
  | some n =>
      refine Prod.ext ?_ ?_
      · change ((m'.captures t).take n).map _ = ((m.captures t).take n).map _
        rw [List.map_take, List.map_take, h]
      · change (if n ≤ (m'.captures t).length then none else none) = ite _ none none
        rw [ite_self, ite_self]

/-! ### Repetitions of repetitions -/

/-- What becomes of a repetition of something repeated, and of one of the group that is made of
it. -/
lemma toExtended_stacked {operand : Text} (h : Repeatable operand) :
    ∃ u, Lexeme.Operand u ∧ ∀ (rs : List Repetition) (last : Repetition), rs ≠ [] →
      toExtended (stacked operand rs last) =
          u ++ (rs.flatMap Repetition.extended ++ last.extended) ∧
        toExtended (nested operand rs last) =
          '(' :: (u ++ (rs.flatMap Repetition.extended ++ ')' :: last.extended)) := by
  obtain ⟨u, hu, hconvert⟩ := h.operand
  refine ⟨u, hu, fun rs last hrs => ?_⟩
  have hlast : convertAll 0 .inside last.basic = last.extended := by
    simpa [convertAll] using convertAll_repetition last []
  constructor
  · rw [toExtended, stacked, hconvert _ (atEnd_repetitions hrs _), convertAll_repetitions, hlast]
  · rw [toExtended, nested, convertAll_openGroup, hconvert _ (atEnd_repetitions hrs _),
      convertAll_repetitions, convertAll_closeGroup, hlast]

/-- A repetition of something repeated covers what the same repetition covers after the group that
is made of what stands before it, unless it is a question mark that marks the last one in there. -/
theorem allMatches_stacked {library : Library} {sem : Semantics} (hlibrary : library.Means sem)
    {options : Options} (hbasic : options.extended = false) {operand : Text}
    (h : Repeatable operand) {rs : List Repetition} (hrs : rs ≠ []) {last : Repetition}
    (hmark : takesMark rs = true → last ≠ .optional)
    (hrefers : refersBack (toExtended (stacked operand rs last)) = false) {re re' : Regex}
    (hre : compile? options (stacked operand rs last) = some re)
    (hre' : compile? options (nested operand rs last) = some re') (limit : Option ℕ) (text : Text) :
    (re'.allMatches limit text).map (List.map Match.span) id =
      (re.allMatches limit text).map (List.map Match.span) id := by
  obtain ⟨u, hu, hextended⟩ := toExtended_stacked h
  obtain ⟨hstacked, hnested⟩ := hextended rs last hrs
  simp only [compile?, hbasic, Bool.false_eq_true, if_false, hstacked, hnested] at hre hre' hrefers
  obtain ⟨engine, hengine, rfl⟩ := Option.map_eq_some_iff.1 hre
  obtain ⟨engine', hengine', rfl⟩ := Option.map_eq_some_iff.1 hre'
  have hneeds : needsTree ('(' :: (u ++ (rs.flatMap Repetition.extended ++ ')' :: last.extended))) =
      true := rfl
  obtain ⟨m, hm, rfl⟩ :=
    engine_of_needsTree (needsTree_repetitions hu hrs _) hrefers hengine
  obtain ⟨m', hm', rfl⟩ :=
    engine_of_needsTree hneeds ((refersBack_group u hrs last).trans hrefers) hengine'
  -- What is repeated last, which may stand in a group.
  let e := rs.foldl Repeated.push (.operand u)
  have he : e.Sound := Repeated.Sound.foldl rs (show (Repeated.operand u).Sound from hu)
  have hopen : e.isOpen = true → last ≠ .optional := fun h =>
    hmark ((Repeated.isOpen_foldl (.operand u) rs).symm.trans h)
  have htext : e.text = u ++ rs.flatMap Repetition.extended := Repeated.text_foldl (.operand u) rs
  have hspans := hlibrary options (e := .times e last true) (m := m) ⟨he, hopen⟩
    (by simpa [Repeated.text, htext] using hm)
  have hspans' := hlibrary options (e := .times (.group e) last true) (m := m')
    ⟨he, by simp [Repeated.isOpen]⟩ (by simpa [Repeated.text, htext] using hm')
  exact allMatches_of_spans ((hspans' text).trans (hspans text).symm) _ _ limit

/-- A letter that is repeated, and that once or twice. -/
theorem allMatches_stacked_twice :
    Library.builtin.Means Tree.semantics ∧ ∃ re re',
      compile? ⟨false, false, false⟩ (stacked ['a'] [.some] (.between 1 2)) = some re ∧
      compile? ⟨false, false, false⟩ (nested ['a'] [.some] (.between 1 2)) = some re' ∧
      (re'.allMatches none ['a', 'a', 'b', 'a']).map (List.map Match.span) id =
        (re.allMatches none ['a', 'a', 'b', 'a']).map (List.map Match.span) id ∧
      (re.allMatches none ['a', 'a', 'b', 'a']).1.map Match.span = [(0, 2), (3, 4)] := by
  obtain ⟨re, hre⟩ : ∃ re,
      compile? ⟨false, false, false⟩ (stacked ['a'] [.some] (.between 1 2)) = some re := ⟨_, rfl⟩
  obtain ⟨re', hre'⟩ : ∃ re',
      compile? ⟨false, false, false⟩ (nested ['a'] [.some] (.between 1 2)) = some re' := ⟨_, rfl⟩
  refine ⟨Library.means_builtin, re, re', hre, hre', ?_, ?_⟩
  · exact allMatches_stacked Library.means_builtin rfl (.char (by decide)) (List.cons_ne_nil _ _)
      (by simp) rfl hre hre' none _
  · obtain rfl := Option.some.inj hre
    rfl

/-- A question mark behind an asterisk makes it prefer to be short, so that the letters are not
matched, which the same question mark behind the group matches at once. -/
theorem allMatches_stacked_lazy :
    takesMark [.any] = true ∧ ∃ re re',
      compile? ⟨false, false, false⟩ (stacked ['a'] [.any] .optional) = some re ∧
      compile? ⟨false, false, false⟩ (nested ['a'] [.any] .optional) = some re' ∧
      (re.allMatches none ['a', 'a']).1.map Match.span = [(0, 0), (1, 1), (2, 2)] ∧
      (re'.allMatches none ['a', 'a']).1.map Match.span = [(0, 2)] :=
  ⟨rfl, _, _, rfl, rfl, rfl, rfl⟩

end StreamEditor.Regex
