import StreamEditor.Program.Printer
import StreamEditor.Proofs.Parser.Substitution
import StreamEditor.Proofs.Program.Quoted
import StreamEditor.Proofs.Scanner.Measure

/-!
The printed forms of numbers, patterns, replacements and sets, read back.

* `Text.readDecimal_decimal`: a number.
* `Quoted.ReadsAs`: what is read of a piece of a field, whatever comes next.
* `Paired`, `Spelled`: what stands between two delimiters, and the source of a pattern;
  `Spelled.unescapePattern_eq` says that the pattern reader leaves such a source as it is.
* `Template.compile_scanned`: a template that was read from a script is read back from its
  printed form.
* `Text.escaped_alphanum`: a set of letters and digits is printed as it is.
-/

namespace StreamEditor

/-! ### Numbers -/

namespace Text

lemma isDigit_of_mem_decimal {n : ℕ} {c : Char} (h : c ∈ decimal n) : c.isDigit = true :=
  Nat.isDigit_of_mem_toDigits (by decide) le_rfl h

lemma decimal_ne_nil (n : ℕ) : decimal n ≠ [] := Nat.toDigits_ne_nil

lemma readDecimal_append (digits : Text) (c : Char) :
    readDecimal (digits ++ [c]) = readDecimal digits * 10 + (c.toNat - '0'.toNat) := by
  simp [readDecimal]

/-- A number is read back from its decimal form. -/
lemma readDecimal_decimal (n : ℕ) : readDecimal (decimal n) = n := by
  have hdigit : ∀ d < 10, (Nat.digitChar d).toNat - '0'.toNat = d := by decide
  induction n using Nat.strongRecOn with
  | _ n ih =>
      by_cases hn : n < 10
      · rw [decimal, Nat.toDigits_of_lt_base hn]
        simpa [readDecimal] using hdigit n hn
      · have hsplit : decimal n = decimal (n / 10) ++ [(n % 10).digitChar] :=
          Nat.toDigits_of_base_le (by decide) (Nat.le_of_not_lt hn)
        rw [hsplit, readDecimal_append, ih (n / 10) (by omega), hdigit _ (Nat.mod_lt _ (by decide))]
        omega

end Text

/-! ### What is read up to the slash -/

namespace Quoted

/-- A piece of a field is read as a piece of text, whatever comes next. -/
def ReadsAs (quoted text : Text) : Prop :=
  ∀ passed rest, Cursor.readUntil (· = '/') passed (quoted ++ rest) =
    readOn text quoted passed rest

variable {quoted quoted' text text' : Text} {c : Char}

lemma readsAs_nil : ReadsAs [] [] := fun _ _ => rfl

lemma ReadsAs.append (h : ReadsAs quoted text) (h' : ReadsAs quoted' text') :
    ReadsAs (quoted ++ quoted') (text ++ text') := by
  intro passed rest
  rw [List.append_assoc, h, readOn, h', readOn, readOn, List.reverse_append, List.append_assoc]
  simp only [List.append_assoc]

lemma readsAs_bare (hbackslash : c ≠ '\\') (hslash : c ≠ '/') : ReadsAs [c] [c] :=
  readUntil_bare hbackslash hslash

lemma readsAs_escaped (c : Char) :
    ReadsAs ['\\', c] (if c = '/' ∨ c = '\n' then [c] else ['\\', c]) :=
  readUntil_escaped c

lemma readsAs_flatMap {α : Type} {f g : α → Text} {l : List α}
    (h : ∀ a ∈ l, ReadsAs (f a) (g a)) : ReadsAs (l.flatMap f) (l.flatMap g) := by
  induction l with
  | nil => exact readsAs_nil
  | cons a l ih =>
      rw [List.flatMap_cons, List.flatMap_cons]
      rw [List.forall_mem_cons] at h
      exact h.1.append (ih h.2)

/-- Characters that mean nothing to the reader are read as they are. -/
lemma readsAs_self (h : ∀ c ∈ text, c ≠ '\\' ∧ c ≠ '/') : ReadsAs text text := by
  have hchars := readsAs_flatMap (f := fun c => [c]) (g := fun c => [c])
    fun c hc => readsAs_bare (h c hc).1 (h c hc).2
  simpa using hchars

/-- The slash ends the field. -/
lemma ReadsAs.fieldReads (h : ReadsAs quoted text) : Scanner.FieldReads quoted text := by
  intro passed rest
  have hslash : Cursor.readUntil (· = '/') (quoted.reverse ++ passed) ('/' :: rest) =
      ([], true, ⟨quoted.reverse ++ passed, '/' :: rest⟩) := by
    rw [Cursor.readUntil_cons (by decide)]
    rfl
  rw [h, readOn, hslash]
  simp only [List.append_nil]

end Quoted

/-! ### Patterns -/

/-- Characters and escapes, of which none is the escape of a newline. -/
inductive Paired : Text → Prop
  | nil : Paired []
  | bare {c : Char} {t : Text} (hc : c ≠ '\\') : Paired t → Paired (c :: t)
  | escape {c : Char} {t : Text} (hc : c ≠ '\n') : Paired t → Paired ('\\' :: c :: t)

/-- What is read up to a delimiter consists of characters and escapes. -/
lemma paired_readUntil {stop : Char → Bool} (hstop : stop '\\' = false) {passed ahead : Text}
    (hfound : (Cursor.readUntil stop passed ahead).2.1 = true) :
    Paired (Cursor.readUntil stop passed ahead).1 := by
  fun_induction Cursor.readUntil stop passed ahead with
  | case1 | case2 => cases hfound
  | case3 passed next rest text found after hread hremoved ih =>
      rw [hread] at ih
      refine .bare ?_ (ih hfound)
      rintro rfl
      rw [hstop] at hremoved
      exact absurd hremoved (by decide)
  | case4 passed next rest text found after hread hkept ih =>
      rw [hread] at ih
      refine .escape ?_ (ih hfound)
      rintro rfl
      exact hkept (by simp)
  | case5 passed c rest hone hpair hc => exact .nil
  | case6 passed c rest hone hpair hc text found after hread ih =>
      rw [hread] at ih
      exact .bare (Cursor.ne_backslash hone hpair) (ih hfound)

/-- Characters and escapes, of which none stands for another character. -/
inductive Spelled : Text → Prop
  | nil : Spelled []
  | bare {c : Char} {t : Text} (hc : c ≠ '\\') : Spelled t → Spelled (c :: t)
  | escape {c : Char} {t : Text} (hn : c ≠ 'n') (ht : c ≠ 't') (hnewline : c ≠ '\n') :
      Spelled t → Spelled ('\\' :: c :: t)

/-- In the source of a pattern no escape stands for another character. -/
lemma Paired.spelled {t : Text} (h : Paired t) : Spelled (unescapePattern t) := by
  induction h with
  | nil => exact .nil
  | bare hc _ ih =>
      rw [Quoted.unescapePattern_bare hc]
      exact .bare hc ih
  | @escape c t hc _ ih =>
      by_cases hn : c = 'n'
      · subst hn
        have hnewline : unescapePattern ('\\' :: 'n' :: t) = '\n' :: unescapePattern t := rfl
        rw [hnewline]
        exact .bare (by decide) ih
      by_cases ht : c = 't'
      · subst ht
        have htab : unescapePattern ('\\' :: 't' :: t) = '\t' :: unescapePattern t := rfl
        rw [htab]
        exact .bare (by decide) ih
      rw [Quoted.unescapePattern_escaped hn ht]
      exact .escape hn ht hc ih

lemma Spelled.unescapePattern_eq {t : Text} (h : Spelled t) : unescapePattern t = t := by
  induction h with
  | nil => rfl
  | bare hc _ ih => rw [Quoted.unescapePattern_bare hc, ih]
  | escape hn ht _ _ ih => rw [Quoted.unescapePattern_escaped hn ht, ih]

/-- Between slashes the source of a pattern is read as it is. -/
lemma Spelled.readsAs {t : Text} (h : Spelled t) (hslash : '/' ∉ t) : Quoted.ReadsAs t t := by
  induction h with
  | nil => exact Quoted.readsAs_nil
  | @bare c t hc _ ih =>
      rw [List.mem_cons, not_or] at hslash
      exact (Quoted.readsAs_bare hc (Ne.symm hslash.1)).append (ih hslash.2)
  | @escape c t _ _ hnewline _ ih =>
      simp only [List.mem_cons, not_or] at hslash
      have hpair := Quoted.readsAs_escaped c
      rw [if_neg (not_or.2 ⟨Ne.symm hslash.2.1, hnewline⟩)] at hpair
      exact hpair.append (ih hslash.2.2)

lemma Paired.unescapePattern_ne_nil {t : Text} (h : Paired t) (ht : t ≠ []) :
    unescapePattern t ≠ [] := by
  cases h with
  | nil => exact absurd rfl ht
  | bare hc _ =>
      rw [Quoted.unescapePattern_bare hc]
      exact List.cons_ne_nil _ _
  | @escape c t _ _ =>
      by_cases hn : c = 'n'
      · subst hn
        exact List.cons_ne_nil _ _
      by_cases ht : c = 't'
      · subst ht
        exact List.cons_ne_nil _ _
      rw [Quoted.unescapePattern_escaped hn ht]
      exact List.cons_ne_nil _ _

/-! ### Templates -/

namespace Template

/-- A part as it is read by itself: one character, the whole match or one group. -/
def Part.Single : Part → Prop
  | .literal t => ∃ c, t = [c]
  | .whole => True
  | .group n => 0 < n ∧ n < 10

/-- The single parts that make up a part. -/
def Part.singles : Part → List Part
  | .literal t => t.map fun c => .literal [c]
  | part => [part]

lemma Part.Single.singles_eq {part : Part} (h : part.Single) : part.singles = [part] := by
  cases part with
  | literal t =>
      obtain ⟨c, rfl⟩ := h
      rfl
  | whole | group => rfl

/-- Literals that meet are made up of the characters of both. -/
lemma flatMap_singles_cons (part : Part) (parts : List Part) :
    (Part.cons part parts).flatMap Part.singles = part.singles ++ parts.flatMap Part.singles := by
  unfold Part.cons
  split
  · simp [Part.singles]
  · rfl

/-- To join single parts and to take them apart again changes nothing. -/
lemma flatMap_singles_foldr {parts : List Part} (h : ∀ part ∈ parts, part.Single) :
    (parts.foldr Part.cons []).flatMap Part.singles = parts := by
  induction parts with
  | nil => rfl
  | cons part parts ih =>
      rw [List.forall_mem_cons] at h
      rw [List.foldr_cons, flatMap_singles_cons, ih h.2, h.1.singles_eq, List.singleton_append]

/-- A digit other than zero is the number of a group. -/
lemma group_of_isDigit {c : Char} (hc : c.isDigit = true) (hzero : c ≠ '0') :
    0 < c.toNat - '0'.toNat ∧ c.toNat - '0'.toNat < 10 := by
  simp only [Char.isDigit, Bool.and_eq_true, decide_eq_true_eq, ge_iff_le,
    UInt32.le_iff_toNat_le] at hc
  change 48 ≤ c.toNat ∧ c.toNat ≤ 57 at hc
  have hne : c.toNat ≠ 48 := fun h => hzero (Char.toNat_inj.1 h)
  change 0 < c.toNat - 48 ∧ c.toNat - 48 < 10
  omega

lemma single_ofEscape (rest : Text) : (Part.ofEscape rest).1.Single := by
  cases rest with
  | nil => exact ⟨'\\', rfl⟩
  | cons c rest =>
      rw [Part.ofEscape]
      split
      · trivial
      rename_i hzero
      split
      · rename_i hdigit
        exact group_of_isDigit hdigit hzero
      split
      · exact ⟨c, rfl⟩
      · cases escape? (c :: rest) with
        | none => exact ⟨c, rfl⟩
        | some found => exact ⟨found.1, rfl⟩

lemma single_of_mem_expand (n : ℕ) (t : Text) :
    ∀ part ∈ expand (fun c rest =>
      if c = '&' then ([Part.whole], 0)
      else if c = '\\' then
        let (part, used) := Part.ofEscape rest
        ([part], used)
      else ([.literal [c]], 0)) n t, part.Single := by
  induction t generalizing n with
  | nil => cases n <;> simp [expand]
  | cons c rest ih =>
      cases n with
      | succ n => exact ih n
      | zero =>
          rw [expand, List.forall_mem_append]
          refine ⟨?_, ih _⟩
          split
          · simp [Part.Single]
          split
          · simpa using single_ofEscape rest
          · simp [Part.Single]

/-- A replacement is read in single parts. -/
lemma single_of_mem_pieces (t : Text) : ∀ part ∈ pieces t, part.Single :=
  single_of_mem_expand 0 t

/-- The single parts of a template that was read are those that were read. -/
lemma flatMap_singles_compile (t : Text) :
    (compile t).parts.flatMap Part.singles = pieces t :=
  flatMap_singles_foldr (single_of_mem_pieces t)

/-- What is read of a character of a literal up to the slash. -/
def Part.scannedChar (c : Char) : Text := if c = '/' then [c] else renderChar c

/-- What is read of a part up to the slash. -/
def Part.scanned : Part → Text
  | .literal t => t.flatMap scannedChar
  | part => part.render

/-- What is read of a template up to the slash. -/
def scanned (t : Template) : Text := t.parts.flatMap Part.scanned

lemma readsAs_renderChar (c : Char) :
    Quoted.ReadsAs (Part.renderChar c) (Part.scannedChar c) := by
  unfold Part.scannedChar Part.renderChar
  by_cases hslash : c = '/'
  · subst hslash
    exact Quoted.readsAs_escaped '/'
  rw [if_neg hslash]
  by_cases hsign : c = '\\' ∨ c = '&'
  · rcases hsign with rfl | rfl
    · exact Quoted.readsAs_escaped '\\'
    · exact Quoted.readsAs_escaped '&'
  obtain ⟨hbackslash, hwhole⟩ := not_or.1 hsign
  rw [if_neg (by simp [hbackslash, hwhole, hslash])]
  split
  · exact Quoted.readsAs_escaped 'n'
  · exact Quoted.readsAs_bare hbackslash hslash

/-- The groups of a template that was read are written with one digit. -/
lemma group_of_mem_compile {t : Text} {n : ℕ} (h : .group n ∈ (compile t).parts) :
    0 < n ∧ n < 10 := by
  have hmem : .group n ∈ pieces t := by
    rw [← flatMap_singles_compile]
    exact List.mem_flatMap.2 ⟨.group n, h, List.mem_singleton_self _⟩
  exact single_of_mem_pieces t _ hmem

lemma decimal_of_lt_ten {n : ℕ} (h : n < 10) : Text.decimal n = [n.digitChar] :=
  Nat.toDigits_of_lt_base h

/-- The printed form of a template that was read is read so up to the slash. -/
lemma fieldReads_render (t : Text) :
    Scanner.FieldReads (compile t).render (compile t).scanned := by
  refine (Quoted.readsAs_flatMap fun part hpart => ?_).fieldReads
  cases part with
  | literal u => exact Quoted.readsAs_flatMap fun c _ => readsAs_renderChar c
  | whole => exact Quoted.readsAs_bare (by decide) (by decide)
  | group n =>
      obtain ⟨-, hlt⟩ := group_of_mem_compile hpart
      have hdigit : ∀ d < 10, Nat.digitChar d ≠ '/' ∧ Nat.digitChar d ≠ '\n' := by decide
      have hpair := Quoted.readsAs_escaped n.digitChar
      rw [if_neg (not_or.2 (hdigit n hlt))] at hpair
      rw [← decimal_of_lt_ten hlt] at hpair
      exact hpair

lemma pieces_renderChar (c : Char) (rest : Text) :
    pieces (Part.renderChar c ++ rest) = .literal [c] :: pieces rest := by
  unfold Part.renderChar
  by_cases hsign : c = '\\' ∨ c = '&' ∨ c = '/'
  · rcases hsign with rfl | rfl | rfl <;> rfl
  simp only [not_or] at hsign
  obtain ⟨hbackslash, hwhole, hslash⟩ := hsign
  rw [if_neg (by simp [hbackslash, hwhole, hslash])]
  split
  · rename_i hnewline
    subst hnewline
    rfl
  · exact Quoted.pieces_bare hbackslash hwhole rest

lemma pieces_scannedChar (c : Char) (rest : Text) :
    pieces (Part.scannedChar c ++ rest) = .literal [c] :: pieces rest := by
  unfold Part.scannedChar
  split
  · rename_i hslash
    subst hslash
    rfl
  · exact pieces_renderChar c rest

/-- A literal is read by its characters, if each of them is written so that it is read by itself. -/
lemma pieces_literal {char : Char → Text}
    (hchar : ∀ c rest, pieces (char c ++ rest) = .literal [c] :: pieces rest) (t rest : Text) :
    pieces (t.flatMap char ++ rest) = (Part.literal t).singles ++ pieces rest := by
  rw [Part.singles]
  induction t with
  | nil => rfl
  | cons c t ih =>
      rw [List.flatMap_cons, List.append_assoc, hchar, ih]
      rfl

lemma pieces_group {n : ℕ} (hpos : 0 < n) (hlt : n < 10) (rest : Text) :
    pieces ((Part.group n).render ++ rest) = .group n :: pieces rest := by
  change pieces ('\\' :: Text.decimal n ++ rest) = .group n :: pieces rest
  rw [decimal_of_lt_ten hlt]
  interval_cases n <;> rfl

lemma pieces_scanned (part : Part) (h : ∀ n, part = .group n → 0 < n ∧ n < 10) (rest : Text) :
    pieces (part.scanned ++ rest) = part.singles ++ pieces rest := by
  cases part with
  | literal t => exact pieces_literal pieces_scannedChar t rest
  | whole => rfl
  | group n => exact pieces_group (h n rfl).1 (h n rfl).2 rest

/-- Parts are read one after the other, if each of them is written so that it is read by itself. -/
lemma pieces_flatMap {write : Part → Text} {parts : List Part}
    (h : ∀ part ∈ parts, ∀ rest, pieces (write part ++ rest) = part.singles ++ pieces rest) :
    pieces (parts.flatMap write) = parts.flatMap Part.singles := by
  induction parts with
  | nil => rfl
  | cons part parts ih =>
      rw [List.forall_mem_cons] at h
      rw [List.flatMap_cons, List.flatMap_cons, h.1, ih h.2]

/-- A template that was read is read back from its printed form. -/
lemma compile_scanned (t : Text) : compile (compile t).scanned = compile t := by
  have hpieces : pieces (compile t).scanned = pieces t := by
    rw [← flatMap_singles_compile t]
    refine pieces_flatMap fun part hpart rest => pieces_scanned part ?_ rest
    rintro n rfl
    exact group_of_mem_compile hpart
  rw [compile, hpieces, compile]

end Template

/-! ### Sets -/

/-- A set of letters and digits is printed as it is. -/
lemma Text.escaped_alphanum {t : Text} (h : ∀ c ∈ t, c.isAlphanum = true) : escaped t = t := by
  have hascii : ∀ n < 128, ∀ extenders : Bool, (Char.ofNat n).isAlphanum = true →
      Quoting.char ⟨['\'', '"'], extenders⟩ (Char.ofNat n) = [Char.ofNat n] := by decide +kernel
  have hchar : ∀ c : Char, c.isAlphanum = true → ∀ extenders,
      Quoting.char ⟨['\'', '"'], extenders⟩ c = [c] := by
    intro c hc extenders
    have hlt : c.toNat < 128 := by
      delta Char.isAlphanum Char.isAlpha Char.isUpper Char.isLower Char.isDigit at hc
      simp only [Bool.or_eq_true, Bool.and_eq_true, decide_eq_true_eq, UInt32.le_iff_toNat_le,
        ge_iff_le] at hc
      change ((65 ≤ c.toNat ∧ c.toNat ≤ 90) ∨ (97 ≤ c.toNat ∧ c.toNat ≤ 122)) ∨
        (48 ≤ c.toNat ∧ c.toNat ≤ 57) at hc
      omega
    have hof := hascii c.toNat hlt extenders
    rw [Char.ofNat_toNat] at hof
    exact hof hc
  cases t with
  | nil => rfl
  | cons c t =>
      rw [List.forall_mem_cons] at h
      have hrest : t.flatMap (Quoting.char ⟨['\'', '"'], false⟩) = t.flatMap fun c => [c] :=
        List.flatMap_congr fun d hd => hchar d (h.2 d hd) false
      rw [escaped, hchar c h.1, hrest, List.flatMap_singleton']
      rfl

end StreamEditor
