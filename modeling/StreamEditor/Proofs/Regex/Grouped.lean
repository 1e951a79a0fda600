import StreamEditor.Proofs.Regex.Balanced
import StreamEditor.Proofs.Regex.Enclosed

/-!
Texts of the extended notation that are read by themselves.

* `Lexeme.Flat`, `Lexeme.Quantifier`: the parts that are read by themselves, and repetitions.
* `Lexeme.Grouped`: texts in which each group that is opened is closed again; `Grouped.reads` says
  that they are read as balanced lexemes, whatever stands around them.
* `Lexeme.Operand`: texts that a repetition can follow; `Operand.reads` says that they are read as a
  single part.
-/

namespace StreamEditor.Regex

open BasicNotation

namespace Lexeme

/-! ### Parts of the extended notation -/

/-- The lexeme of what a backslash means. -/
def Escaped.lexeme (flags : Flags) : Escaped → Lexeme
  | char c => literal flags c
  | set s => .set s
  | look l => .look l

lemma read_escape (flags : Flags) (c : Char) (rest : Text) :
    read flags '\\' (c :: rest) =
      (escaped c rest).map fun found => (found.1.lexeme flags, found.2 + 1) := by
  change Option.map _ (escaped c rest) = _
  congr 1
  funext ⟨item, used⟩
  cases item <;> rfl

/-- True for the lexemes that are a part by themselves. -/
def isPart : Lexeme → Bool
  | .set _ | .look _ => true
  | _ => false

lemma isPart_lexeme {flags : Flags} (item : Escaped) : (item.lexeme flags).isPart = true := by
  cases item <;> rfl

lemma isFlat_of_isPart {l : Lexeme} (h : l.isPart = true) : l.isFlat = true := by
  cases l <;> first | rfl | cases h

lemma single_of_isPart {l : Lexeme} (h : l.isPart = true) : Single [l] := by
  cases l with
  | set s => exact .set s
  | look l => exact .look l
  | _ => cases h

/-- Texts that are read as one part, whatever comes behind them. -/
inductive Flat : Text → Prop
  | literal (c : Char) (hc : isExtendedSign c = false) : Flat [c]
  | sign (c : Char) (hc : c ∈ ['.', '^', '$', '}']) : Flat [c]
  | escape (c : Char) (hc : c ∉ ['x', 'u', 'U', 'b']) : Flat ['\\', c]
  | brackets (b : Brackets) (hb : b.Clear) : Flat ('[' :: b.extended)

/-- Texts that are read as a repetition. -/
inductive Quantifier : Text → Prop
  | sign (c : Char) (hc : c ∈ ['*', '+', '?']) : Quantifier [c]
  | braces (bounds : Text) (h : ∀ c ∈ bounds, c.isDigit = true ∨ c = ',') :
      Quantifier ('{' :: bounds ++ ['}'])

/-- Texts in which each group that is opened is closed again. -/
inductive Grouped : Text → Prop
  | nil : Grouped []
  | flat {u t : Text} (hu : Flat u) (h : Grouped t) : Grouped (u ++ t)
  | boundary {t : Text} (ht : t.head? ≠ some '{') (h : Grouped t) : Grouped ('\\' :: 'b' :: t)
  | bar {t : Text} (h : Grouped t) : Grouped ('|' :: t)
  | quantifier {u t : Text} (hu : Quantifier u) (h : Grouped t) : Grouped (u ++ t)
  | group {inner t : Text} (hinner : Grouped inner) (hfront : inner.head? ≠ some '?')
      (h : Grouped t) : Grouped ('(' :: (inner ++ ')' :: t))

/-- A part that is read by itself begins with no question mark. -/
lemma Flat.head?_ne {u : Text} (h : Flat u) (t : Text) : (u ++ t).head? ≠ some '?' := by
  cases h with
  | literal c hc =>
      intro hmark
      obtain rfl : c = '?' := by simpa using hmark
      cases hc
  | sign c hc => fin_cases hc <;> simp
  | escape | brackets => simp

/-- A repetition that begins with a question mark is one. -/
lemma Quantifier.eq_of_head? {u : Text} (h : Quantifier u) (t : Text)
    (hmark : (u ++ t).head? = some '?') : u = ['?'] := by
  cases h with
  | sign c hc => simpa using hmark
  | braces => simp at hmark

variable {flags : Flags} (hflags : flags.verbose = false)

lemma readAll_eq_drop (n : ℕ) (outer : List Flags) (t : Text) :
    readAll n flags outer t = readAll 0 flags outer (t.drop n) := by
  induction t generalizing n with
  | nil => cases n <;> rfl
  | cons c rest ih =>
      cases n with
      | zero => rfl
      | succ n => exact ih n

include hflags

/-- The lexeme at the front of a text, if it changes no flags. -/
lemma readAll_front {c : Char} {n : ℕ} {t : Text} {found : Option Lexeme} (outer : List Flags)
    (hfound : ∀ l ∈ found, l.isFlat = true) (hread : read flags c t = found.map (·, n)) :
    readAll 0 flags outer (c :: t) =
      found.bind fun l => (readAll 0 flags outer (t.drop n)).map (l :: ·) := by
  rw [readAll, hflags, hread]
  simp only [Bool.false_and, Bool.false_eq_true, if_false]
  cases found with
  | none => rfl
  | some l =>
      have hafter : flagsAfter flags outer l = (flags, outer) := by
        have hflat := hfound l rfl
        cases l <;> first | rfl | cases hflat
      simp only [Option.map_some, hafter, Option.bind_some]
      rw [readAll_eq_drop]

omit hflags in
/-- What a backslash means before characters that take in nothing of what follows. -/
lemma escaped_alone {c : Char} (hc : c ∉ ['x', 'u', 'U', 'b']) :
    ∃ found : Option Escaped, ∀ rest, escaped c rest = found.map (·, 0) := by
  refine ⟨(escaped c []).map (·.1), fun rest => ?_⟩
  simp only [List.mem_cons, List.not_mem_nil, or_false, not_or] at hc
  obtain ⟨hx, hu, hU, hb⟩ := hc
  rw [escaped.eq_def, escaped.eq_def c []]
  split
  · rfl
  · split <;> try first | contradiction | rfl
    split
    · rfl
    · cases Escape.letter? c <;> rfl

omit hflags in
/-- A character without a meaning of its own. -/
lemma read_plain {c : Char} (hc : isExtendedSign c = false) (rest : Text) :
    read flags c rest = some (literal flags c, 0) := by
  have hne : c ∉ ['\\', '.', '*', '[', '^', '$', '+', '?', '{', '}', '|', '(', ')'] :=
      fun hmem => by
    fin_cases hmem <;> cases hc
  simp only [List.mem_cons, List.not_mem_nil, or_false, not_or] at hne
  rw [read.eq_def]
  split <;> first | rfl | simp at hne

/-- A part that is read by itself. -/
lemma readAll_flat {t : Text} (h : Flat t) :
    ∃ found : Option Lexeme, (∀ l ∈ found, l.isPart = true) ∧ ∀ outer rest,
      readAll 0 flags outer (t ++ rest) =
        found.bind fun l => (readAll 0 flags outer rest).map (l :: ·) := by
  have hfront {c : Char} {u : Text} (found : Option Lexeme) (hfound : ∀ l ∈ found, l.isPart = true)
      (hread : ∀ rest, read flags c (u ++ rest) = found.map (·, u.length)) :
      ∃ found : Option Lexeme, (∀ l ∈ found, l.isPart = true) ∧ ∀ outer rest,
        readAll 0 flags outer (c :: u ++ rest) =
          found.bind fun l => (readAll 0 flags outer rest).map (l :: ·) :=
    ⟨found, hfound, fun outer rest => by
      rw [List.cons_append, readAll_front hflags outer (fun l hl => isFlat_of_isPart (hfound l hl))
        (hread rest), List.drop_left]⟩
  cases h with
  | literal c hc =>
      exact hfront (some (literal flags c)) (by simp [literal, isPart]) fun rest =>
        read_plain hc rest
  | sign c hc =>
      fin_cases hc
      · exact hfront (some _) (by simp [isPart]) fun rest => rfl
      · exact hfront (some _) (by simp [isPart]) fun rest => rfl
      · exact hfront (some _) (by simp [isPart]) fun rest => rfl
      · exact hfront (some (literal flags '}')) (by simp [literal, isPart]) fun rest => rfl
  | escape c hc =>
      obtain ⟨found, hfound⟩ := escaped_alone hc
      refine hfront (found.map (Escaped.lexeme flags)) (fun l hl => ?_) fun rest => ?_
      · obtain ⟨item, -, rfl⟩ := Option.map_eq_some_iff.1 hl
        exact isPart_lexeme item
      · rw [List.singleton_append, read_escape, hfound, Option.map_map, Option.map_map]
        rfl
  | brackets b hb =>
      obtain ⟨found, hfound⟩ := whole_brackets hflags hb
      refine hfront (found.map .set) (by simp [isPart]) fun rest => ?_
      have hread : read flags '[' (b.extended ++ rest) =
          (bracket flags (b.extended ++ rest)).map fun found => (.set found.1, found.2) := rfl
      rw [hread, hfound, Option.map_map, Option.map_map]
      rfl

/-! ### Repetitions -/

omit hflags in
/-- Neither digits nor commas, nor the brace that closes, are white space. -/
lemma takeWhile_isSpace {u : Text} (hu : ∀ c ∈ u, c.isDigit = true ∨ c = ',') (rest : Text) :
    (u ++ '}' :: rest).takeWhile Text.isSpace = [] := by
  cases u with
  | nil => rfl
  | cons c u =>
      have hc : Text.isSpace c = false := by
        obtain hc | rfl := hu c (by simp)
        · have hlow : 48 ≤ c.toNat ∧ c.toNat ≤ 57 := by
            simpa [Char.isDigit, UInt32.le_iff_toNat_le] using hc
          simp only [Text.isSpace, Text.spaceRanges, Text.inRanges]
          simp
          omega
        · rfl
      rw [List.cons_append, List.takeWhile_cons, hc]
      rfl

omit hflags in
/-- A number among digits and commas before a brace that closes. -/
lemma count_digits {u : Text} (hu : ∀ c ∈ u, c.isDigit = true ∨ c = ',') :
    ∃ found : Option (ℕ × ℕ), (∀ b ∈ found, b.2 ≤ u.length) ∧
      ∀ rest, count (u ++ '}' :: rest) = found := by
  have hdigits (rest : Text) : (u ++ '}' :: rest).takeWhile Char.isDigit =
      u.takeWhile Char.isDigit := by
    rw [List.takeWhile_append]
    split
    · rename_i hall
      rw [(List.takeWhile_prefix _).eq_of_length hall]
      exact List.append_nil u
    · rfl
  have hle : (u.takeWhile Char.isDigit).length ≤ u.length := (List.takeWhile_prefix _).length_le
  have hafter (rest : Text) : ((u ++ '}' :: rest).drop (u.takeWhile Char.isDigit).length).takeWhile
      Text.isSpace = [] := by
    rw [List.drop_append_of_le_length hle]
    exact takeWhile_isSpace (fun c hc => hu c (List.mem_of_mem_drop hc)) rest
  refine ⟨if (u.takeWhile Char.isDigit).isEmpty ||
      Text.readDecimal (u.takeWhile Char.isDigit) ≥ Nat.pow 2 32 then none
    else some (Text.readDecimal (u.takeWhile Char.isDigit), (u.takeWhile Char.isDigit).length),
    fun b hb => ?_, fun rest => ?_⟩
  · split at hb
    · cases hb
    · obtain rfl := Option.some.inj hb
      exact hle
  · simp only [count, takeWhile_isSpace hu, hdigits, List.length_nil, List.drop_zero, hafter,
      Nat.zero_add, Nat.add_zero]

omit hflags in
/-- Behind digits and commas stands the brace that closes. -/
lemma head_drop_brace {u : Text} (hu : ∀ c ∈ u, c.isDigit = true ∨ c = ',') {n : ℕ}
    (hn : n ≤ u.length) (rest : Text) :
    ((u ++ '}' :: rest).drop n).head? = some '}' ↔ n = u.length := by
  rw [List.drop_append_of_le_length hn]
  have hlength := List.length_drop (i := n) (l := u)
  cases hlast : u.drop n with
  | nil =>
      rw [hlast, List.length_nil] at hlength
      simp
      omega
  | cons c v =>
      rw [hlast, List.length_cons] at hlength
      have hc : c ≠ '}' := by
        rintro rfl
        simpa using hu '}' (List.mem_of_mem_drop (hlast ▸ List.mem_cons_self))
      simp [hc]
      omega

section Bounds

variable {t rest : Text} {least used : ℕ} {c : Char} (hcount : count t = some (least, used))

omit hflags

include hcount

lemma bounds_of_brace (hdrop : t.drop used = '}' :: rest) :
    bounds t = some (least, some least, used + 1) := by
  simp only [bounds, hcount, hdrop]

lemma bounds_of_comma_brace (hdrop : t.drop used = ',' :: '}' :: rest) :
    bounds t = some (least, none, used + 2) := by
  simp only [bounds, hcount, hdrop]

lemma bounds_of_comma (hdrop : t.drop used = ',' :: c :: rest) (hc : c ≠ '}') :
    bounds t = (count (c :: rest)).bind fun b =>
      if ((c :: rest).drop b.2).head? = some '}' ∧ least ≤ b.1 then
        some (least, some b.1, used + b.2 + 2)
      else none := by
  simp only [bounds, hcount, hdrop]
  cases hmost : count (c :: rest) with
  | none | some => simp [hc, hmost]

lemma bounds_of_ne (hdrop : t.drop used = c :: rest) (hbrace : c ≠ '}') (hcomma : c ≠ ',') :
    bounds t = none := by
  simp [bounds, hcount, hdrop, hbrace, hcomma]

end Bounds

omit hflags in
/-- The bounds of a repetition, up to the brace that closes. -/
lemma bounds_digits {u : Text} (hu : ∀ c ∈ u, c.isDigit = true ∨ c = ',') :
    ∃ found : Option (ℕ × Option ℕ), ∀ rest,
      bounds (u ++ '}' :: rest) = found.map fun b => (b.1, b.2, u.length + 1) := by
  have hbrace {c : Char} (hc : c ∈ u) : c ≠ '}' := by
    rintro rfl
    simpa using hu '}' hc
  obtain ⟨first, hfirst, hcount⟩ := count_digits hu
  cases first with
  | none => exact ⟨none, fun rest => by rw [bounds, hcount]; rfl⟩
  | some b =>
      obtain ⟨least, used⟩ := b
      have hused : used ≤ u.length := hfirst _ rfl
      have hdrop (rest : Text) : (u ++ '}' :: rest).drop used = u.drop used ++ '}' :: rest :=
        List.drop_append_of_le_length hused
      have hlength : u.length = used + (u.drop used).length := by
        rw [List.length_drop]
        omega
      have hmem : ∀ c ∈ u.drop used, c ∈ u := fun c => List.mem_of_mem_drop
      -- Behind the first number are the brace, a comma and the brace, or a comma and a number.
      rw [hlength]
      rcases hbehind : u.drop used with _ | ⟨c, v⟩ <;> rw [hbehind] at hdrop hmem
      · exact ⟨some (least, some least), fun rest => bounds_of_brace (hcount rest) (hdrop rest)⟩
      · by_cases hc : c = ','
        · subst hc
          obtain - | ⟨d, v⟩ := v
          · exact ⟨some (least, none), fun rest =>
              bounds_of_comma_brace (hcount rest) (hdrop rest)⟩
          · have hv : ∀ c ∈ d :: v, c ∈ u := fun c hc => hmem c (List.mem_cons_of_mem _ hc)
            obtain ⟨second, hsecond, hcount'⟩ := count_digits fun c hc => hu c (hv c hc)
            have hdrop' (rest : Text) :
                (u ++ '}' :: rest).drop used = ',' :: d :: (v ++ '}' :: rest) := hdrop rest
            refine ⟨second.bind fun b =>
              if b.2 = (d :: v).length ∧ least ≤ b.1 then some (least, some b.1) else none,
              fun rest => ?_⟩
            rw [bounds_of_comma (hcount rest) (hdrop' rest) (hbrace (hv d List.mem_cons_self)),
              show count (d :: (v ++ '}' :: rest)) = second from hcount' rest]
            cases second with
            | none => rfl
            | some b =>
                have hclosed := head_drop_brace (fun c hc => hu c (hv c hc)) (hsecond b rfl) rest
                rw [List.cons_append] at hclosed
                simp only [Option.bind_some, hclosed]
                split
                · rename_i hboth
                  simp [hboth.1]
                  omega
                · rfl
        · exact ⟨none, fun rest =>
            bounds_of_ne (hcount rest) (hdrop rest) (hbrace (hmem c List.mem_cons_self)) hc⟩

omit hflags in
/-- A repetition prefers to be short if a question mark comes behind it, which belongs to it
then. -/
lemma readAll_quantifier {u : Text} (h : Quantifier u) :
    ∃ found : Option (ℕ × Option ℕ), ∀ flags : Flags, flags.verbose = false → ∀ outer rest,
      readAll 0 flags outer (u ++ rest) = found.bind fun b =>
        if rest.head? = some '?' then
          (readAll 1 flags outer rest).map (.loop b.1 b.2 flags.swapGreed :: ·)
        else (readAll 0 flags outer rest).map (.loop b.1 b.2 (!flags.swapGreed) :: ·) := by
  obtain ⟨c, u, found, rfl, hread⟩ : ∃ c u', ∃ found : Option (ℕ × Option ℕ), u = c :: u' ∧
      ∀ (flags : Flags) rest, read flags c (u' ++ rest) =
        found.map fun b => repetition flags b.1 b.2 u'.length (u' ++ rest) := by
    cases h with
    | sign c hc =>
        fin_cases hc
        · exact ⟨'*', [], some (0, none), rfl, fun flags rest => rfl⟩
        · exact ⟨'+', [], some (1, none), rfl, fun flags rest => rfl⟩
        · exact ⟨'?', [], some (0, some 1), rfl, fun flags rest => rfl⟩
    | braces u hu =>
        obtain ⟨found, hfound⟩ := bounds_digits hu
        refine ⟨'{', u ++ ['}'], found, rfl, fun flags rest => ?_⟩
        have hread : read flags '{' (u ++ ['}'] ++ rest) =
            (bounds (u ++ '}' :: rest)).map fun b =>
              repetition flags b.1 b.2.1 b.2.2 (u ++ '}' :: rest) := by
          rw [List.append_assoc, List.singleton_append]
          rfl
        rw [hread, hfound, Option.map_map]
        simp [Function.comp_def]
  refine ⟨found, fun flags hflags outer rest => ?_⟩
  have hflat (greedy : Bool) : ∀ l ∈ found.map fun b => Lexeme.loop b.1 b.2 greedy,
      l.isFlat = true := fun l hl => by
    obtain ⟨b, -, rfl⟩ := Option.map_eq_some_iff.1 hl
    rfl
  have hread' := hread flags rest
  simp only [repetition, List.drop_left] at hread'
  by_cases hmark : rest.head? = some '?'
  · simp only [hmark, if_true] at hread' ⊢
    have hlexeme : read flags c (u ++ rest) =
        (found.map fun b => Lexeme.loop b.1 b.2 flags.swapGreed).map (·, u.length + 1) := by
      rw [hread', Option.map_map]
      rfl
    rw [List.cons_append, readAll_front hflags outer (hflat _) hlexeme, Option.bind_map,
      List.drop_length_add_append, readAll_eq_drop 1]
    rfl
  · simp only [hmark, if_false] at hread' ⊢
    have hlexeme : read flags c (u ++ rest) =
        (found.map fun b => Lexeme.loop b.1 b.2 !flags.swapGreed).map (·, u.length) := by
      rw [hread', Option.map_map]
      rfl
    rw [List.cons_append, readAll_front hflags outer (hflat _) hlexeme, Option.bind_map,
      List.drop_left]
    rfl

/-! ### Groups -/

/-- A word boundary that no brace qualifies. -/
lemma readAll_boundary (outer : List Flags) {t : Text} (ht : t.head? ≠ some '{') :
    readAll 0 flags outer ('\\' :: 'b' :: t) =
      (readAll 0 flags outer t).map (.look .wordBoundary :: ·) := by
  have hboundary : boundary t = some (.wordBoundary, 0) := by
    rw [boundary.eq_def]
    split <;> simp_all
  have hread : read flags '\\' ('b' :: t) = (some (Lexeme.look .wordBoundary)).map (·, 1) := by
    have hescaped : escaped 'b' t = (boundary t).map fun found => (.look found.1, found.2) := rfl
    rw [read_escape, hescaped, hboundary]
    rfl
  rw [readAll_front hflags outer (by simp [isFlat]) hread]
  rfl

omit hflags in
lemma head?_append_ne {t rest : Text} {c : Char} (ht : t.head? ≠ some c)
    (hrest : rest.head? ≠ some c) :
    (t ++ rest).head? ≠ some c := by
  cases t with
  | nil => exact hrest
  | cons d t => exact ht

/-- An opening parenthesis without a question mark behind it. -/
lemma readAll_open (outer : List Flags) {t : Text} (ht : t.head? ≠ some '?') :
    readAll 0 flags outer ('(' :: t) =
      (readAll 0 flags (flags :: outer) t).map (.openGroup none :: ·) := by
  have hopen : openParen flags t = some (.openGroup none, 0) := by
    rw [openParen.eq_def]
    split <;> simp_all
  have hread : read flags '(' t = some (.openGroup none, 0) := hopen
  rw [readAll, hflags, hread]
  rfl

/-- A parenthesis that closes a group in which the flags were not changed. -/
lemma readAll_close (outer : List Flags) (t : Text) :
    readAll 0 flags (flags :: outer) (')' :: t) = (readAll 0 flags outer t).map (.close :: ·) := by
  have hread : read flags ')' t = some (.close, 0) := rfl
  rw [readAll, hflags, hread]
  rfl

omit hflags in
/-- A text is read as balanced lexemes, the same whatever stands around it, if what comes behind
belongs to nothing in it. -/
def ReadsBalanced (flags : Flags) (n : ℕ) (t : Text) : Prop :=
  ∃ found : Option (List Lexeme), (∀ ls ∈ found, Balanced ls) ∧ ∀ outer rest,
    rest.head? ≠ some '?' → rest.head? ≠ some '{' → readAll n flags outer (t ++ rest) =
      found.bind fun ls => (readAll 0 flags outer rest).map (ls ++ ·)

omit hflags in
lemma ReadsBalanced.nil : ReadsBalanced flags 0 [] :=
  ⟨some [], by simp [Balanced.nil], fun outer rest _ _ => by simp⟩

omit hflags in
/-- A part at the front. -/
lemma ReadsBalanced.cons {n m : ℕ} {u t : Text} (h : ReadsBalanced flags m t)
    (found : Option Lexeme) (hfound : ∀ l ∈ found, l.isFlat = true)
    (hfront : ∀ outer rest, rest.head? ≠ some '?' → rest.head? ≠ some '{' →
      readAll n flags outer (u ++ (t ++ rest)) =
        found.bind fun l => (readAll m flags outer (t ++ rest)).map (l :: ·)) :
    ReadsBalanced flags n (u ++ t) := by
  obtain ⟨others, hothers, hreads⟩ := h
  refine ⟨found.bind fun l => others.map (l :: ·), fun ls hls => ?_,
    fun outer rest hmark hbrace => ?_⟩
  · obtain ⟨l, hl, hmap⟩ := Option.bind_eq_some_iff.1 hls
    obtain ⟨ls', hls', rfl⟩ := Option.map_eq_some_iff.1 hmap
    exact .cons (hfound l hl) (hothers ls' hls')
  · rw [List.append_assoc, hfront outer rest hmark hbrace, hreads outer rest hmark hbrace]
    cases found <;> cases others <;> simp [Option.map_map, Function.comp_def]

/-- A group at the front. -/
lemma ReadsBalanced.group {inner t : Text} (hinner : ReadsBalanced flags 0 inner)
    (hfront : inner.head? ≠ some '?') (h : ReadsBalanced flags 0 t) :
    ReadsBalanced flags 0 ('(' :: (inner ++ ')' :: t)) := by
  obtain ⟨found, hfound, hread⟩ := hinner
  obtain ⟨others, hothers, hrest⟩ := h
  refine ⟨found.bind fun ls => others.map fun ls' => .openGroup none :: (ls ++ .close :: ls'),
    fun ls hls => ?_, fun outer rest hmark hbrace => ?_⟩
  · obtain ⟨inside, hinside, hmap⟩ := Option.bind_eq_some_iff.1 hls
    obtain ⟨behind, hbehind, rfl⟩ := Option.map_eq_some_iff.1 hmap
    exact .group (hfound inside hinside) (hothers behind hbehind)
  · have hfront' : (inner ++ ')' :: (t ++ rest)).head? ≠ some '?' :=
      head?_append_ne hfront (by simp)
    have happend : '(' :: (inner ++ ')' :: t) ++ rest = '(' ::
        (inner ++ ')' :: (t ++ rest)) := by
      simp
    rw [happend, readAll_open hflags outer hfront', hread _ _ (by simp) (by simp),
      readAll_close hflags, hrest outer rest hmark hbrace]
    cases found <;> cases others <;> simp [Option.map_map, Function.comp_def]

/-- A quantifier at the front. A question mark behind it belongs to it. -/
lemma ReadsBalanced.quantifier {u t : Text} (hu : Quantifier u)
    (hmarked : t.head? = some '?' → ReadsBalanced flags 1 t) (h : ReadsBalanced flags 0 t) :
    ReadsBalanced flags 0 (u ++ t) := by
  obtain ⟨b, hfront⟩ := readAll_quantifier hu
  have hfront := hfront flags hflags
  have hflat (greedy : Bool) : ∀ l ∈ b.map fun b => Lexeme.loop b.1 b.2 greedy,
      l.isFlat = true := fun l hl => by
    obtain ⟨b, -, rfl⟩ := Option.map_eq_some_iff.1 hl
    rfl
  by_cases hmark : t.head? = some '?'
  · refine (hmarked hmark).cons _ (hflat flags.swapGreed) fun outer rest _ _ => ?_
    have hmark' : (t ++ rest).head? = some '?' := by
      rw [List.head?_append, hmark]
      rfl
    rw [hfront, Option.bind_map]
    simp only [hmark', if_true]
    rfl
  · refine h.cons _ (hflat !flags.swapGreed) fun outer rest hrest _ => ?_
    rw [hfront, Option.bind_map]
    simp only [head?_append_ne hmark hrest, if_false]
    rfl

/-- What is read of a text in which each group is closed are balanced lexemes. A question mark at
its front may belong to what stands before. -/
lemma Grouped.reads {t : Text} (h : Grouped t) {n : ℕ} (hn : n = 0 ∨ n = 1 ∧ t.head? = some '?') :
    ReadsBalanced flags n t := by
  induction h generalizing n with
  | nil =>
      obtain rfl : n = 0 := by simpa using hn
      exact .nil
  | @flat u t hu _ ih =>
      obtain rfl : n = 0 := hn.resolve_right fun hmark => hu.head?_ne t hmark.2
      obtain ⟨l, hl, hfront⟩ := readAll_flat hflags hu
      exact (ih (.inl rfl)).cons l (fun l' hl' => isFlat_of_isPart (hl l' hl'))
        fun outer rest _ _ => hfront outer (_ ++ rest)
  | @boundary t ht _ ih =>
      obtain rfl : n = 0 := by simpa using hn
      refine (ih (.inl rfl)).cons (u := ['\\', 'b']) (some (.look .wordBoundary)) (by simp [isFlat])
        fun outer rest _ hbrace => ?_
      have hhead : (t ++ rest).head? ≠ some '{' := head?_append_ne ht hbrace
      exact readAll_boundary hflags outer hhead
  | bar _ ih =>
      obtain rfl : n = 0 := by simpa using hn
      refine (ih (.inl rfl)).cons (u := ['|']) (some .bar) (by simp [isFlat])
        fun outer rest _ _ => ?_
      exact readAll_front hflags (n := 0) outer (by simp [isFlat]) rfl
  | @quantifier u t hu _ ih =>
      obtain rfl | ⟨rfl, hmark⟩ := hn
      · exact .quantifier hflags hu (fun hmark => ih (.inr ⟨rfl, hmark⟩)) (ih (.inl rfl))
      · obtain ⟨found, hfound, hread⟩ := ih (.inl rfl)
        obtain rfl := hu.eq_of_head? t hmark
        exact ⟨found, hfound, hread⟩
  | @group inner t hinner hfront _ ihinner ih =>
      obtain rfl : n = 0 := by simpa using hn
      exact .group hflags (ihinner (.inl rfl)) hfront (ih (.inl rfl))

omit hflags in
/-- Texts that a repetition can follow. -/
inductive Operand : Text → Prop
  | flat {t : Text} (h : Flat t) : Operand t
  | group {inner : Text} (hinner : Grouped inner) (hfront : inner.head? ≠ some '?') :
      Operand ('(' :: (inner ++ [')']))

/-- Such a text is read as a single part, whatever stands around it. -/
lemma Operand.reads {t : Text} (h : Operand t) :
    ∃ found : Option (List Lexeme), (∀ ls ∈ found, Single ls) ∧ ∀ outer rest,
      readAll 0 flags outer (t ++ rest) =
        found.bind fun ls => (readAll 0 flags outer rest).map (ls ++ ·) := by
  cases h with
  | flat h =>
      obtain ⟨found, hfound, hread⟩ := readAll_flat hflags h
      refine ⟨found.map ([·]), fun ls hls => ?_, fun outer rest => ?_⟩
      · obtain ⟨l, hl, rfl⟩ := Option.map_eq_some_iff.1 hls
        exact single_of_isPart (hfound l hl)
      · rw [hread, Option.bind_map]
        rfl
  | @group inner hinner hfront =>
      obtain ⟨found, hfound, hread⟩ := hinner.reads hflags (.inl rfl)
      refine ⟨found.map fun ls => .openGroup none :: (ls ++ [.close]), fun ls hls => ?_,
        fun outer rest => ?_⟩
      · obtain ⟨inside, hinside, rfl⟩ := Option.map_eq_some_iff.1 hls
        exact .group (hfound inside hinside)
      · have hfront' : (inner ++ ')' :: rest).head? ≠ some '?' := head?_append_ne hfront (by simp)
        rw [List.cons_append, List.append_assoc, List.singleton_append,
          readAll_open hflags outer hfront', hread _ _ (by simp) (by simp), readAll_close hflags]
        cases found <;> simp [Option.map_map, Function.comp_def]

end Lexeme

end StreamEditor.Regex
