import StreamEditor.Listing
import StreamEditor.Proofs.Text.Encoded

/-!
Listings, read back.

* `Listing.decode`: the bytes that a listing shows, whatever its width.
* `Listing.escape_cases`: the signs of bytes; `unescape_escape`, `unwrap_append`: a sign is read
  back, and none is taken for the mark of a broken line.
* `Listing.lines`, `Listing.exists_rows`: the lines of a listing, each of whole signs.
* `Listing.render_unambiguous`: a listing shows the bytes of its text, and its lines are not too
  long.
-/

namespace StreamEditor.Listing

/-! ### Reading -/

/-- Drops each backslash before a newline, together with the newline. -/
def unwrap : Text → Text
  | '\\' :: '\n' :: rest => unwrap rest
  | c :: rest => c :: unwrap rest
  | [] => []

/-- The byte that a character behind a backslash stands for; none for a digit. -/
def letter? : Char → Option UInt8
  | '\\' => some 92
  | 'a' => some 7
  | 'b' => some 8
  | 'f' => some 12
  | 'n' => some 10
  | 'r' => some 13
  | 't' => some 9
  | 'v' => some 11
  | _ => none

/-- The byte that octal digits write. -/
def ofOctal (digits : Text) : UInt8 :=
  UInt8.ofNat (digits.foldl (fun n c => n * 8 + (c.toNat - '0'.toNat)) 0)

/-- What a character begins to write, and how many of those behind it do so too. -/
def unescapeStep (c : Char) (rest : Text) : Bytes × ℕ :=
  if c = '\\' then
    match rest.head?.bind letter? with
    | some b => ([b], 1)
    | none => ([ofOctal (rest.take 3)], 3)
  else ([UInt8.ofNat c.toNat], 0)

/-- The bytes that signs stand for. -/
def unescape : Text → Bytes := expand unescapeStep 0

/-- The bytes that a listing shows: without the marks of broken lines and the dollar sign at its
end, its signs. -/
def decode (listing : Text) : Bytes := unescape (unwrap listing).dropLast

/-! ### Signs -/

/-- A sign is a backslash with a letter, the character itself, or a backslash with three digits. -/
lemma escape_cases (b : UInt8) :
    (∃ c, letter? c = some b ∧ escape b = ['\\', c]) ∨
      (b ≠ 92 ∧ 32 ≤ b.toNat ∧ b.toNat ≤ 126 ∧ escape b = [Char.ofNat b.toNat]) ∨
      escape b = '\\' :: octal b := by
  by_cases hletter : b ∈ [92, 7, 8, 12, 10, 13, 9, 11]
  · left
    fin_cases hletter <;> exact ⟨_, by decide, rfl⟩
  · right
    simp only [List.mem_cons, List.not_mem_nil, or_false, not_or] at hletter
    obtain ⟨h₁, h₂, h₃, h₄, h₅, h₆, h₇, h₈⟩ := hletter
    rw [escape, if_neg h₁, if_neg h₂, if_neg h₃, if_neg h₄, if_neg h₅, if_neg h₆, if_neg h₇,
      if_neg h₈]
    by_cases hplain : (32 ≤ b && b ≤ 126) = true
    · rw [if_pos hplain]
      simp only [Bool.and_eq_true, decide_eq_true_eq, UInt8.le_iff_toNat_le] at hplain
      exact .inl ⟨h₁, hplain.1, hplain.2, rfl⟩
    · rw [if_neg hplain]
      exact .inr rfl

/-- A digit is none of the letters, and has its value. -/
lemma digit_cases (n : ℕ) :
    letter? (Char.ofNat ('0'.toNat + n % 8)) = none ∧
      (Char.ofNat ('0'.toNat + n % 8)).toNat - '0'.toNat = n % 8 ∧
      Char.ofNat ('0'.toNat + n % 8) ≠ '\n' := by
  have hdigits : ∀ d < 8, letter? (Char.ofNat ('0'.toNat + d)) = none ∧
      (Char.ofNat ('0'.toNat + d)).toNat - '0'.toNat = d ∧
      Char.ofNat ('0'.toNat + d) ≠ '\n' := by decide
  exact hdigits _ (Nat.mod_lt _ (by decide))

/-- A character whose code is at most that of the tilde. -/
lemma toNat_ofNat_of_le {n : ℕ} (h : n ≤ 126) : (Char.ofNat n).toNat = n := by
  have hvalid : n.isValidChar := .inl (by omega)
  rw [Char.ofNat, dif_pos hvalid]
  rfl

lemma ofOctal_octal (b : UInt8) : ofOctal (octal b) = b := by
  have hlt := b.toNat_lt
  have hvalue : (b.toNat / 64 % 8 * 8 + b.toNat / 8 % 8) * 8 + b.toNat % 8 = b.toNat := by omega
  simp only [ofOctal, octal, List.foldl_cons, List.foldl_nil, (digit_cases _).2.1, Nat.zero_mul,
    Nat.zero_add, hvalue]
  exact UInt8.ofNat_toNat

lemma newline_not_mem_escape (b : UInt8) : '\n' ∉ escape b := by
  obtain ⟨c, hc, he⟩ | ⟨-, hlow, hhigh, he⟩ | he := escape_cases b <;> rw [he]
  · simp only [List.mem_cons, List.not_mem_nil, or_false, not_or]
    refine ⟨by decide, ?_⟩
    rintro rfl
    cases hc
  · rw [List.mem_singleton]
    intro h
    have hcode := congrArg Char.toNat h
    rw [toNat_ofNat_of_le hhigh] at hcode
    exact absurd (hcode ▸ hlow) (by decide)
  · simp only [octal, List.mem_cons, List.not_mem_nil, or_false, not_or]
    exact ⟨by decide, (digit_cases _).2.2.symm, (digit_cases _).2.2.symm, (digit_cases _).2.2.symm⟩

lemma length_escape_le (b : UInt8) : (escape b).length ≤ 4 := by
  obtain ⟨c, -, he⟩ | ⟨-, -, -, he⟩ | he := escape_cases b <;> rw [he]
  · exact (by decide : 2 ≤ 4)
  · exact (by decide : 1 ≤ 4)
  · exact le_rfl

/-- A sign is read back, whatever comes behind it. -/
lemma unescape_escape (b : UInt8) (rest : Text) :
    unescape (escape b ++ rest) = b :: unescape rest := by
  obtain ⟨c, hc, he⟩ | ⟨hbackslash, hlow, hhigh, he⟩ | he := escape_cases b <;> rw [he]
  · have hstep : unescapeStep '\\' (c :: rest) = ([b], 1) := by
      simp only [unescapeStep, if_pos, List.head?_cons, Option.bind_some, hc]
    rw [unescape, List.cons_append, expand, List.singleton_append, hstep]
    rfl
  · have hcode := toNat_ofNat_of_le hhigh
    have hne : Char.ofNat b.toNat ≠ '\\' := fun h =>
      hbackslash (UInt8.toNat_inj.1 (hcode.symm.trans (congrArg Char.toNat h)))
    have hstep : unescapeStep (Char.ofNat b.toNat) rest = ([b], 0) := by
      rw [unescapeStep, if_neg hne, hcode, UInt8.ofNat_toNat]
    rw [unescape, List.singleton_append, expand, hstep]
    rfl
  · have hstep : unescapeStep '\\' (octal b ++ rest) = ([b], 3) := by
      have hhead : (octal b ++ rest).head?.bind letter? = none := (digit_cases _).1
      have htake : (octal b ++ rest).take 3 = octal b := rfl
      rw [unescapeStep, if_pos rfl, hhead, htake, ofOctal_octal]
    rw [unescape, List.cons_append, expand, hstep, expand_eq_drop]
    rfl

/-! ### Lines -/

lemma unwrap_cons {rest : Text} (h : rest.head? ≠ some '\n') (c : Char) :
    unwrap (c :: rest) = c :: unwrap rest := by
  rw [unwrap]
  rintro tail - rfl
  exact h rfl

lemma head?_append {t rest : Text} (ht : '\n' ∉ t) (h : rest.head? ≠ some '\n') :
    (t ++ rest).head? ≠ some '\n' := by
  cases t with
  | nil => exact h
  | cons c t => exact fun hc => ht (by rw [Option.some.inj hc]; exact List.mem_cons_self)

/-- What holds no newline is kept. -/
lemma unwrap_append {t rest : Text} (ht : '\n' ∉ t) (h : rest.head? ≠ some '\n') :
    unwrap (t ++ rest) = t ++ unwrap rest := by
  induction t with
  | nil => rfl
  | cons c t ih =>
      rw [List.mem_cons, not_or] at ht
      rw [List.cons_append, unwrap_cons (head?_append ht.2 h), ih ht.2]
      rfl

/-- The lines to come begin with no newline. -/
lemma head?_fill (width column : ℕ) (bs : Bytes) :
    (fill width column (bs.map escape)).head? ≠ some '\n' := by
  induction bs generalizing column with
  | nil => exact (by decide : some '$' ≠ some '\n')
  | cons b bs ih =>
      rw [List.map_cons, fill]
      split
      · exact (by decide : some '\\' ≠ some '\n')
      · exact head?_append (newline_not_mem_escape b) (ih _)

/-- Without the marks of broken lines only the signs are left, and the dollar sign. -/
lemma unwrap_fill (width column : ℕ) (bs : Bytes) :
    unwrap (fill width column (bs.map escape)) = bs.flatMap escape ++ ['$'] := by
  induction bs generalizing column with
  | nil => rfl
  | cons b bs ih =>
      have hsign : ∀ column, unwrap (escape b ++ fill width column (bs.map escape)) =
          (b :: bs).flatMap escape ++ ['$'] := fun column => by
        rw [unwrap_append (newline_not_mem_escape b) (head?_fill width column bs), ih,
          List.flatMap_cons, List.append_assoc]
      rw [List.map_cons, fill]
      split
      · exact hsign _
      · exact hsign _

/-- The lines in which rows of bytes are shown. -/
def lines : List Bytes → List Text
  | [] => []
  | [row] => [row.flatMap escape ++ ['$']]
  | row :: rows => (row.flatMap escape ++ ['\\']) :: lines rows

lemma lines_cons (row row' : Bytes) (rows : List Bytes) :
    lines (row :: row' :: rows) = (row.flatMap escape ++ ['\\']) :: lines (row' :: rows) := rfl

/-- A sign more in the first row is a sign more in the first line. -/
lemma exists_lines_cons (b : UInt8) (row : Bytes) (rows : List Bytes) :
    ∃ line more, lines (row :: rows) = line :: more ∧
      lines ((b :: row) :: rows) = (escape b ++ line) :: more := by
  cases rows with
  | nil => exact ⟨_, _, rfl, by simp [lines]⟩
  | cons row' rows => exact ⟨_, _, rfl, by simp [lines]⟩

/-- The first piece goes on with what stands before it. -/
lemma pieces_append {t rest : Text} (ht : '\n' ∉ t) {line : Text} {more : List Text}
    (h : Text.pieces '\n' rest = line :: more) :
    Text.pieces '\n' (t ++ rest) = (t ++ line) :: more := by
  induction t with
  | nil => exact h
  | cons c t ih =>
      rw [List.mem_cons, not_or] at ht
      rw [List.cons_append, Text.pieces, if_neg (Ne.symm ht.1), ih ht.2]
      rfl

/-- Signs are written in rows, which are not broken further. A row begun at a column leaves room for
one more character, and so do the others, if the longest sign does. -/
lemma exists_rows (width column : ℕ) (bs : Bytes) :
    ∃ row rows, row ++ rows.flatten = bs ∧
      Text.pieces '\n' (fill width column (bs.map escape)) = lines (row :: rows) ∧
      (width ≤ 1 → rows = []) ∧
      (5 ≤ width → column < width → column + (row.flatMap escape).length < width ∧
        ∀ row' ∈ rows, (row'.flatMap escape).length < width) := by
  induction bs generalizing column with
  | nil => exact ⟨[], [], rfl, rfl, fun _ => rfl, fun _ h => ⟨h, nofun⟩⟩
  | cons b bs ih =>
      have hsign := length_escape_le b
      -- A sign for which the row leaves no room begins the next one, at the column behind itself.
      by_cases hbreak : (1 < width && width - 1 < column + (escape b).length) = true
      · obtain ⟨row, rows, hbytes, hpieces, -, hroom⟩ := ih (escape b).length
        refine ⟨[], (b :: row) :: rows, by rw [← hbytes]; rfl, ?_, fun h => ?_, fun h hcolumn => ?_⟩
        · obtain ⟨line, more, hlines, hlines'⟩ := exists_lines_cons b row rows
          rw [List.map_cons, fill, if_pos hbreak, lines_cons, hlines', ← pieces_append
            (newline_not_mem_escape b) (hpieces.trans hlines)]
          rfl
        · rw [Bool.and_eq_true, decide_eq_true_eq] at hbreak
          omega
        · obtain ⟨hfirst, hothers⟩ := hroom h (by omega)
          refine ⟨hcolumn, List.forall_mem_cons.2 ⟨?_, hothers⟩⟩
          rwa [List.flatMap_cons, List.length_append]
      · obtain ⟨row, rows, hbytes, hpieces, hsingle, hroom⟩ := ih (column + (escape b).length)
        refine ⟨b :: row, rows, by rw [← hbytes]; rfl, ?_, hsingle, fun h hcolumn => ?_⟩
        · obtain ⟨line, more, hlines, hlines'⟩ := exists_lines_cons b row rows
          rw [List.map_cons, fill, if_neg hbreak, hlines']
          exact pieces_append (newline_not_mem_escape b) (hpieces.trans hlines)
        · rw [Bool.and_eq_true, decide_eq_true_eq, decide_eq_true_eq] at hbreak
          rw [List.flatMap_cons, List.length_append, ← Nat.add_assoc]
          exact hroom h (by omega)

/-- Where each row leaves room for a character, no line is too long. -/
lemma length_le_of_mem_lines {width : ℕ} {rows : List Bytes}
    (h : ∀ row ∈ rows, (row.flatMap escape).length < width) :
    ∀ line ∈ lines rows, line.length ≤ width := by
  induction rows with
  | nil => nofun
  | cons row rows ih =>
      rw [List.forall_mem_cons] at h
      have hline : ∀ c : Char, (row.flatMap escape ++ [c]).length ≤ width := fun c => by
        rw [List.length_append, List.length_singleton]
        exact h.1
      cases rows with
      | nil => exact List.forall_mem_singleton.2 (hline '$')
      | cons row' rows => exact List.forall_mem_cons.2 ⟨hline '\\', ih h.2⟩

/-! ### Listings -/

lemma unescape_flatMap (bs : Bytes) : unescape (bs.flatMap escape) = bs := by
  induction bs with
  | nil => rfl
  | cons b bs ih => rw [List.flatMap_cons, unescape_escape, ih]

/-- The bytes of a text are read back from its listing. -/
lemma decode_render (t : Text) (width : ℕ) : decode (render t width) = Text.utf8 t := by
  rw [decode, render, unwrap_fill, List.dropLast_concat, unescape_flatMap]

/-- A listing shows the bytes of its text, so that no other text has the same; its lines are made
of whole signs, each line but the last with a backslash behind them and the last with a dollar sign;
if the width is five or more none is longer, and if it is less than two there is only one. -/
theorem render_unambiguous (t : Text) (width : ℕ) :
    decode (render t width) = Text.utf8 t ∧
      (∀ u, render u width = render t width → u = t) ∧
      (∃ rows, rows.flatten = Text.utf8 t ∧ Text.pieces '\n' (render t width) = lines rows) ∧
      (5 ≤ width → ∀ line ∈ Text.pieces '\n' (render t width), line.length ≤ width) ∧
      (width ≤ 1 → (Text.pieces '\n' (render t width)).length = 1) := by
  obtain ⟨row, rows, hbytes, hpieces, hsingle, hroom⟩ := exists_rows width 0 (Text.utf8 t)
  have hpieces : Text.pieces '\n' (render t width) = lines (row :: rows) := hpieces
  refine ⟨decode_render t width, fun u hu => ?_, ⟨row :: rows, hbytes, hpieces⟩, fun h => ?_,
    fun h => ?_⟩
  · have hsame := congrArg decode hu
    rw [decode_render, decode_render] at hsame
    rw [← Text.decode_utf8 u, hsame, Text.decode_utf8]
  · obtain ⟨hfirst, hothers⟩ := hroom h (by omega)
    rw [Nat.zero_add] at hfirst
    rw [hpieces]
    exact length_le_of_mem_lines (List.forall_mem_cons.2 ⟨hfirst, hothers⟩)
  · rw [hpieces, hsingle h]
    rfl

/-- Four signs of which two fill their lines by themselves. -/
theorem render_unambiguous_wrapped :
    5 ≤ 5 ∧ render ['é', '\\', '\t', 'b'] 5 = Text.ofString "\\303\\\n\\251\\\n\\\\\\t\\\nb$" ∧
      decode (Text.ofString "\\303\\\n\\251\\\n\\\\\\t\\\nb$") = [0xC3, 0xA9, 92, 9, 98] ∧
      (∀ line ∈ Text.pieces '\n' (render ['é', '\\', '\t', 'b'] 5), line.length ≤ 5) ∧
      ∀ u, render u 5 = render ['é', '\\', '\t', 'b'] 5 → u = ['é', '\\', '\t', 'b'] := by
  obtain ⟨hdecode, honly, -, hfits, -⟩ := render_unambiguous ['é', '\\', '\t', 'b'] 5
  have hrender : render ['é', '\\', '\t', 'b'] 5 =
      Text.ofString "\\303\\\n\\251\\\n\\\\\\t\\\nb$" := by decide +kernel
  exact ⟨le_rfl, hrender, by rw [← hrender, hdecode]; decide +kernel, hfits le_rfl, honly⟩

end StreamEditor.Listing
