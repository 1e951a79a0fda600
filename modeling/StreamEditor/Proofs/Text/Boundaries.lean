import StreamEditor.Proofs.Text.Encoded
import StreamEditor.Regex.InBytes

/-!
Where characters begin in the bytes of a text.

* `encode_boundary`: the first byte of a character goes on from no other, all others do.
* `Text.isBoundary_iff`: so a character begins in the bytes of a text only where one does in the
  text, and a slice between two such places is the bytes of a part of the text (`Text.slice?_utf8`).
* `Text.exists_of_prefix_drop`: bytes of a text occur in those of another only where the text does.
-/

namespace StreamEditor

/-- The first byte of a character begins it, and all others go on. -/
lemma encode_boundary (c : Char) :
    ∃ b more, String.utf8EncodeChar c = b :: more ∧ isContinuation b = false ∧
      ∀ d ∈ more, isContinuation d = true := by
  have hfirst {n : ℕ} (hn : n < 256) (h : n < 0x80 ∨ 0xBF < n) :
      isContinuation (UInt8.ofNat n) = false := by
    rw [← Bool.not_eq_true, isContinuation_iff, toNat_ofNat_of_lt hn]
    omega
  fun_cases String.utf8EncodeChar c with
  | case1 v hv => exact ⟨_, _, rfl, hfirst (by omega) (by omega), by simp⟩
  | case2 v hv hv' =>
      refine ⟨_, _, rfl, hfirst (by omega) (by omega), ?_⟩
      simp only [List.mem_cons, List.not_mem_nil, or_false]
      rintro d rfl
      exact isContinuation_tail _
  | case3 v hv hv' hv'' =>
      refine ⟨_, _, rfl, hfirst (by omega) (by omega), ?_⟩
      simp only [List.mem_cons, List.not_mem_nil, or_false]
      rintro d (rfl | rfl) <;> exact isContinuation_tail _
  | case4 v hv hv' hv'' =>
      refine ⟨_, _, rfl, hfirst (by omega) (by omega), ?_⟩
      simp only [List.mem_cons, List.not_mem_nil, or_false]
      rintro d (rfl | rfl | rfl) <;> exact isContinuation_tail _

namespace Text

/-! ### Offsets -/

@[simp] lemma utf8_nil : utf8 [] = [] := rfl

lemma utf8_cons (c : Char) (t : Text) : utf8 (c :: t) = String.utf8EncodeChar c ++ utf8 t := rfl

lemma utf8_append (t u : Text) : utf8 (t ++ u) = utf8 t ++ utf8 u := List.flatMap_append

lemma length_utf8 (t : Text) : (utf8 t).length = utf8Size t := by
  rw [utf8, List.length_flatMap, utf8Size, List.sum_eq_foldl, List.foldl_map]
  simp only [String.length_utf8EncodeChar]

lemma utf8_ne_nil {t : Text} (h : t ≠ []) : utf8 t ≠ [] := by
  obtain ⟨c, rest, rfl⟩ := List.exists_cons_of_ne_nil h
  obtain ⟨b, more, hc, -⟩ := encode_boundary c
  rw [utf8_cons, hc]
  exact List.cons_ne_nil _ _

@[simp] lemma offset_zero (t : Text) : t.offset 0 = 0 := rfl

lemma offset_eq_length (t : Text) (n : ℕ) : t.offset n = (utf8 (t.take n)).length :=
  (length_utf8 _).symm

lemma offset_length (t : Text) : t.offset t.length = (utf8 t).length := by
  rw [offset_eq_length, List.take_length]

lemma take_offset (t : Text) (n : ℕ) : (utf8 t).take (t.offset n) = utf8 (t.take n) := by
  have hsplit : utf8 t = utf8 (t.take n) ++ utf8 (t.drop n) := by
    rw [← utf8_append, List.take_append_drop]
  rw [hsplit, offset_eq_length, List.take_left]

lemma drop_offset (t : Text) (n : ℕ) : (utf8 t).drop (t.offset n) = utf8 (t.drop n) := by
  have hsplit : utf8 t = utf8 (t.take n) ++ utf8 (t.drop n) := by
    rw [← utf8_append, List.take_append_drop]
  rw [hsplit, offset_eq_length, List.drop_left]

/-- What a part of a text adds to an offset. -/
lemma offset_add (t : Text) (m n : ℕ) : t.offset (m + n) = t.offset m + offset (t.drop m) n := by
  simp only [offset_eq_length]
  rw [List.take_add, utf8_append, List.length_append]

lemma offset_mono (t : Text) {m n : ℕ} (h : m ≤ n) : t.offset m ≤ t.offset n := by
  obtain ⟨k, rfl⟩ := Nat.exists_eq_add_of_le h
  rw [offset_add]
  exact Nat.le_add_right _ _

lemma offset_lt (t : Text) {m n : ℕ} (h : m < n) (hn : n ≤ t.length) :
    t.offset m < t.offset n := by
  obtain ⟨k, rfl⟩ := Nat.exists_eq_add_of_le h.le
  have hne : (t.drop m).take k ≠ [] := by
    rw [← List.length_pos_iff, List.length_take, List.length_drop]
    omega
  have hpos := List.length_pos_iff.2 (utf8_ne_nil hne)
  rw [offset_add, offset_eq_length (List.drop m t)]
  omega

/-! ### Boundaries -/

lemma isBoundary_bytes {bytes : Bytes} {n : ℕ} : bytes.isBoundary n = true ↔
    n = 0 ∨ n = bytes.length ∨ ∃ b, bytes[n]? = some b ∧ isContinuation b = false := by
  simp [Bytes.isBoundary, Option.any_eq_true, or_assoc]

/-- Behind the first character of a text the boundaries are those of what follows it. -/
lemma isBoundary_cons {c : Char} {t : Text} {i : ℕ} (h : (utf8 (c :: t)).isBoundary i = true)
    (hi : 0 < i) : ∃ j, i = (String.utf8EncodeChar c).length + j ∧
      (utf8 t).isBoundary j = true := by
  obtain ⟨b, more, hc, -, hmore⟩ := encode_boundary c
  rw [isBoundary_bytes, utf8_cons] at h
  -- Inside the character there are only bytes that go on.
  have hle : (String.utf8EncodeChar c).length ≤ i := by
    by_contra hlt
    rw [not_le] at hlt
    obtain h | h | ⟨d, hd, hbegins⟩ := h
    · omega
    · rw [List.length_append] at h
      omega
    · obtain ⟨j, rfl⟩ := Nat.exists_eq_add_of_lt hi
      rw [List.getElem?_append_left hlt, hc, List.getElem?_cons_succ] at hd
      rw [hmore d (List.mem_of_getElem? hd)] at hbegins
      cases hbegins
  obtain ⟨j, rfl⟩ := Nat.exists_eq_add_of_le hle
  refine ⟨j, rfl, isBoundary_bytes.2 ?_⟩
  obtain h | h | ⟨d, hd, hbegins⟩ := h
  · omega
  · rw [List.length_append, Nat.add_left_cancel_iff] at h
    exact .inr (.inl h)
  · rw [List.getElem?_append_right hle, Nat.add_sub_cancel_left] at hd
    exact .inr (.inr ⟨d, hd, hbegins⟩)

/-- A boundary in the bytes of a text stands before a character of it, or at its end. -/
lemma isBoundary_iff (t : Text) (i : ℕ) :
    (utf8 t).isBoundary i = true ↔ ∃ n ≤ t.length, i = t.offset n := by
  constructor
  · intro h
    induction t generalizing i with
    | nil => exact ⟨0, le_rfl, by simpa [isBoundary_bytes] using h⟩
    | cons c t ih =>
        obtain rfl | hi := Nat.eq_zero_or_pos i
        · exact ⟨0, Nat.zero_le _, rfl⟩
        · obtain ⟨j, rfl, hbehind⟩ := isBoundary_cons h hi
          obtain ⟨n, hn, rfl⟩ := ih j hbehind
          refine ⟨n + 1, Nat.succ_le_succ hn, ?_⟩
          rw [offset_eq_length, offset_eq_length, List.take_succ_cons, utf8_cons,
            List.length_append]
  · rintro ⟨n, hn, rfl⟩
    obtain hlt | rfl := hn.lt_or_eq
    · obtain ⟨b, more, hc, hb, -⟩ := encode_boundary t[n]
      have hget : (utf8 t)[t.offset n]? = some b := by
        have hdrop := t.drop_offset n
        rw [List.drop_eq_getElem_cons hlt, utf8_cons, hc] at hdrop
        rw [← List.head?_drop, hdrop]
        rfl
      exact isBoundary_bytes.2 (.inr (.inr ⟨b, hget, hb⟩))
    · exact isBoundary_bytes.2 (.inr (.inl t.offset_length))

/-- A slice between characters is the bytes of those between. -/
lemma slice?_utf8 (t : Text) {m n : ℕ} (hmn : m ≤ n) (hn : n ≤ t.length) :
    (utf8 t).slice? (t.offset m) (t.offset n) =
      some (utf8 ((t.drop m).take (n - m))) := by
  have hm := (isBoundary_iff t _).2 ⟨m, hmn.trans hn, rfl⟩
  have hstop := (isBoundary_iff t _).2 ⟨n, hn, rfl⟩
  obtain ⟨k, rfl⟩ := Nat.exists_eq_add_of_le hmn
  have hlength : t.offset (m + k) - t.offset m = offset (t.drop m) k := by
    rw [offset_add, Nat.add_sub_cancel_left]
  rw [Bytes.slice?, hm, hstop, drop_offset, hlength, take_offset, Nat.add_sub_cancel_left]
  simp [t.offset_mono hmn]

/-! ### Occurrences -/

/-- The bytes of a text are read back, whatever follows them. -/
lemma decode_utf8_append (t : Text) (rest : Bytes) :
    decode (utf8 t ++ rest) = t ++ decode rest := by
  induction t with
  | nil => rfl
  | cons c t ih => rw [utf8_cons, List.append_assoc, decode_encode_append, ih, List.cons_append]

lemma utf8_prefix_iff (t u : Text) : utf8 t <+: utf8 u ↔ t <+: u := by
  constructor
  · rintro ⟨rest, hrest⟩
    have hread := congrArg decode hrest
    rw [decode_utf8_append, decode_utf8] at hread
    exact ⟨_, hread⟩
  · rintro ⟨rest, rfl⟩
    rw [utf8_append]
    exact List.prefix_append _ _

/-- The bytes of a text that is not empty occur only where the text does. -/
lemma exists_of_prefix_drop {needle t : Text} (hneedle : needle ≠ []) {i : ℕ}
    (h : utf8 needle <+: (utf8 t).drop i) : ∃ n, i = t.offset n ∧ needle <+: t.drop n := by
  obtain ⟨c, rest, rfl⟩ := List.exists_cons_of_ne_nil hneedle
  obtain ⟨b, more, hc, hb, -⟩ := encode_boundary c
  -- The first of the bytes begins a character, so there is a boundary before it.
  have hget : (utf8 t)[i]? = some b := by
    obtain ⟨later, hlater⟩ := h
    rw [← List.head?_drop, ← hlater, utf8_cons, hc]
    rfl
  obtain ⟨n, -, rfl⟩ := (isBoundary_iff t i).1
    (isBoundary_bytes.2 (.inr (.inr ⟨b, hget, hb⟩)))
  rw [drop_offset, utf8_prefix_iff] at h
  exact ⟨n, rfl, h⟩

end Text

end StreamEditor
