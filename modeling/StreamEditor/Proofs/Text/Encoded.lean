import Mathlib.Tactic
import StreamEditor.Text

/-!
The UTF-8 form of a text is read back.

* `decodeStep_encode`: the bytes of a character are read as this character, whatever follows them.
* `Text.decode_utf8`: so a text is read back from its UTF-8 form.
* `eq_singleton_of_mem_encode`: a byte below 128 stands for a character by itself only.
* `Text.newline_mem_of_decode`: a newline is read from nothing else.
-/

namespace StreamEditor

/-! ### One character -/

section Steps

variable {b b₁ b₂ b₃ : UInt8}

lemma isContinuation_iff : isContinuation b = true ↔ 0x80 ≤ b.toNat ∧ b.toNat ≤ 0xBF := by
  simp [isContinuation, UInt8.le_iff_toNat_le]

/-- A byte may be the second one if it goes on, and after some first bytes is not too low or too
high. -/
lemma isSecondOf_of_continuation (h : isContinuation b₁ = true) (hE0 : b = 0xE0 → 0xA0 ≤ b₁.toNat)
    (hED : b = 0xED → b₁.toNat ≤ 0x9F) (hF0 : b = 0xF0 → 0x90 ≤ b₁.toNat)
    (hF4 : b = 0xF4 → b₁.toNat ≤ 0x8F) : isSecondOf b b₁ = true := by
  rw [isContinuation_iff] at h
  unfold isSecondOf
  split_ifs <;> simp_all [UInt8.le_iff_toNat_le, isContinuation_iff]

lemma decodeStep_one (h : b.toNat < 0x80) (rest : Bytes) :
    decodeStep b rest = (some (Char.ofNat b.toNat), 0) := by
  unfold decodeStep
  rw [if_pos (UInt8.lt_iff_toNat_lt.2 h)]

lemma decodeStep_two (h : 0xC2 ≤ b.toNat ∧ b.toNat ≤ 0xDF) (h₁ : isContinuation b₁ = true)
    (rest : Bytes) :
    decodeStep b (b₁ :: rest) = (some (Char.ofNat (b.toNat % 32 * 64 + payload b₁)), 1) := by
  have hone : ¬b < 0x80 := by simp [UInt8.lt_iff_toNat_lt]; omega
  have htwo : (0xC2 ≤ b && b ≤ 0xDF) = true := by simpa [UInt8.le_iff_toNat_le] using h
  unfold decodeStep
  rw [if_neg hone, if_pos htwo]
  exact if_pos h₁

lemma decodeStep_three (h : 0xE0 ≤ b.toNat ∧ b.toNat ≤ 0xEF) (h₁ : isSecondOf b b₁ = true)
    (h₂ : isContinuation b₂ = true) (rest : Bytes) :
    decodeStep b (b₁ :: b₂ :: rest) =
      (some (Char.ofNat ((b.toNat % 16 * 64 + payload b₁) * 64 + payload b₂)), 2) := by
  have hone : ¬b < 0x80 := by simp [UInt8.lt_iff_toNat_lt]; omega
  have htwo : ¬(0xC2 ≤ b && b ≤ 0xDF) = true := by simp [UInt8.le_iff_toNat_le]; omega
  have hthree : (0xE0 ≤ b && b ≤ 0xEF) = true := by simpa [UInt8.le_iff_toNat_le] using h
  unfold decodeStep
  rw [if_neg hone, if_neg htwo, if_pos hthree]
  simp only [h₁, h₂, Bool.not_true, Bool.false_eq_true, if_false]

lemma decodeStep_four (h : 0xF0 ≤ b.toNat ∧ b.toNat ≤ 0xF4) (h₁ : isSecondOf b b₁ = true)
    (h₂ : isContinuation b₂ = true) (h₃ : isContinuation b₃ = true) (rest : Bytes) :
    decodeStep b (b₁ :: b₂ :: b₃ :: rest) =
      (some (Char.ofNat
        (((b.toNat % 8 * 64 + payload b₁) * 64 + payload b₂) * 64 + payload b₃)), 3) := by
  have hone : ¬b < 0x80 := by simp [UInt8.lt_iff_toNat_lt]; omega
  have htwo : ¬(0xC2 ≤ b && b ≤ 0xDF) = true := by simp [UInt8.le_iff_toNat_le]; omega
  have hthree : ¬(0xE0 ≤ b && b ≤ 0xEF) = true := by simp [UInt8.le_iff_toNat_le]; omega
  have hfour : (0xF0 ≤ b && b ≤ 0xF4) = true := by simpa [UInt8.le_iff_toNat_le] using h
  unfold decodeStep
  rw [if_neg hone, if_neg htwo, if_neg hthree, if_pos hfour]
  simp only [h₁, h₂, h₃, Bool.not_true, Bool.false_eq_true, if_false]

end Steps

lemma toNat_ofNat_of_lt {n : ℕ} (h : n < 256) : (UInt8.ofNat n).toNat = n := by
  rw [UInt8.toNat_ofNat', Nat.mod_eq_of_lt h]

lemma isContinuation_tail (n : ℕ) : isContinuation (UInt8.ofNat (n % 64 + 128)) = true := by
  rw [isContinuation_iff, toNat_ofNat_of_lt (by omega)]
  omega

lemma payload_tail (n : ℕ) : payload (UInt8.ofNat (n % 64 + 128)) = n % 64 := by
  rw [payload, toNat_ofNat_of_lt (by omega)]
  omega

lemma ofNat_of_eq_val {c : Char} {n : ℕ} (h : n = c.val.toNat) : Char.ofNat n = c := by
  rw [h]
  exact c.ofNat_toNat

/-- The bytes of a character are read as this character, whatever follows. -/
lemma decodeStep_encode (c : Char) :
    ∃ b more, String.utf8EncodeChar c = b :: more ∧
      ∀ rest, decodeStep b (more ++ rest) = (some c, more.length) := by
  -- no character is a surrogate or lies beyond the last code point: this bounds the second byte
  have hvalid : c.val.toNat < 0xD800 ∨ 0xDFFF < c.val.toNat ∧ c.val.toNat < 0x110000 := c.valid
  fun_cases String.utf8EncodeChar c with
  | case1 v hv =>
      have hb : (UInt8.ofNat v).toNat = v := toNat_ofNat_of_lt (by omega)
      refine ⟨_, _, rfl, fun rest => ?_⟩
      rw [decodeStep_one (by omega), hb, ofNat_of_eq_val rfl]
      rfl
  | case2 v hv hv' =>
      have hb : (UInt8.ofNat (v / 64 % 32 + 192)).toNat = v / 64 + 192 := by
        rw [toNat_ofNat_of_lt] <;> omega
      refine ⟨_, _, rfl, fun rest => ?_⟩
      rw [List.singleton_append, decodeStep_two (by omega) (isContinuation_tail _), payload_tail,
        hb, ofNat_of_eq_val (c := c) (by omega)]
      rfl
  | case3 v hv hv' hv'' =>
      have hb : (UInt8.ofNat (v / 4096 % 16 + 224)).toNat = v / 4096 + 224 := by
        rw [toNat_ofNat_of_lt] <;> omega
      have hb₁ : (UInt8.ofNat (v / 64 % 64 + 128)).toNat = v / 64 % 64 + 128 :=
        toNat_ofNat_of_lt (by omega)
      have hsecond : isSecondOf (UInt8.ofNat (v / 4096 % 16 + 224))
          (UInt8.ofNat (v / 64 % 64 + 128)) = true := by
        apply isSecondOf_of_continuation (isContinuation_tail _) <;>
          rw [← UInt8.toNat_inj, hb, hb₁] <;> simp <;> omega
      refine ⟨_, _, rfl, fun rest => ?_⟩
      rw [List.cons_append, List.singleton_append,
        decodeStep_three (by omega) hsecond (isContinuation_tail _), payload_tail, payload_tail, hb,
        ofNat_of_eq_val (c := c) (by omega)]
      rfl
  | case4 v hv hv' hv'' =>
      have hb : (UInt8.ofNat (v / 262144 % 8 + 240)).toNat = v / 262144 + 240 := by
        rw [toNat_ofNat_of_lt] <;> omega
      have hb₁ : (UInt8.ofNat (v / 4096 % 64 + 128)).toNat = v / 4096 % 64 + 128 :=
        toNat_ofNat_of_lt (by omega)
      have hsecond : isSecondOf (UInt8.ofNat (v / 262144 % 8 + 240))
          (UInt8.ofNat (v / 4096 % 64 + 128)) = true := by
        apply isSecondOf_of_continuation (isContinuation_tail _) <;>
          rw [← UInt8.toNat_inj, hb, hb₁] <;> simp <;> omega
      refine ⟨_, _, rfl, fun rest => ?_⟩
      rw [List.cons_append, List.cons_append, List.singleton_append,
        decodeStep_four (by omega) hsecond (isContinuation_tail _) (isContinuation_tail _),
        payload_tail, payload_tail, payload_tail, hb, ofNat_of_eq_val (c := c) (by omega)]
      rfl

/-- A byte below 128 belongs to no other character than the one that it is. -/
lemma eq_singleton_of_mem_encode {c : Char} {b : UInt8} (hb : b < 0x80)
    (h : b ∈ String.utf8EncodeChar c) : String.utf8EncodeChar c = [b] := by
  rw [UInt8.lt_iff_toNat_lt] at hb
  have hhigh {n : ℕ} (hn : 128 ≤ n) (hn' : n < 256) : b ≠ UInt8.ofNat n := by
    rintro rfl
    rw [toNat_ofNat_of_lt hn'] at hb
    exact absurd hb (Nat.not_lt.2 hn)
  revert h
  fun_cases String.utf8EncodeChar c with
  | case1 v hv =>
      intro h
      rw [List.mem_singleton.1 h]
  | case2 v hv hv' =>
      intro h
      simp only [List.mem_cons, List.not_mem_nil, or_false] at h
      rcases h with h | h <;> exact absurd h (hhigh (by omega) (by omega))
  | case3 v hv hv' hv'' =>
      intro h
      simp only [List.mem_cons, List.not_mem_nil, or_false] at h
      rcases h with h | h | h <;> exact absurd h (hhigh (by omega) (by omega))
  | case4 v hv hv' hv'' =>
      intro h
      simp only [List.mem_cons, List.not_mem_nil, or_false] at h
      rcases h with h | h | h | h <;> exact absurd h (hhigh (by omega) (by omega))

/-! ### Newlines -/

lemma eq_of_ofNat_newline {n : ℕ} (h : Char.ofNat n = '\n') : n = 10 := by
  by_cases hvalid : n.isValidChar
  · have hvalue : (Char.ofNat n).toNat = n := by
      rw [Char.ofNat, dif_pos hvalid]
      rfl
    rw [← hvalue, h]
    rfl
  · rw [Char.ofNat, dif_neg hvalid] at h
    exact absurd h (by decide)

/-- After the first bytes that could begin an overlong form the second one is not too low. -/
lemma payload_of_isSecondOf {b b₁ : UInt8} (h : isSecondOf b b₁ = true) :
    (b.toNat = 0xE0 → 32 ≤ payload b₁) ∧ (b.toNat = 0xF0 → 16 ≤ payload b₁) := by
  unfold isSecondOf at h
  rw [payload]
  constructor <;> intro hb <;> simp [← UInt8.toNat_inj, hb, UInt8.le_iff_toNat_le] at h <;> omega

/-- A newline is read from nothing but a newline. -/
lemma eq_of_decodeStep_newline {b : UInt8} {rest : Bytes}
    (h : (decodeStep b rest).1 = some '\n') : b.toNat = 10 := by
  unfold decodeStep at h
  split at h
  · exact eq_of_ofNat_newline (Option.some.inj h)
  -- a character of more bytes is beyond the first 128
  exfalso
  split at h
  · rename_i hfirst
    simp only [Bool.and_eq_true, decide_eq_true_eq, UInt8.le_iff_toNat_le] at hfirst
    obtain ⟨hlow, hhigh⟩ : 0xC2 ≤ b.toNat ∧ b.toNat ≤ 0xDF := hfirst
    split at h
    · split at h
      · have hvalue := eq_of_ofNat_newline (Option.some.inj h)
        omega
      · cases h
    · cases h
  split at h
  · rename_i hfirst
    simp only [Bool.and_eq_true, decide_eq_true_eq, UInt8.le_iff_toNat_le] at hfirst
    obtain ⟨hlow, hhigh⟩ : 0xE0 ≤ b.toNat ∧ b.toNat ≤ 0xEF := hfirst
    split at h
    · rename_i b₁ b₂ _
      cases hsecond : isSecondOf b b₁ <;> rw [hsecond] at h
      · cases h
      · cases hthird : isContinuation b₂ <;> rw [hthird] at h
        · cases h
        · have hvalue := eq_of_ofNat_newline (Option.some.inj h)
          have hpayload := (payload_of_isSecondOf hsecond).1
          omega
    all_goals cases h
  split at h
  · rename_i hfirst
    simp only [Bool.and_eq_true, decide_eq_true_eq, UInt8.le_iff_toNat_le] at hfirst
    obtain ⟨hlow, hhigh⟩ : 0xF0 ≤ b.toNat ∧ b.toNat ≤ 0xF4 := hfirst
    split at h
    · rename_i b₁ b₂ b₃ _
      cases hsecond : isSecondOf b b₁ <;> rw [hsecond] at h
      · cases h
      · cases hthird : isContinuation b₂ <;> rw [hthird] at h
        · cases h
        · cases hfourth : isContinuation b₃ <;> rw [hfourth] at h
          · cases h
          · have hvalue := eq_of_ofNat_newline (Option.some.inj h)
            have hpayload := (payload_of_isSecondOf hsecond).2
            omega
    all_goals cases h
  · cases h

/-- What is read has been read somewhere. -/
lemma exists_of_mem_expand {α β : Type} {step : α → List α → List β × ℕ} {x : β} {n : ℕ}
    {l : List α} (h : x ∈ expand step n l) : ∃ a ∈ l, ∃ rest, x ∈ (step a rest).1 := by
  fun_induction expand step n l with
  | case1 n => cases h
  | case2 n a rest ih =>
      obtain ⟨a', ha', hx⟩ := ih h
      exact ⟨a', List.mem_cons_of_mem _ ha', hx⟩
  | case3 a rest piece ih =>
      obtain h | h := List.mem_append.1 h
      · exact ⟨a, List.mem_cons_self .., rest, h⟩
      · obtain ⟨a', ha', hx⟩ := ih h
        exact ⟨a', List.mem_cons_of_mem _ ha', hx⟩

/-! ### Texts -/

namespace Text

lemma decode_encode_append (c : Char) (rest : Bytes) :
    decode (String.utf8EncodeChar c ++ rest) = c :: decode rest := by
  obtain ⟨b, more, hc, hread⟩ := decodeStep_encode c
  rw [hc, List.cons_append, decode, expand, hread]
  dsimp only
  rw [expand_eq_drop, List.drop_left]
  rfl

/-- A text is read back from its UTF-8 form. -/
lemma decode_utf8 (t : Text) : decode (utf8 t) = t := by
  induction t with
  | nil => rfl
  | cons c t ih =>
      rw [utf8, List.flatMap_cons, decode_encode_append]
      exact congrArg (c :: ·) ih

/-- A text holds a newline only where its bytes do. -/
lemma newline_mem_of_decode {bytes : Bytes} (h : '\n' ∈ decode bytes) : (10 : UInt8) ∈ bytes := by
  obtain ⟨b, hb, rest, hread⟩ := exists_of_mem_expand h
  have hfound := List.mem_singleton.1 hread
  cases hstep : (decodeStep b rest).1 with
  | none =>
      rw [hstep] at hfound
      exact absurd hfound (by decide)
  | some c =>
      rw [hstep] at hfound
      have hnewline := eq_of_decodeStep_newline (hstep.trans (congrArg some hfound.symm))
      rwa [show b = 10 from UInt8.toNat_inj.1 hnewline] at hb

end Text

end StreamEditor
