/-!
Membership of a code point in an ordered list of ranges, and the smallest of the character
classes that are given so.

* `inRanges`: the look-up; `inRanges_iff` says that on increasing ranges it is membership.
* `isSpace`: the white space characters of all scripts.
-/

namespace StreamEditor.Text

/-- True if `code` lies in one of the ranges, both ends included. The ranges increase, so the
search stops at the first that begins beyond `code`. -/
def inRanges (code : Nat) : List (Nat × Nat) → Bool
  | [] => false
  | (low, high) :: rest =>
      if code < low then false else code ≤ high || inRanges code rest

/-- Ranges in increasing order of their first code points. -/
def Increasing : List (Nat × Nat) → Prop
  | [] => True
  | (low, _) :: rest => (∀ r ∈ rest, low ≤ r.1) ∧ Increasing rest

/-- The look-up in increasing ranges is membership. -/
theorem inRanges_iff {code : Nat} {ranges : List (Nat × Nat)} (h : Increasing ranges) :
    inRanges code ranges = true ↔ ∃ r ∈ ranges, r.1 ≤ code ∧ code ≤ r.2 := by
  induction ranges with
  | nil => simp [inRanges]
  | cons r rest ih =>
    obtain ⟨low, high⟩ := r
    obtain ⟨hlow, hrest⟩ := h
    by_cases hc : code < low
    · simp only [inRanges, hc, if_true, Bool.false_eq_true, false_iff]
      rintro ⟨r, hr, hr1, -⟩
      rcases List.mem_cons.1 hr with rfl | hr
      · exact absurd hc (Nat.not_lt.2 hr1)
      · exact absurd (Nat.le_trans (hlow r hr) hr1) (Nat.not_le.2 hc)
    · simp only [inRanges, hc, if_false, Bool.or_eq_true, decide_eq_true_eq, ih hrest,
        List.mem_cons, exists_eq_or_imp, Nat.not_lt.1 hc, true_and]

/-- The code points of the white space characters, in increasing order. -/
def spaceRanges : List (Nat × Nat) :=
  [(0x9, 0xD), (0x20, 0x20), (0x85, 0x85), (0xA0, 0xA0), (0x1680, 0x1680), (0x2000, 0x200A),
   (0x2028, 0x2029), (0x202F, 0x202F), (0x205F, 0x205F), (0x3000, 0x3000)]

/-- True for white space of any script. -/
def isSpace (c : Char) : Bool := inRanges c.toNat spaceRanges

end StreamEditor.Text
