import StreamEditor.Text

/-!
Transliterations: a character for a character.

* `Transliteration.Mapping`: what each character becomes; the first 256 characters have a place in a
  table, all others an entry if they change.
* `Transliteration.lookup`: what a character becomes; of several positions at which it occurs
  in the source, the last counts (`lookup_eq`).
* `Transliteration.apply`: what a text becomes.
-/

namespace StreamEditor

/-- The characters of `source` become those at the same positions of `target`. -/
structure Transliteration where
  source : Text
  target : Text
  deriving DecidableEq, Repr, Inhabited

namespace Transliteration

/-! ### Mappings -/

/-- The code points below this have a place in the table. -/
def tableSize : Nat := 256

/-- What each character becomes. -/
structure Mapping where
  /-- What the characters with a place in the table become. -/
  table : Vector Char tableSize
  /-- What others become, the entry made last first; without an entry they stay as they are. -/
  others : List (Char × Char)

namespace Mapping

/-- Every character stays as it is. -/
def identity : Mapping := ⟨Vector.ofFn fun i => Char.ofNat i, []⟩

/-- The character `source` becomes `target`, whatever it became before. -/
def insert (m : Mapping) (source target : Char) : Mapping :=
  if h : source.toNat < tableSize then { m with table := m.table.set source.toNat target h }
  else { m with others := (source, target) :: m.others }

/-- What a character becomes. -/
def find (m : Mapping) (c : Char) : Char :=
  if h : c.toNat < tableSize then m.table[c.toNat] else (m.others.lookup c).getD c

@[simp] theorem find_identity (c : Char) : identity.find c = c := by
  unfold find identity
  split
  · rw [Vector.getElem_ofFn, Char.ofNat_toNat]
  · rfl

/-- In the table or behind it, only the character itself is changed. -/
theorem find_insert (m : Mapping) (source target c : Char) :
    (m.insert source target).find c = if c = source then target else m.find c := by
  by_cases hs : source.toNat < tableSize
  · rw [insert, dif_pos hs]
    unfold find
    by_cases hc : c.toNat < tableSize
    · simp only [dif_pos hc, Vector.getElem_set, Char.toNat_inj]
      simp only [eq_comm]
    · have hne : c ≠ source := fun h => hc (h ▸ hs)
      simp only [dif_neg hc, if_neg hne]
  · rw [insert, dif_neg hs]
    unfold find
    by_cases hc : c.toNat < tableSize
    · have hne : c ≠ source := fun h => hs (h ▸ hc)
      simp only [dif_pos hc, if_neg hne]
    · simp only [dif_neg hc, List.lookup_cons]
      by_cases he : c = source
      · simp [he]
      · simp [he, beq_eq_false_iff_ne.2 he]

end Mapping

/-! ### Sets -/

/-- The pairs of a character and what it becomes. -/
def pairs (y : Transliteration) : List (Char × Char) := y.source.zip y.target

/-- What each character becomes, the pairs taken in order. -/
def mapping (y : Transliteration) : Mapping :=
  y.pairs.foldl (fun m pair => m.insert pair.1 pair.2) .identity

/-- What a character becomes. -/
def lookup (y : Transliteration) (c : Char) : Char := y.mapping.find c

/-- What a text becomes. -/
def apply (y : Transliteration) (t : Text) : Text :=
  let m := y.mapping
  t.map m.find

/-- The last pair of a character tells what it becomes. -/
theorem lookup_eq (y : Transliteration) (c : Char) :
    y.lookup c = (y.pairs.reverse.lookup c).getD c := by
  unfold lookup mapping
  rw [← List.foldr_reverse]
  induction y.pairs.reverse with
  | nil => exact Mapping.find_identity c
  | cons pair pairs ih =>
    rw [List.foldr_cons, Mapping.find_insert, ih, List.lookup_cons]
    by_cases he : c = pair.1
    · simp [he]
    · simp [he, beq_eq_false_iff_ne.2 he]

end Transliteration

end StreamEditor
