import Mathlib.Tactic
import StreamEditor.Record

/-!
The records that are left in a reader.

* `Record.all`: the records of some bytes.
* `Reader.left`: the bytes that a reader still gives.
* `Reader.read_spec`: reading takes the first of their records.
* `Reader.hasNext_spec`: looking on takes none.
-/

namespace StreamEditor

/-! ### Records of bytes -/

namespace Record

/-- Bytes cut after every separator. -/
def cut (separator : UInt8) : Bytes → List Bytes
  | [] => []
  | b :: rest =>
      if b = separator then [b] :: cut separator rest
      else
        match cut separator rest with
        | first :: others => (b :: first) :: others
        | [] => [[b]]

/-- The records of some bytes. -/
def all (separator : UInt8) (bytes : Bytes) : List Record :=
  (cut separator bytes).map (ofBytes separator)

section Split

variable {separator : UInt8} {bytes first rest more : Bytes}

/-- The first separator is the first byte, or comes after it. -/
lemma split_cons_eq_some {b : UInt8} (h : split separator (b :: bytes) = some (first, rest)) :
    (b = separator ∧ first = [b] ∧ rest = bytes) ∨
      (b ≠ separator ∧ ∃ first', first = b :: first' ∧
        split separator bytes = some (first', rest)) := by
  rw [split] at h
  split at h
  · rename_i hb
    cases h
    exact .inl ⟨hb, rfl, rfl⟩
  · rename_i hb
    obtain ⟨⟨first', rest'⟩, hsplit, he⟩ := Option.map_eq_some_iff.1 h
    cases he
    exact .inr ⟨hb, first', rfl, hsplit⟩

lemma split_cons_eq_none {b : UInt8} :
    split separator (b :: bytes) = none ↔ b ≠ separator ∧ split separator bytes = none := by
  rw [split]
  split
  · rename_i hb
    simp [hb]
  · rename_i hb
    simp [hb]

lemma cut_of_split (h : split separator bytes = some (first, rest)) :
    cut separator bytes = first :: cut separator rest := by
  induction bytes generalizing first with
  | nil => cases h
  | cons b bytes ih =>
      obtain ⟨hb, rfl, rfl⟩ | ⟨hb, first', rfl, hsplit⟩ := split_cons_eq_some h
      · rw [cut, if_pos hb]
      · rw [cut, if_neg hb, ih hsplit]

lemma cut_of_split_none (h : split separator bytes = none) (hne : bytes ≠ []) :
    cut separator bytes = [bytes] := by
  induction bytes with
  | nil => exact absurd rfl hne
  | cons b bytes ih =>
      obtain ⟨hb, hrest⟩ := split_cons_eq_none.1 h
      rw [cut, if_neg hb]
      cases bytes with
      | nil => rfl
      | cons b' bytes => rw [ih hrest (List.cons_ne_nil _ _)]

lemma all_of_split (h : split separator bytes = some (first, rest)) :
    all separator bytes = ofBytes separator first :: all separator rest := by
  rw [all, cut_of_split h]
  rfl

lemma all_of_split_none (h : split separator bytes = none) (hne : bytes ≠ []) :
    all separator bytes = [ofBytes separator bytes] := by
  rw [all, cut_of_split_none h hne]
  rfl

lemma all_eq_nil_iff : all separator bytes = [] ↔ bytes = [] := by
  constructor
  · intro h
    by_contra hne
    rcases hs : split separator bytes with _ | ⟨first, rest⟩
    · rw [all_of_split_none hs hne] at h
      cases h
    · rw [all_of_split hs] at h
      cases h
  · rintro rfl
    rfl

lemma split_append_of_some (h : split separator bytes = some (first, rest)) :
    split separator (bytes ++ more) = some (first, rest ++ more) := by
  induction bytes generalizing first with
  | nil => cases h
  | cons b bytes ih =>
      rw [List.cons_append, split]
      obtain ⟨hb, rfl, rfl⟩ | ⟨hb, first', rfl, hsplit⟩ := split_cons_eq_some h
      · rw [if_pos hb]
      · rw [if_neg hb, ih hsplit]
        rfl

lemma split_append_of_none (h : split separator bytes = none) :
    split separator (bytes ++ more) =
      (split separator more).map fun (first, rest) => (bytes ++ first, rest) := by
  induction bytes with
  | nil => simp
  | cons b bytes ih =>
      obtain ⟨hb, hrest⟩ := split_cons_eq_none.1 h
      rw [List.cons_append, split, if_neg hb, ih hrest, Option.map_map]
      rfl

end Split

end Record

/-! ### Readers -/

namespace Feed

/-- The feed then gives what was left. -/
lemma available_leave {feed : Feed} {s : Storage} {rest : Bytes} (h : rest <:+ feed.available s) :
    (feed.leave s rest).1.available (feed.leave s rest).2 = rest := by
  cases feed with
  | memory | standardInput => rfl
  | file path offset =>
      have hsuffix : rest <:+ (s.get? path).getD [] := h.trans (List.drop_suffix _ _)
      obtain ⟨before, hbefore⟩ := hsuffix
      simp only [leave, available, ← hbefore, List.length_append, Nat.add_sub_cancel]
      exact List.drop_left

lemma leave_leave (feed : Feed) (s : Storage) (rest rest' : Bytes) :
    ((feed.leave s rest).1.leave (feed.leave s rest).2 rest').2 = (feed.leave s rest').2 := by
  cases feed <;> rfl

end Feed

namespace Reader

/-- The bytes that a reader still gives. -/
def left (s : Storage) : Reader → Bytes
  | whole rest => rest
  | pieces waiting feed => waiting ++ feed.available s
  | folder => []

/-- The files after a reader has given all its bytes. -/
def spent (s : Storage) : Reader → Storage
  | pieces _ feed => (feed.leave s []).2
  | _ => s

/-- What is not taken is at the end of the source. -/
lemma takeRecord_suffix (separator : UInt8) (waiting source : Bytes) :
    (takeRecord separator waiting source).2.2 <:+ source := by
  fun_induction takeRecord separator waiting source with
  | case1 | case2 => exact List.suffix_rfl
  | case3 waiting source hs hsource first rest others ht ih =>
      rw [ht] at ih
      exact ih.trans (List.drop_suffix _ _)

/-- A record is taken up to its separator, or up to the end if there is none. -/
lemma takeRecord_spec (separator : UInt8) (waiting source : Bytes) :
    Record.split separator (waiting ++ source) =
        some ((takeRecord separator waiting source).1,
          (takeRecord separator waiting source).2.1 ++ (takeRecord separator waiting source).2.2) ∨
      Record.split separator (waiting ++ source) = none ∧
        takeRecord separator waiting source = (waiting ++ source, [], []) := by
  fun_induction takeRecord separator waiting source with
  | case1 waiting source first rest hs => exact .inl (Record.split_append_of_some hs)
  | case2 waiting hs =>
      rw [List.append_nil]
      exact .inr ⟨hs, rfl⟩
  | case3 waiting source hs hsource first rest others ht ih =>
      rw [List.take_append_drop, ht] at ih
      rw [Record.split_append_of_none hs]
      rcases ih with ih | ⟨ih, he⟩
      · rw [ih]
        exact .inl rfl
      · cases he
        rw [ih]
        exact .inr ⟨rfl, rfl⟩

/-- Reading gives the first of the records that are left, if there are any. -/
lemma read_spec (r : Reader) (separator : UInt8) (s : Storage) :
    (∃ record r' s', r.read separator s = (.ok (some record), r', s') ∧
        Record.all separator (r.left s) = record :: Record.all separator (r'.left s') ∧
        r'.spent s' = r.spent s) ∨
      ((r.read separator s).1 = .ok none ∨ ∃ fault, (r.read separator s).1 = .error fault) ∧
        r.left s = [] ∧ (r.read separator s).2.2 = r.spent s := by
  cases r with
  | folder => exact .inr ⟨.inr ⟨_, rfl⟩, rfl, rfl⟩
  | whole rest =>
      cases rest with
      | nil => exact .inr ⟨.inl rfl, rfl, rfl⟩
      | cons b bytes =>
          rw [read]
          · rcases hs : Record.split separator (b :: bytes) with _ | ⟨first, others⟩
            · exact .inl ⟨_, _, _, rfl, Record.all_of_split_none hs (List.cons_ne_nil _ _), rfl⟩
            · exact .inl ⟨_, _, _, rfl, Record.all_of_split hs, rfl⟩
          · exact List.cons_ne_nil _ _
  | pieces waiting feed =>
      have hspec := takeRecord_spec separator waiting (feed.available s)
      have hsuffix := takeRecord_suffix separator waiting (feed.available s)
      rcases ht : takeRecord separator waiting (feed.available s) with ⟨first, rest, source⟩
      rw [ht] at hspec hsuffix
      have hread : (pieces waiting feed).read separator s =
          (.ok (if first.isEmpty then none else some (.ofBytes separator first)),
            pieces rest (feed.leave s source).1, (feed.leave s source).2) := by
        rw [read, ht]
      have hleft : (pieces rest (feed.leave s source).1).left (feed.leave s source).2 =
          rest ++ source := by rw [left, Feed.available_leave hsuffix]
      have hspent : (pieces rest (feed.leave s source).1).spent (feed.leave s source).2 =
          (pieces waiting feed).spent s := Feed.leave_leave ..
      rw [hread]
      -- The first record has its separator, or it is all that is left.
      rcases hspec with hsplit | ⟨hsplit, he⟩
      · cases first with
        | nil => exact absurd (Record.getLast?_of_split hsplit) (by simp)
        | cons b first =>
            exact .inl ⟨_, _, _, rfl, (Record.all_of_split hsplit).trans (by rw [hleft]), hspent⟩
      · obtain ⟨rfl, rfl, rfl⟩ : first = waiting ++ feed.available s ∧ rest = [] ∧ source = [] := by
          simpa using he
        cases hw : waiting ++ feed.available s with
        | nil => exact .inr ⟨.inl rfl, hw, rfl⟩
        | cons b bytes =>
            rw [hw] at hsplit
            refine .inl ⟨_, _, _, rfl, ?_, hspent⟩
            rw [hleft, left, hw]
            exact Record.all_of_split_none hsplit (List.cons_ne_nil _ _)

/-- Looking on finds out whether anything is left, and leaves it there. -/
lemma hasNext_spec (r : Reader) (s : Storage) :
    (∃ r' s', r.hasNext s = (.ok true, r', s') ∧ r.left s ≠ [] ∧ r'.left s' = r.left s ∧
        r'.spent s' = r.spent s) ∨
      ((r.hasNext s).1 = .ok false ∨ ∃ fault, (r.hasNext s).1 = .error fault) ∧
        r.left s = [] ∧ (r.hasNext s).2.2 = r.spent s := by
  cases r with
  | folder => exact .inr ⟨.inr ⟨_, rfl⟩, rfl, rfl⟩
  | whole rest =>
      cases rest with
      | nil => exact .inr ⟨.inl rfl, rfl, rfl⟩
      | cons b bytes => exact .inl ⟨_, _, rfl, List.cons_ne_nil _ _, rfl, rfl⟩
  | pieces waiting feed =>
      cases waiting with
      | cons b waiting => exact .inl ⟨_, _, rfl, List.cons_ne_nil _ _, rfl, rfl⟩
      | nil =>
          have hleft : (pieces ((feed.available s).take pieceSize)
              (feed.leave s ((feed.available s).drop pieceSize)).1).left
                (feed.leave s ((feed.available s).drop pieceSize)).2 = feed.available s := by
            rw [left, Feed.available_leave (List.drop_suffix ..), List.take_append_drop]
          have hnext : (pieces [] feed).hasNext s = (.ok !(feed.available s).isEmpty,
              pieces ((feed.available s).take pieceSize)
                (feed.leave s ((feed.available s).drop pieceSize)).1,
              (feed.leave s ((feed.available s).drop pieceSize)).2) := by rw [hasNext]
          rw [hnext]
          cases hsource : feed.available s with
          | nil => exact .inr ⟨.inl rfl, hsource, rfl⟩
          | cons b source =>
              rw [hsource] at hleft
              refine .inl ⟨_, _, rfl, ?_, hleft.trans hsource.symm, Feed.leave_leave ..⟩
              rw [left, hsource]
              exact List.cons_ne_nil _ _

end Reader

end StreamEditor
