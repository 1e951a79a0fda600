import StreamEditor.Proofs.Input.Contents

/-!
What readers answer, and the bytes that their records stand for.

* `Record.split_induction`: bytes are taken record by record.
* `Record.own`: the bytes of each record without its separator. Every record reads its own bytes
  (`Record.forall₂_own`), and these with the separators are all bytes there are
  (`Record.flatten_own`).
* `Record.flatMap_encode`: the records of UTF-8 are written as they were.
* `Reader.answers_eq`: a reader answers from the records that are left, whether all its bytes are at
  hand or are taken in pieces.
* `Reader.answers_of_bytes`: so two readers of the same bytes answer alike.
-/

namespace StreamEditor

namespace Record

variable {separator : UInt8} {first rest bytes : Bytes}

/-! ### One record after the other -/

lemma split_append_cons (h : separator ∉ first) (rest : Bytes) :
    split separator (first ++ separator :: rest) = some (first ++ [separator], rest) := by
  rw [split_append_of_none (split_eq_none_iff.2 h), split, if_pos rfl]
  rfl

/-- Bytes are empty, or a record that nothing ends, or a record and what follows its separator. -/
@[elab_as_elim]
lemma split_induction {P : Bytes → Prop} (separator : UInt8) (nil : P [])
    (last : ∀ bytes, bytes ≠ [] → separator ∉ bytes → P bytes)
    (more : ∀ first rest, separator ∉ first → P rest → P (first ++ separator :: rest))
    (bytes : Bytes) : P bytes := by
  induction hn : bytes.length using Nat.strong_induction_on generalizing bytes with
  | _ n ih =>
      by_cases hmem : separator ∈ bytes
      · obtain ⟨first, rest, rfl, hfirst⟩ := List.eq_append_cons_of_mem hmem
        refine more first rest hfirst (ih rest.length ?_ rest rfl)
        rw [← hn, List.length_append, List.length_cons]
        omega
      · obtain rfl | hne := eq_or_ne bytes []
        · exact nil
        · exact last bytes hne hmem

lemma all_append_cons (h : separator ∉ first) (rest : Bytes) :
    all separator (first ++ separator :: rest) =
      ⟨Text.decode first, true⟩ :: all separator rest := by
  rw [all_of_split (split_append_cons h rest), ofBytes, if_pos List.getLast?_concat,
    List.dropLast_concat]

lemma all_of_not_mem (hne : bytes ≠ []) (h : separator ∉ bytes) :
    all separator bytes = [⟨Text.decode bytes, false⟩] := by
  have hlast : bytes.getLast? ≠ some separator := fun hlast => h (List.mem_of_getLast? hlast)
  rw [all_of_split_none (split_eq_none_iff.2 h) hne, ofBytes, if_neg hlast]

/-- Only the last record may lack its separator. -/
lemma terminated_of_mem_dropLast {r : Record} (h : r ∈ (all separator bytes).dropLast) :
    r.terminated = true := by
  induction bytes using split_induction separator with
  | nil => cases h
  | last bytes hne hmem =>
      rw [all_of_not_mem hne hmem] at h
      cases h
  | more first rest hfirst ih =>
      rw [all_append_cons hfirst] at h
      cases hrest : all separator rest with
      | nil =>
          rw [hrest] at h
          cases h
      | cons next others =>
          rw [hrest, List.dropLast_cons_cons] at h
          obtain rfl | h := List.mem_cons.1 h
          · rfl
          · exact ih (hrest ▸ h)

/-! ### The bytes of a record -/

/-- The bytes of each record, its separator left out. -/
def own (separator : UInt8) (bytes : Bytes) : List Bytes :=
  (cut separator bytes).map fun piece =>
    if piece.getLast? = some separator then piece.dropLast else piece

/-- Bytes of a record, followed by the separator if one ended it. -/
def ended (separator : UInt8) (bytes : Bytes) (r : Record) : Bytes :=
  bytes ++ if r.terminated then [separator] else []

/-- A record as it is written. -/
def encode (separator : UInt8) (r : Record) : Bytes := ended separator (Text.utf8 r.content) r

lemma own_append_cons (h : separator ∉ first) (rest : Bytes) :
    own separator (first ++ separator :: rest) = first :: own separator rest := by
  rw [own, cut_of_split (split_append_cons h rest), List.map_cons, if_pos List.getLast?_concat,
    List.dropLast_concat]
  rfl

lemma own_of_not_mem (hne : bytes ≠ []) (h : separator ∉ bytes) :
    own separator bytes = [bytes] := by
  have hlast : bytes.getLast? ≠ some separator := fun hlast => h (List.mem_of_getLast? hlast)
  rw [own, cut_of_split_none (split_eq_none_iff.2 h) hne, List.map_singleton, if_neg hlast]

/-- Every record is what its own bytes read as, and no separator is among them. -/
lemma forall₂_own (separator : UInt8) (bytes : Bytes) :
    List.Forall₂ (fun b r => separator ∉ b ∧ r.content = Text.decode b)
      (own separator bytes) (all separator bytes) := by
  induction bytes using split_induction separator with
  | nil => exact .nil
  | last bytes hne hmem =>
      rw [all_of_not_mem hne hmem, own_of_not_mem hne hmem]
      exact .cons ⟨hmem, rfl⟩ .nil
  | more first rest hfirst ih =>
      rw [all_append_cons hfirst, own_append_cons hfirst]
      exact .cons ⟨hfirst, rfl⟩ ih

/-- The bytes of the records with their separators are all bytes there are. -/
lemma flatten_own (separator : UInt8) (bytes : Bytes) :
    (List.zipWith (ended separator) (own separator bytes) (all separator bytes)).flatten =
      bytes := by
  induction bytes using split_induction separator with
  | nil => rfl
  | last bytes hne hmem =>
      rw [all_of_not_mem hne hmem, own_of_not_mem hne hmem]
      simp [ended]
  | more first rest hfirst ih =>
      rw [all_append_cons hfirst, own_append_cons hfirst, List.zipWith_cons_cons, List.flatten_cons,
        ih]
      simp [ended]

/-- Bytes are read as something. -/
lemma decode_ne_nil (h : bytes ≠ []) : Text.decode bytes ≠ [] := by
  obtain ⟨b, rest, rfl⟩ := List.exists_cons_of_ne_nil h
  rw [Text.decode, expand]
  exact List.cons_ne_nil _ _

/-- A record that nothing ended is not empty. -/
lemma content_ne_nil {r : Record} (h : r ∈ all separator bytes) (hopen : r.terminated = false) :
    r.content ≠ [] := by
  induction bytes using split_induction separator with
  | nil => cases h
  | last bytes hne hmem =>
      rw [all_of_not_mem hne hmem, List.mem_singleton] at h
      subst h
      exact decode_ne_nil hne
  | more first rest hfirst ih =>
      rw [all_append_cons hfirst] at h
      obtain rfl | h := List.mem_cons.1 h
      · cases hopen
      · exact ih h

/-- Where no separator is missing but the last, none is made up for. -/
lemma joined_eq_flatMap {records : List Record} (h : ∀ r ∈ records.dropLast, r.terminated = true) :
    joined separator records = records.flatMap (encode separator) := by
  induction records with
  | nil => rfl
  | cons r rest ih =>
      cases rest with
      | nil => simp [joined, encode, ended]
      | cons next others =>
          rw [List.dropLast_cons_cons, List.forall_mem_cons] at h
          calc joined separator (r :: next :: others)
              = encode separator r ++ joined separator (next :: others) := by
                rw [joined, encode, ended, h.1]
                rfl
            _ = (r :: next :: others).flatMap (encode separator) := by
                rw [ih h.2]
                rfl

/-- The records of UTF-8 are written as they were read. -/
lemma flatMap_encode (hs : separator < 0x80) (t : Text) :
    (all separator (Text.utf8 t)).flatMap (encode separator) = Text.utf8 t := by
  rw [← joined_eq_flatMap fun _ => terminated_of_mem_dropLast]
  simpa [joined] using joined_all_append hs t []

end Record

/-! ### Answers -/

open Input (Call)

/-- What a call gives. -/
inductive Reader.Answer where
  | record (found : Option Record)
  | more (found : Bool)
  deriving DecidableEq, Repr

/-- What calls are to give if some records are still to come. -/
def Record.answers : List Record → List Call → List (Except Fault Reader.Answer)
  | _, [] => []
  | records, .read :: calls => .ok (.record records.head?) :: answers records.tail calls
  | records, .hasNext :: calls => .ok (.more !records.isEmpty) :: answers records calls

/-- The calls that read leave fewer records to those after them. -/
lemma Record.answers_append (records : List Record) (calls more : List Call) :
    answers records (calls ++ more) =
      answers records calls ++ answers (records.drop (calls.count .read)) more := by
  induction calls generalizing records with
  | nil => rfl
  | cons call calls ih =>
      cases call with
      | read =>
          rw [List.cons_append, answers, ih, List.drop_tail, List.count_cons_self]
          rfl
      | hasNext =>
          rw [List.cons_append, answers, ih, List.count_cons_of_ne (by decide)]
          rfl

/-- However often it is looked on, the answer is whether the next reading gives a record. -/
lemma Record.answers_looking (records : List Record) (n : ℕ) :
    answers records (List.replicate n .hasNext ++ [.read]) =
      List.replicate n (.ok (.more records.head?.isSome)) ++ [.ok (.record records.head?)] := by
  induction n with
  | zero => rfl
  | succ n ih =>
      rw [List.replicate_succ, List.cons_append, answers, ih, List.replicate_succ]
      cases records <;> rfl

namespace Reader

/-- What calls give, one after the other. -/
def answers (separator : UInt8) (s : Storage) (r : Reader) :
    List Call → List (Except Fault Answer)
  | [] => []
  | .read :: calls =>
      let (found, r, s) := r.read separator s
      found.map .record :: answers separator s r calls
  | .hasNext :: calls =>
      let (found, r, s) := r.hasNext s
      found.map .more :: answers separator s r calls

section Answers

variable {r : Reader} {separator : UInt8} {s : Storage}

/-- What can be read gives the first of the records that are left, and leaves the others. -/
lemma read_eq (h : r ≠ .folder) (separator : UInt8) (s : Storage) :
    ∃ r' s', r.read separator s = (.ok (Record.all separator (r.left s)).head?, r', s') ∧
      r' ≠ .folder ∧
      Record.all separator (r'.left s') = (Record.all separator (r.left s)).tail := by
  have hreadable := (Input.read_of_readable h separator s).2
  obtain ⟨record, r', s', hread, hall, -⟩ | ⟨-, hleft, -⟩ := r.read_spec separator s
  · rw [hread] at hreadable
    exact ⟨r', s', by rw [hread, hall]; rfl, hreadable, by rw [hall]; rfl⟩
  · rw [hleft]
    cases r with
    | folder => exact absurd rfl h
    | whole rest =>
        obtain rfl : rest = [] := hleft
        exact ⟨.whole [], s, rfl, by simp, rfl⟩
    | pieces waiting feed =>
        obtain ⟨rfl, havailable⟩ : waiting = [] ∧ feed.available s = [] :=
          List.append_eq_nil_iff.1 hleft
        have hnone : takeRecord separator [] [] = ([], [], []) := by
          rw [takeRecord]
          rfl
        refine ⟨.pieces [] (feed.leave s []).1, (feed.leave s []).2, ?_, by simp, ?_⟩
        · rw [read, havailable, hnone]
          rfl
        · rw [left, Feed.available_leave (List.nil_suffix)]
          rfl

/-- What can be read tells whether records are left, and leaves them all. -/
lemma hasNext_eq (h : r ≠ .folder) (separator : UInt8) (s : Storage) :
    ∃ r' s', r.hasNext s = (.ok !(Record.all separator (r.left s)).isEmpty, r', s') ∧
      r' ≠ .folder ∧ Record.all separator (r'.left s') = Record.all separator (r.left s) := by
  have hempty : (Record.all separator (r.left s)).isEmpty = (r.left s).isEmpty := by
    rw [Bool.eq_iff_iff, List.isEmpty_iff, List.isEmpty_iff, Record.all_eq_nil_iff]
  rw [hempty]
  cases r with
  | folder => exact absurd rfl h
  | whole rest => exact ⟨.whole rest, s, rfl, by simp, rfl⟩
  | pieces waiting feed =>
      cases waiting with
      | cons b waiting => exact ⟨.pieces (b :: waiting) feed, s, rfl, by simp, rfl⟩
      | nil =>
          -- a piece is taken to look at, and is at hand from then on
          have hleave := Feed.available_leave (List.drop_suffix pieceSize (feed.available s))
          refine ⟨.pieces ((feed.available s).take pieceSize)
            (feed.leave s ((feed.available s).drop pieceSize)).1,
            (feed.leave s ((feed.available s).drop pieceSize)).2, rfl, by simp, ?_⟩
          rw [left, hleave, List.take_append_drop]
          rfl

/-- The answers are those of the records that are left, however the calls follow each other. -/
lemma answers_eq (h : r ≠ .folder) (calls : List Call) :
    r.answers separator s calls = Record.answers (Record.all separator (r.left s)) calls := by
  induction calls generalizing r s with
  | nil => rfl
  | cons call calls ih =>
      cases call with
      | read =>
          obtain ⟨r', s', hread, hr', hall⟩ := read_eq h separator s
          rw [answers, hread, Record.answers, ← hall, ← ih hr']
          rfl
      | hasNext =>
          obtain ⟨r', s', hnext, hr', hall⟩ := hasNext_eq h separator s
          rw [answers, hnext, Record.answers, ← hall, ← ih hr']
          rfl

/-- A reader that takes pieces answers as one that has the same bytes at hand, however calls that
read and calls that look on follow each other; both answer from the records of these bytes. It is
found that there is more just if the next reading gives a record. Only the last record may lack its
separator, and is not empty then. Each record is what its own bytes read as, which with the
separators are all bytes; and the records of UTF-8 are written as they were read. -/
theorem answers_of_bytes {separator : UInt8} {bytes waiting : Bytes} {feed : Feed} {s : Storage}
    (hbytes : waiting ++ feed.available s = bytes) :
    let records := Record.all separator bytes
    (∀ calls, (pieces waiting feed).answers separator s calls =
      (whole bytes).answers separator s calls) ∧
    (∀ calls, (whole bytes).answers separator s calls = Record.answers records calls) ∧
    (∀ calls n, ∃ found : Option Record,
      (whole bytes).answers separator s (calls ++ (List.replicate (n + 1) .hasNext ++ [.read])) =
        (whole bytes).answers separator s calls ++
          (List.replicate (n + 1) (.ok (.more found.isSome)) ++ [.ok (.record found)])) ∧
    (∀ r ∈ records.dropLast, r.terminated = true) ∧
    (∀ r ∈ records, r.terminated = false → r.content ≠ []) ∧
    (∃ own : List Bytes,
      List.Forall₂ (fun b r => separator ∉ b ∧ r.content = Text.decode b) own records ∧
      (List.zipWith (Record.ended separator) own records).flatten = bytes) ∧
    (separator < 0x80 → ∀ t, bytes = Text.utf8 t →
      records.flatMap (Record.encode separator) = bytes) := by
  intro records
  have hpieces (calls : List Call) : (pieces waiting feed).answers separator s calls =
      Record.answers records calls := by
    rw [answers_eq (by simp), left, hbytes]
  have hwhole (calls : List Call) : (whole bytes).answers separator s calls =
      Record.answers records calls := answers_eq (by simp) calls
  refine ⟨fun calls => (hpieces calls).trans (hwhole calls).symm, hwhole, fun calls n => ?_,
    fun r => Record.terminated_of_mem_dropLast, fun r => Record.content_ne_nil,
    ⟨Record.own separator bytes, Record.forall₂_own separator bytes,
      Record.flatten_own separator bytes⟩, ?_⟩
  · refine ⟨(records.drop (calls.count .read)).head?, ?_⟩
    rw [hwhole, hwhole, Record.answers_append, Record.answers_looking]
  · rintro hs t rfl
    exact Record.flatMap_encode hs t

/-- Of the bytes of two records one is at hand and the others wait on the standard input. -/
theorem answers_of_bytes_input :
    let s : Storage := { Storage.empty with standardInput := [0xC3, 0xA9, 10, 0xFF] }
    let bytes : Bytes := [0x61, 0xC3, 0xA9, 10, 0xFF]
    [0x61] ++ Feed.standardInput.available s = bytes ∧
      (pieces [0x61] .standardInput).answers 10 s [.hasNext, .read, .read, .hasNext, .read] =
        (whole bytes).answers 10 s [.hasNext, .read, .read, .hasNext, .read] ∧
      (whole bytes).answers 10 s [.hasNext, .read, .read, .hasNext, .read] =
        [.ok (.more true), .ok (.record (some ⟨['a', 'é'], true⟩)),
          .ok (.record (some ⟨['\uFFFD'], false⟩)), .ok (.more false), .ok (.record none)] := by
  intro s bytes
  have hbytes : [0x61] ++ Feed.standardInput.available s = bytes := rfl
  refine ⟨hbytes, (answers_of_bytes hbytes).1 _, ?_⟩
  exact ((answers_of_bytes hbytes).2.1 _).trans (by decide)

end Answers

end Reader

end StreamEditor
