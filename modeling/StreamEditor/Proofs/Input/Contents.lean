import StreamEditor.Proofs.Input.Delivered
import StreamEditor.Proofs.Text.Encoded

/-!
What files hold, and the records that come of it.

* `Record.joined`: records one after the other, in which no separator is missing but the last.
* `Input.newline_not_mem_of_fromFiles`: records that end in newlines hold no others.
* `Input.Holds`: the contents of files that can be read. `Input.records_fromFiles`: they are
  delivered as the records of each.
* `Input.joined`: files one after the other; `Input.joined_records` says that joining the records of
  files that hold UTF-8 joins the files.
* `Input.Readable`: every file that is still to be read can be. Reading then reports nothing
  (`Input.Readable.read`).
-/

namespace StreamEditor

/-! ### Records -/

namespace Record

/-- The bytes of records one after the other. Where another record follows there is a separator,
even if there was none. -/
def joined (separator : UInt8) : List Record → Bytes
  | [] => []
  | r :: rest =>
      Text.utf8 r.content ++ (if r.terminated || !rest.isEmpty then [separator] else [])
        ++ joined separator rest

section Encoded

variable {separator : UInt8} {t : Text} {first rest bytes : Bytes}

/-- A text is split at a character, so that both parts are texts. -/
lemma exists_utf8_of_split (hs : separator < 0x80)
    (h : split separator (Text.utf8 t) = some (first, rest)) :
    ∃ t₁ t₂, first = Text.utf8 t₁ ++ [separator] ∧ rest = Text.utf8 t₂ := by
  induction t generalizing first with
  | nil => cases h
  | cons c t ih =>
      rw [Text.utf8, List.flatMap_cons] at h
      by_cases hmem : separator ∈ String.utf8EncodeChar c
      · rw [eq_singleton_of_mem_encode hs hmem, List.singleton_append, split, if_pos rfl] at h
        cases h
        exact ⟨[], t, rfl, rfl⟩
      · rw [split_append_of_none (split_eq_none_iff.2 hmem)] at h
        obtain ⟨⟨first', rest'⟩, hsplit, he⟩ := Option.map_eq_some_iff.1 h
        cases he
        obtain ⟨t₁, t₂, rfl, rfl⟩ := ih hsplit
        exact ⟨c :: t₁, t₂, (List.append_assoc ..).symm, rfl⟩

/-- Where records follow those of a text, its last separator is made up for. -/
lemma joined_all_append (hs : separator < 0x80) (t : Text) (more : List Record) :
    joined separator (all separator (Text.utf8 t) ++ more) =
      Text.utf8 t ++
        (if (Text.utf8 t).getLast?.any (· ≠ separator) && !more.isEmpty then [separator] else [])
        ++ joined separator more := by
  -- The induction is on the number of bytes. A separator is a character of its own, so that what is
  -- behind it is encoded text again.
  induction hn : (Text.utf8 t).length using Nat.strong_induction_on generalizing t with
  | _ n ih =>
      rcases hsplit : split separator (Text.utf8 t) with _ | ⟨first, rest⟩
      · have hmem := split_eq_none_iff.1 hsplit
        by_cases hnil : Text.utf8 t = []
        · rw [hnil]
          rfl
        · have hlast : (Text.utf8 t).getLast? ≠ some separator :=
            fun hlast => hmem (List.mem_of_getLast? hlast)
          rw [all_of_split_none hsplit hnil, List.singleton_append, joined, ofBytes, if_neg hlast,
            Text.decode_utf8, Bool.false_or]
          obtain ⟨b, hb⟩ := Option.ne_none_iff_exists'.1
            fun hnone => hnil (List.getLast?_eq_none_iff.1 hnone)
          have hne : b ≠ separator := by
            rintro rfl
            exact hlast hb
          simp [hb, hne]
      · obtain ⟨t₁, t₂, rfl, rfl⟩ := exists_utf8_of_split hs hsplit
        have hbytes := append_of_split hsplit
        have hlength : (Text.utf8 t₂).length < n := by
          rw [← hn, ← hbytes, List.length_append, List.length_append, List.length_singleton]
          omega
        have hlast : (Text.utf8 t).getLast?.any (· ≠ separator) =
            (Text.utf8 t₂).getLast?.any (· ≠ separator) := by
          rw [← hbytes, List.getLast?_append, List.getLast?_concat]
          cases (Text.utf8 t₂).getLast? <;> simp
        rw [all_of_split hsplit, List.cons_append, joined, ih _ hlength t₂ rfl, ofBytes,
          if_pos List.getLast?_concat, List.dropLast_concat, Text.decode_utf8, hlast, ← hbytes]
        simp only [Bool.true_or, if_true, List.append_assoc, List.cons_append, List.nil_append]

end Encoded

section Newlines

variable {separator : UInt8} {bytes : Bytes} {r : Record}

lemma not_mem_dropLast_of_cut {piece : Bytes} (h : piece ∈ cut separator bytes) :
    separator ∉ piece.dropLast := by
  fun_induction cut separator bytes generalizing piece with
  | case1 => cases h
  | case2 rest ih =>
      obtain rfl | h := List.mem_cons.1 h
      · exact List.not_mem_nil
      · exact ih h
  | case3 b rest hb first others hcut ih =>
      obtain rfl | h := List.mem_cons.1 h
      · have hfirst := ih (hcut ▸ List.mem_cons_self ..)
        cases first with
        | nil => exact List.not_mem_nil
        | cons b' first => exact List.not_mem_cons_of_ne_of_not_mem (Ne.symm hb) hfirst
      · exact ih (hcut ▸ List.mem_cons_of_mem _ h)
  | case4 b rest hb hcut ih =>
      rw [List.mem_singleton.1 h]
      exact List.not_mem_nil

/-- Between newlines there are no others. -/
lemma newline_not_mem_of_all (h : r ∈ all 10 bytes) : '\n' ∉ r.content := by
  obtain ⟨piece, hpiece, rfl⟩ := List.mem_map.1 h
  have hmem := not_mem_dropLast_of_cut hpiece
  intro hnewline
  rw [ofBytes] at hnewline
  split at hnewline
  · exact hmem (Text.newline_mem_of_decode hnewline)
  · rename_i hlast
    have hin := Text.newline_mem_of_decode hnewline
    rcases List.eq_nil_or_concat' piece with rfl | ⟨front, b, rfl⟩
    · exact absurd hin List.not_mem_nil
    · rw [List.dropLast_concat] at hmem
      rw [List.getLast?_concat] at hlast
      obtain hfront | he := List.mem_append.1 hin
      · exact hmem hfront
      · exact hlast (congrArg some (List.mem_singleton.1 he).symm)

end Newlines

end Record

/-! ### Files -/

namespace Input

/-- What the files with some names hold. Each of them can be read, and is read to its end before the
next one is opened: of the standard input nothing is left then. -/
inductive Holds : Storage → List Text → List Bytes → Prop where
  | nil (s : Storage) : Holds s [] []
  | cons {s : Storage} {name : Text} {r : Reader} {names : List Text} {contents : List Bytes}
      (opened : Reader.open? s name = .ok r) (readable : r ≠ .folder)
      (rest : Holds (r.spent s) names contents) : Holds s (name :: names) (r.left s :: contents)

/-- Files one after the other. A file that lacks its last separator gets one if another byte
follows. -/
def joined (separator : UInt8) : List Bytes → Bytes
  | [] => []
  | contents :: rest =>
      contents ++ (if contents.getLast?.any (· ≠ separator) && rest.any (· ≠ []) then [separator]
        else [])
        ++ joined separator rest

section Holds

variable {separator : UInt8} {s : Storage} {names : List Text} {contents : List Bytes}

lemma get?_of_open? {name : Text} {path : Path} {bytes : Bytes}
    (h : s.open? name = .ok (.file path bytes)) : s.get? path = some bytes := by
  rw [Storage.open?] at h
  split at h
  · cases h
  · rename_i way asFolder _
    split at h
    · rename_i node hdevice
      cases h
      rw [Storage.device?] at hdevice
      split_ifs at hdevice <;> cases hdevice
    · split at h
      · rename_i bytes' hget
        split at h <;> cases h
        exact hget
      · split at h <;> cases h

/-- A file that is found under a name is read as it is. -/
lemma Holds.file {name : Text} {path : Path} {bytes : Bytes} (hname : name ≠ ['-'])
    (hopen : s.open? name = .ok (.file path bytes)) (h : Holds s names contents) :
    Holds s (name :: names) (bytes :: contents) := by
  have hopened : Reader.open? s name =
      .ok (if bytes.isEmpty then .pieces [] (.file path 0) else .whole bytes) := by
    rw [Reader.open?, if_neg hname, hopen]
  cases bytes with
  | nil =>
      have hempty : (Reader.pieces [] (.file path 0)).left s = [] := by
        rw [Reader.left, Feed.available, get?_of_open? hopen]
        rfl
      rw [← hempty]
      exact .cons hopened (by simp) h
  | cons b bytes => exact .cons hopened (by simp) h

/-- What is between newlines holds none. -/
lemma newline_not_mem_of_fromFiles {d : Delivery} {index : ℕ} (h : d ∈ fromFiles 10 s index names) :
    '\n' ∉ d.record.content := by
  induction names generalizing s index with
  | nil => cases h
  | cons name names ih =>
      rw [fromFiles] at h
      split at h
      · obtain h | h := List.mem_append.1 h
        · obtain ⟨r, hr, rfl⟩ := List.mem_map.1 h
          exact Record.newline_not_mem_of_all hr
        · exact ih h
      · exact ih h

/-- Files deliver the records of each. -/
lemma records_fromFiles (h : Holds s names contents) (separator : UInt8) (index : ℕ) :
    (fromFiles separator s index names).map (·.record) =
      contents.flatMap (Record.all separator) := by
  induction h generalizing index with
  | nil s => rfl
  | cons hopened hreadable hrest ih =>
      rw [fromFiles, hopened]
      dsimp only
      rw [List.map_append, ih, fromReader, List.map_map, List.flatMap_cons]
      congr 1
      exact List.map_id'' (fun _ => rfl) _

/-- Joining the records of files joins the files. -/
lemma joined_records (hs : separator < 0x80) (h : ∀ bytes ∈ contents, ∃ t, bytes = Text.utf8 t) :
    Record.joined separator (contents.flatMap (Record.all separator)) =
      joined separator contents := by
  induction contents with
  | nil => rfl
  | cons bytes contents ih =>
      obtain ⟨t, rfl⟩ := h bytes (List.mem_cons_self ..)
      have hmore : (contents.flatMap (Record.all separator)).isEmpty = !contents.any (· ≠ []) := by
        rw [Bool.eq_iff_iff]
        simp [Record.all_eq_nil_iff]
      rw [List.flatMap_cons, Record.joined_all_append hs, joined, hmore, Bool.not_not,
        ih fun b hb => h b (List.mem_cons_of_mem _ hb)]

end Holds

/-! ### Reading without a fault -/

/-- The files after what is being read has given all its bytes. -/
def spent (i : Input) (s : Storage) : Storage := i.reader.elim s (·.spent s)

/-- What is being read can be read, and so can the files with the names `pending` after it. -/
structure ReadableWith (s : Storage) (i : Input) (pending : List Text) : Prop where
  reader : i.reader ≠ some .folder
  pending : ∃ contents, Holds (i.spent s) pending contents

/-- Every file that is still to be read can be read. -/
def Readable (s : Storage) (i : Input) : Prop := i.ReadableWith s i.pending

lemma read_of_readable {r : Reader} (h : r ≠ .folder) (separator : UInt8) (s : Storage) :
    (∃ found, (r.read separator s).1 = .ok found) ∧ (r.read separator s).2.1 ≠ .folder := by
  unfold Reader.read
  split
  · exact ⟨⟨_, rfl⟩, by simp⟩
  · split <;> exact ⟨⟨_, rfl⟩, by simp⟩
  · exact ⟨⟨_, rfl⟩, by simp⟩
  · exact absurd rfl h

section Readable

variable {i : Input} {env : Environment} {pending : List Text}

/-- Reading changes only how much of what is being read is left. -/
lemma readCurrent_of_readable (env : Environment) (h : i.reader ≠ some .folder) :
    ∃ s, (i.readCurrent env).2.2 = { env with storage := s } ∧
      (i.readCurrent env).2.1.reader ≠ some .folder ∧
      (i.readCurrent env).2.1.spent s = i.spent env.storage := by
  unfold spent
  rw [readCurrent]
  cases hr : i.reader with
  | none => exact ⟨env.storage, rfl, by simp [hr], by simp [hr]⟩
  | some r =>
      obtain ⟨⟨found, hfound⟩, hreadable⟩ :=
        read_of_readable (fun hfolder => h (hr.trans (congrArg some hfolder))) i.separator
          env.storage
      have hspec := r.read_spec i.separator env.storage
      dsimp only
      rcases hread : r.read i.separator env.storage with ⟨answer, r', s⟩
      rw [hread] at hfound hreadable hspec
      dsimp only at hfound hreadable hspec
      subst hfound
      cases found with
      | none =>
          obtain ⟨_, _, _, he, -⟩ | ⟨-, -, hspent⟩ := hspec
          · cases he
          · exact ⟨s, rfl, by simp, hspent⟩
      | some record =>
          obtain ⟨_, _, _, he, -, hspent⟩ | ⟨he | ⟨_, he⟩, -⟩ := hspec
          · cases he
            exact ⟨s, rfl, by simpa using hreadable, hspent⟩
          · cases he
          · cases he

lemma ReadableWith.readFrom (h : i.ReadableWith env.storage pending) :
    ∃ s, (i.readFrom env pending).2.2 = { env with storage := s } ∧
      (i.readFrom env pending).2.1.Readable s := by
  induction pending generalizing i env with
  | nil =>
      obtain ⟨s, henv, hreader, -⟩ := readCurrent_of_readable env h.reader
      exact ⟨s, henv, hreader, [], .nil _⟩
  | cons name rest ih =>
      obtain ⟨s, henv, hreader, hspent⟩ := readCurrent_of_readable env h.reader
      obtain ⟨contents, hholds⟩ := h.pending
      rw [← hspent] at hholds
      rw [Input.readFrom]
      rcases hcurrent : i.readCurrent env with ⟨_ | record, i₁, env₁⟩ <;>
        rw [hcurrent] at henv hreader hspent hholds <;> dsimp only at henv hreader hspent hholds <;>
        subst henv
      · -- A file with no record left is closed before the next one is opened.
        have hnone : i₁.reader = none := by
          obtain ⟨_, _, _, he, -⟩ | ⟨_, he, -⟩ := i.leftWith_readCurrent env []
          · rw [hcurrent] at he
            cases he
          · rw [hcurrent] at he
            cases he
            rfl
        rw [spent, hnone] at hholds
        cases hholds with
        | cons hopened hreadable hrest =>
            dsimp only
            rw [enter]
            dsimp only [Option.elim] at hopened
            rw [hopened]
            refine ih ⟨?_, _, hrest⟩
            simpa using hreadable
      · exact ⟨s, rfl, hreader, contents, hholds⟩

/-- Reading reports nothing. -/
lemma Readable.read (h : i.Readable env.storage) :
    ∃ s, (i.read env).2.2 = { env with storage := s } ∧ (i.read env).2.1.Readable s :=
  ReadableWith.readFrom h

end Readable

end Input

end StreamEditor
