import StreamEditor.Storage

/-!
Records, and readers that take them from files and streams one by one.

* `Record`: a text, and whether a separator ended it.
* `Record.split`: the bytes up to and including the first separator, and the rest. Nothing is
  lost by it (`append_of_split`).
* `Reader`: what is still to be read of a file, either all at once or in pieces as they are
  asked for.
* `Reader.read`, `Reader.hasNext`: the next record, and whether there is one.
-/

namespace StreamEditor

/-- A piece of input or output without its separator. -/
structure Record where
  content : Text
  /-- A separator ended the record. -/
  terminated : Bool
  deriving DecidableEq, Repr, Inhabited

namespace Record

/-- The record of bytes that may end in a separator. -/
def ofBytes (separator : UInt8) (bytes : Bytes) : Record :=
  if bytes.getLast? = some separator then ⟨Text.decode bytes.dropLast, true⟩
  else ⟨Text.decode bytes, false⟩

/-- The bytes up to and including the first separator, and the bytes after it. -/
def split (separator : UInt8) : Bytes → Option (Bytes × Bytes)
  | [] => none
  | b :: rest =>
      if b = separator then some ([b], rest)
      else (split separator rest).map fun (first, others) => (b :: first, others)

/-- Splitting loses nothing. -/
theorem append_of_split {separator : UInt8} {bytes first rest : Bytes}
    (h : split separator bytes = some (first, rest)) : first ++ rest = bytes := by
  induction bytes generalizing first with
  | nil => simp [split] at h
  | cons b others ih =>
    rw [split] at h
    split at h
    · cases h
      rfl
    · obtain ⟨⟨a, r⟩, hr, he⟩ := Option.map_eq_some_iff.1 h
      cases he
      rw [List.cons_append, ih hr]

/-- The first part ends in the separator. -/
theorem getLast?_of_split {separator : UInt8} {bytes first rest : Bytes}
    (h : split separator bytes = some (first, rest)) : first.getLast? = some separator := by
  induction bytes generalizing first with
  | nil => simp [split] at h
  | cons b others ih =>
    rw [split] at h
    split at h
    · rename_i hb
      cases h
      rw [hb]
      rfl
    · obtain ⟨⟨a, r⟩, hr, he⟩ := Option.map_eq_some_iff.1 h
      cases he
      rw [List.getLast?_cons, ih hr]
      rfl

/-- Only bytes without a separator cannot be split. -/
theorem split_eq_none_iff {separator : UInt8} {bytes : Bytes} :
    split separator bytes = none ↔ separator ∉ bytes := by
  induction bytes with
  | nil => simp [split]
  | cons b others ih =>
    rw [split]
    split
    · rename_i hb
      simp [hb]
    · rename_i hb
      rw [Option.map_eq_none_iff, ih, List.mem_cons, not_or]
      exact ⟨fun h => ⟨fun he => hb he.symm, h⟩, And.right⟩

end Record

/-- Where a reader finds more bytes. -/
inductive Feed where
  | memory (rest : Bytes)
  /-- A file that may still grow; the bytes before `offset` are read. -/
  | file (path : Path) (offset : Nat)
  | standardInput
  deriving DecidableEq, Repr, Inhabited

namespace Feed

/-- The bytes that can be read now. -/
def available (s : Storage) : Feed → Bytes
  | memory rest => rest
  | file path offset => ((s.get? path).getD []).drop offset
  | standardInput => s.standardInput

/-- The feed, and the files, after all available bytes but `rest` are read. -/
def leave (s : Storage) (rest : Bytes) : Feed → Feed × Storage
  | memory _ => (memory rest, s)
  | file path _ => (file path (((s.get? path).getD []).length - rest.length), s)
  | standardInput => (standardInput, { s with standardInput := rest })

end Feed

/-- What is still to be read of a file or a stream. -/
inductive Reader where
  /-- All of it is at hand. -/
  | whole (rest : Bytes)
  /-- `waiting` is at hand, and the feed gives more. -/
  | pieces (waiting : Bytes) (feed : Feed)
  /-- A folder can be opened, but not read. -/
  | folder
  deriving DecidableEq, Repr, Inhabited

namespace Reader

/-- The number of bytes that are taken from a feed at a time. -/
def pieceSize : Nat := 8192

/-- Opens what a name leads to; `-` is the standard input. -/
def open? (s : Storage) (name : Text) : Except Fault Reader :=
  if name = ['-'] then .ok (.pieces [] .standardInput)
  else
    match s.open? name with
    | .error fault => .error fault
    | .ok (.file path contents) =>
        .ok (if contents.isEmpty then .pieces [] (.file path 0) else .whole contents)
    | .ok .folder => .ok .folder
    | .ok .standardInput => .ok (.pieces [] .standardInput)
    | .ok .fullDevice => .error .notFound
    | .ok .nullDevice => .ok (.pieces [] (.memory []))

/-- Takes the bytes of a record from those at hand and, piece by piece, from a source: the
record, the bytes then at hand, and the rest of the source. -/
def takeRecord (separator : UInt8) (waiting source : Bytes) : Bytes × Bytes × Bytes :=
  match Record.split separator waiting with
  | some (first, rest) => (first, rest, source)
  | none =>
      if _h : source = [] then (waiting, [], [])
      else
        let (first, rest, source) :=
          takeRecord separator (source.take pieceSize) (source.drop pieceSize)
        (waiting ++ first, rest, source)
termination_by source.length
decreasing_by
  have := List.length_pos_iff.2 _h
  simp only [List.length_drop, pieceSize]
  omega

/-- The next record, and the reader and the files after it. -/
def read (separator : UInt8) (s : Storage) :
    Reader → Except Fault (Option Record) × Reader × Storage
  | whole [] => (.ok none, whole [], s)
  | whole rest =>
      match Record.split separator rest with
      | some (first, rest) => (.ok (some (.ofBytes separator first)), whole rest, s)
      | none => (.ok (some (.ofBytes separator rest)), whole [], s)
  | pieces waiting feed =>
      let (first, waiting, rest) := takeRecord separator waiting (feed.available s)
      let (feed, s) := feed.leave s rest
      let found := if first.isEmpty then none else some (.ofBytes separator first)
      (.ok found, pieces waiting feed, s)
  | folder => (.error .isFolder, folder, s)

/-- Whether there is another record, and the reader and the files after looking. -/
def hasNext (s : Storage) : Reader → Except Fault Bool × Reader × Storage
  | whole rest => (.ok !rest.isEmpty, whole rest, s)
  | pieces [] feed =>
      let source := feed.available s
      let (feed, s) := feed.leave s (source.drop pieceSize)
      (.ok !source.isEmpty, pieces (source.take pieceSize) feed, s)
  | pieces waiting feed => (.ok true, pieces waiting feed, s)
  | folder => (.error .isFolder, folder, s)

end Reader

end StreamEditor
