import StreamEditor.Input
import StreamEditor.Proofs.Input.Records

/-!
What the input gives, record by record.

* `Input.deliveries`: the records of all files that can be opened, in order, each with the file that
  it came from.
* `Input.left`: what is still to be delivered. Reading takes the first of it
  (`Input.reads_readFrom`), looking on takes nothing (`Input.looks_hasNextFrom`).
* `Input.readerIndex_le_readFrom`, `Input.readerIndex_le_hasNextFrom`: no file is gone back to.
* `Input.Stands`: where the input stands after some calls, however those that read and those that
  look on follow each other.
-/

namespace StreamEditor

/-! ### Files -/

/-- A record and the file that it came from. -/
structure Delivery where
  record : Record
  /-- The name of the file. -/
  file : Text
  /-- The number of the file among those that could be opened, counted from one. -/
  index : ℕ
  deriving DecidableEq, Repr

namespace Input

/-- What a reader still delivers from a file. -/
def fromReader (separator : UInt8) (s : Storage) (file : Text) (index : ℕ) (r : Reader) :
    List Delivery :=
  (Record.all separator (r.left s)).map fun record => ⟨record, file, index⟩

/-- What the files with some names deliver; `index` counts those opened before. A file that
cannot be opened delivers nothing and does not count. -/
def fromFiles (separator : UInt8) : Storage → ℕ → List Text → List Delivery
  | _, _, [] => []
  | s, index, file :: rest =>
      match Reader.open? s file with
      | .ok r =>
          fromReader separator s file (index + 1) r
            ++ fromFiles separator (r.spent s) (index + 1) rest
      | .error _ => fromFiles separator s index rest

/-- What files deliver; without any, the standard input. -/
def deliveries (separator : UInt8) (s : Storage) (files : List Text) : List Delivery :=
  fromFiles separator s 0 (if files.isEmpty then [['-']] else files)

/-- What is still to be delivered if the files `pending` come after what is being read. -/
def leftWith (i : Input) (s : Storage) (pending : List Text) : List Delivery :=
  match i.reader with
  | none => fromFiles i.separator s i.readerIndex pending
  | some r =>
      fromReader i.separator s i.readerName i.readerIndex r
        ++ fromFiles i.separator (r.spent s) i.readerIndex pending

/-- What is still to be delivered. -/
def left (i : Input) (env : Environment) : List Delivery := i.leftWith env.storage i.pending

section Files

variable {separator : UInt8} {s : Storage} {index : ℕ} {files : List Text} {d : Delivery}

lemma index_lt_of_mem_fromFiles (h : d ∈ fromFiles separator s index files) : index < d.index := by
  induction files generalizing s index with
  | nil => cases h
  | cons file rest ih =>
      rw [fromFiles] at h
      split at h
      · rename_i r _
        rcases List.mem_append.1 h with h | h
        · obtain ⟨record, -, rfl⟩ := List.mem_map.1 h
          exact Nat.lt_succ_self index
        · exact (Nat.lt_succ_self index).trans (ih h)
      · exact ih h

lemma exists_mem_leftWith {i : Input} {r : Reader} (hr : i.reader = some r) (hne : r.left s ≠ [])
    (pending : List Text) : ∃ d ∈ i.leftWith s pending, d.index = i.readerIndex := by
  have hall : Record.all i.separator (r.left s) ≠ [] :=
    fun h => hne (Record.all_eq_nil_iff.1 h)
  obtain ⟨record, records, hrecords⟩ := List.exists_cons_of_ne_nil hall
  refine ⟨⟨record, i.readerName, i.readerIndex⟩, ?_, rfl⟩
  rw [leftWith, hr]
  simp [fromReader, hrecords]

/-- What is being read comes before what is opened later. -/
lemma mem_leftWith {i : Input} {pending : List Text} (h : d ∈ i.leftWith s pending) :
    (∃ r, i.reader = some r ∧ r.left s ≠ [] ∧ d.index = i.readerIndex) ∨
      i.readerIndex < d.index := by
  rw [leftWith] at h
  split at h
  · exact .inr (index_lt_of_mem_fromFiles h)
  · rename_i r hr
    rcases List.mem_append.1 h with h | h
    · obtain ⟨record, hrecord, rfl⟩ := List.mem_map.1 h
      refine .inl ⟨r, hr, fun hnil => ?_, rfl⟩
      rw [hnil] at hrecord
      cases hrecord
    · exact .inr (index_lt_of_mem_fromFiles h)

end Files

/-! ### Reading and looking on in the present file -/

section Current

variable (i : Input) (env : Environment) (pending : List Text)

lemma leftWith_of_none {i : Input} (h : i.reader = none) (s : Storage) (pending : List Text) :
    i.leftWith s pending = fromFiles i.separator s i.readerIndex pending := by
  rw [leftWith, h]

/-- Where a reader has nothing left, only the files to come are. -/
lemma leftWith_of_spent {i : Input} {r : Reader} {s : Storage} (h : i.reader = some r)
    (hr : r.left s = []) (pending : List Text) :
    i.leftWith s pending = fromFiles i.separator (r.spent s) i.readerIndex pending := by
  rw [leftWith, h]
  dsimp only
  rw [fromReader, hr]
  rfl

/-- The record is the first one left, or there is none in the present file. -/
lemma leftWith_readCurrent :
    (∃ record r' s', i.readCurrent env = (some record,
        { i with reader := some r', recordName := i.readerName, recordIndex := i.readerIndex },
        { env with storage := s' }) ∧
      i.leftWith env.storage pending = ⟨record, i.readerName, i.readerIndex⟩ ::
        { i with reader := some r' }.leftWith s' pending) ∨
      ∃ env', i.readCurrent env = (none, { i with reader := none }, env') ∧
        i.leftWith env.storage pending = { i with reader := none }.leftWith env'.storage
          pending := by
  cases hr : i.reader with
  | none =>
      refine .inr ⟨env, by rw [readCurrent, hr]; dsimp only; rw [← hr], ?_⟩
      rw [leftWith_of_none hr, leftWith_of_none rfl]
  | some r =>
      rw [readCurrent, hr]
      dsimp only
      obtain ⟨record, r', s', hread, hall, hspent⟩ | ⟨hread, hnil, hspent⟩ :=
        r.read_spec i.separator env.storage
      · refine .inl ⟨record, r', s', by rw [hread], ?_⟩
        rw [leftWith, hr, leftWith]
        simp only [fromReader, hall, hspent, List.map_cons, List.cons_append]
      · refine .inr ?_
        rw [leftWith_of_spent hr hnil]
        rcases hr' : r.read i.separator env.storage with ⟨answer, r', s'⟩
        rw [hr'] at hread hspent
        dsimp only at hread hspent
        rcases hread with rfl | ⟨fault, rfl⟩
        · exact ⟨_, rfl, by rw [leftWith_of_none rfl, ← hspent]⟩
        · exact ⟨_, rfl, by rw [leftWith_of_none rfl, ← hspent]; rfl⟩

/-- Looking on tells whether anything is left in the present file, and takes nothing. -/
lemma leftWith_hasNextCurrent :
    (∃ r r' s', i.reader = some r ∧ r.left env.storage ≠ [] ∧
        i.hasNextCurrent env = (true, { i with reader := some r' }, { env with storage := s' }) ∧
        { i with reader := some r' }.leftWith s' pending = i.leftWith env.storage pending) ∨
      ∃ env', i.hasNextCurrent env = (false, { i with reader := none }, env') ∧
        { i with reader := none }.leftWith env'.storage pending = i.leftWith env.storage pending ∧
        ∀ r, i.reader = some r → r.left env.storage = [] := by
  cases hr : i.reader with
  | none =>
      refine .inr ⟨env, by rw [hasNextCurrent, hr]; dsimp only; rw [← hr], ?_, nofun⟩
      rw [leftWith_of_none hr, leftWith_of_none rfl]
  | some r =>
      rw [hasNextCurrent, hr]
      dsimp only
      obtain ⟨r', s', hnext, hne, hleft, hspent⟩ | ⟨hnext, hnil, hspent⟩ :=
        r.hasNext_spec env.storage
      · refine .inl ⟨r, r', s', rfl, hne, by rw [hnext], ?_⟩
        rw [leftWith, leftWith, hr]
        simp only [fromReader, hleft, hspent]
      · refine .inr ?_
        rw [leftWith_of_spent hr hnil]
        rcases hr' : r.hasNext env.storage with ⟨answer, r', s'⟩
        rw [hr'] at hnext hspent
        dsimp only at hnext hspent
        have hleft : ∀ r', some r = some r' → r'.left env.storage = [] := by
          rintro _ ⟨⟩
          exact hnil
        rcases hnext with rfl | ⟨fault, rfl⟩
        · exact ⟨_, rfl, by rw [leftWith_of_none rfl, ← hspent], hleft⟩
        · exact ⟨_, rfl, by rw [leftWith_of_none rfl, ← hspent]; rfl, hleft⟩

end Current

/-! ### Going through the files -/

section Pending

variable (i : Input) (env : Environment) (pending : List Text)

/-- Opening a file, or passing one over, takes nothing. Only the number of files opened and what is
being read change. -/
lemma leftWith_enter {i : Input} (h : i.reader = none) (env : Environment) (name : Text)
    (rest : List Text) :
    ∃ reader file index env', i.enter env name =
        ({ i with reader, readerName := file, readerIndex := index }, env') ∧
      { i with reader, readerName := file, readerIndex := index }.leftWith env'.storage rest =
        i.leftWith env.storage (name :: rest) := by
  rw [leftWith_of_none h, fromFiles, enter]
  cases Reader.open? env.storage name with
  | ok r => exact ⟨some r, name, i.readerIndex + 1, env, rfl, rfl⟩
  | error fault =>
      refine ⟨none, i.readerName, i.readerIndex, _, by rw [← h], ?_⟩
      rw [leftWith_of_none rfl]
      rfl

/-- What reading makes of what is left: its first record is given, and the file that it came from is
the present one. If nothing is left, nothing changes. -/
structure Reads (due : List Delivery) (i : Input) (found : Option Record) (i' : Input)
    (env' : Environment) : Prop where
  found : found = due.head?.map (·.record)
  left : i'.left env' = due.tail
  origin : (i'.recordName, i'.recordIndex) =
    due.head?.elim (i.recordName, i.recordIndex) fun d => (d.file, d.index)
  current : ∀ d ∈ due.head?, i'.readerIndex = d.index
  separate : i'.separate = i.separate

lemma reads_readFrom :
    Reads (i.leftWith env.storage pending) i (i.readFrom env pending).1
      (i.readFrom env pending).2.1 (i.readFrom env pending).2.2 := by
  induction pending generalizing i env with
  | nil =>
      obtain ⟨record, r', s', hread, hleft⟩ | ⟨env', hread, hleft⟩ :=
        i.leftWith_readCurrent env []
      · rw [readFrom, hread, hleft]
        exact ⟨rfl, rfl, rfl, by simp, rfl⟩
      · rw [readFrom, hread, hleft, leftWith_of_none rfl]
        exact ⟨rfl, rfl, rfl, by simp [fromFiles], rfl⟩
  | cons name rest ih =>
      obtain ⟨record, r', s', hread, hleft⟩ | ⟨env', hread, hleft⟩ :=
        i.leftWith_readCurrent env (name :: rest)
      · rw [readFrom, hread, hleft]
        exact ⟨rfl, rfl, rfl, by simp, rfl⟩
      · obtain ⟨reader, file, index, env₁, henter, hentered⟩ :=
          leftWith_enter (i := { i with reader := none }) rfl env' name rest
        rw [readFrom, hread]
        dsimp only
        rw [henter, hleft, ← hentered]
        exact { ih { i with reader, readerName := file, readerIndex := index } env₁ with }

/-- What looking on makes of what is left: it finds out whether anything is left, among files that
are streams of their own in the present one, and changes nothing. -/
structure Looks (due : List Delivery) (i : Input) (found : Bool) (i' : Input)
    (env' : Environment) : Prop where
  found : found = true ↔ ∃ d ∈ due, i.separate = false ∨ d.index = i.readerIndex
  left : i'.left env' = due
  origin : (i'.recordName, i'.recordIndex) = (i.recordName, i.recordIndex)
  current : i.separate = true → i'.readerIndex = i.readerIndex
  separate : i'.separate = i.separate

lemma looks_hasNextFrom :
    Looks (i.leftWith env.storage pending) i (i.hasNextFrom env pending).1
      (i.hasNextFrom env pending).2.1 (i.hasNextFrom env pending).2.2 := by
  induction pending generalizing i env with
  | nil =>
      obtain ⟨r, r', s', hr, hne, hnext, hleft⟩ | ⟨env', hnext, hleft, -⟩ :=
        i.leftWith_hasNextCurrent env []
      · rw [hasNextFrom, hnext]
        obtain ⟨d, hd, hindex⟩ := exists_mem_leftWith hr hne []
        exact ⟨iff_of_true rfl ⟨d, hd, .inr hindex⟩, hleft, rfl, fun _ => rfl, rfl⟩
      · rw [hasNextFrom, hnext, ← hleft, leftWith_of_none rfl]
        exact ⟨by simp [fromFiles], rfl, rfl, fun _ => rfl, rfl⟩
  | cons name rest ih =>
      obtain ⟨r, r', s', hr, hne, hnext, hleft⟩ | ⟨env', hnext, hleft, hspent⟩ :=
        i.leftWith_hasNextCurrent env (name :: rest)
      · rw [hasNextFrom, hnext]
        obtain ⟨d, hd, hindex⟩ := exists_mem_leftWith hr hne (name :: rest)
        exact ⟨iff_of_true rfl ⟨d, hd, .inr hindex⟩, hleft, rfl, fun _ => rfl, rfl⟩
      · rw [hasNextFrom, hnext]
        dsimp only
        -- Streams of their own are not looked into before they begin.
        split
        · rename_i hs
          refine ⟨?_, hleft, rfl, fun _ => rfl, rfl⟩
          refine iff_of_false Bool.false_ne_true ?_
          rintro ⟨d, hd, hjoined | hindex⟩
          · exact absurd hs (by simp [hjoined])
          · obtain ⟨r, hr, hne, -⟩ | hlt := mem_leftWith hd
            · exact hne (hspent r hr)
            · exact absurd hindex hlt.ne'
        · rename_i hs
          obtain ⟨reader, file, index, env₁, henter, hentered⟩ :=
            leftWith_enter (i := { i with reader := none }) rfl env' name rest
          rw [henter, ← hleft, ← hentered]
          have hjoined : i.separate = false := by simpa using hs
          have hlooks := ih { i with reader, readerName := file, readerIndex := index } env₁
          exact { hlooks with
            found := by simpa [hjoined] using hlooks.found
            current := by simp [hjoined] }

end Pending

/-! ### How many files have been opened -/

section Opened

variable (i : Input) (env : Environment)

lemma readerIndex_readCurrent : (i.readCurrent env).2.1.readerIndex = i.readerIndex := by
  unfold readCurrent
  split
  · rfl
  · split <;> rfl

lemma readerIndex_hasNextCurrent : (i.hasNextCurrent env).2.1.readerIndex = i.readerIndex := by
  unfold hasNextCurrent
  split
  · rfl
  · split <;> rfl

lemma readerIndex_le_enter (name : Text) : i.readerIndex ≤ (i.enter env name).1.readerIndex := by
  unfold enter
  split
  · exact Nat.le_succ _
  · exact le_rfl

lemma readerIndex_le_readFrom (pending : List Text) :
    i.readerIndex ≤ (i.readFrom env pending).2.1.readerIndex := by
  induction pending generalizing i env with
  | nil => exact (readerIndex_readCurrent i env).ge
  | cons name rest ih =>
      have hcurrent := readerIndex_readCurrent i env
      rw [readFrom]
      rcases hrun : i.readCurrent env with ⟨_ | record, i₁, env₁⟩ <;> rw [hrun] at hcurrent
      · calc i.readerIndex = i₁.readerIndex := hcurrent.symm
          _ ≤ (i₁.enter env₁ name).1.readerIndex := readerIndex_le_enter ..
          _ ≤ _ := ih ..
      · exact hcurrent.ge

lemma readerIndex_le_hasNextFrom (pending : List Text) :
    i.readerIndex ≤ (i.hasNextFrom env pending).2.1.readerIndex := by
  induction pending generalizing i env with
  | nil => exact (readerIndex_hasNextCurrent i env).ge
  | cons name rest ih =>
      have hcurrent := readerIndex_hasNextCurrent i env
      rw [hasNextFrom]
      rcases hrun : i.hasNextCurrent env with ⟨_ | _, i₁, env₁⟩ <;> rw [hrun] at hcurrent
      · dsimp only
        split
        · exact hcurrent.ge
        · calc i.readerIndex = i₁.readerIndex := hcurrent.symm
            _ ≤ (i₁.enter env₁ name).1.readerIndex := readerIndex_le_enter ..
            _ ≤ _ := ih ..
      · exact hcurrent.ge

end Opened
/-! ### Calls -/

/-- A call of the input. -/
inductive Call where
  | read
  | hasNext
  deriving DecidableEq, Repr

/-- The input after some calls. -/
def after (i : Input) (env : Environment) : List Call → Input × Environment
  | [] => (i, env)
  | .read :: calls => after (i.read env).2.1 (i.read env).2.2 calls
  | .hasNext :: calls => after (i.hasNext env).2.1 (i.hasNext env).2.2 calls

/-- What those of the calls give that read. -/
def readings (i : Input) (env : Environment) : List Call → List (Option Record)
  | [] => []
  | .read :: calls => (i.read env).1 :: readings (i.read env).2.1 (i.read env).2.2 calls
  | .hasNext :: calls => readings (i.hasNext env).2.1 (i.hasNext env).2.2 calls

/-- Where the input stands after `n` calls that read, if `all` is what it delivers. -/
structure Stands (all : List Delivery) (n : ℕ) (i : Input) (env : Environment) : Prop where
  left : i.left env = all.drop n
  /-- The file is that of the record returned last. -/
  origin : (i.recordName, i.recordIndex) =
    (all.take n).getLast?.elim ([], 0) fun d => (d.file, d.index)
  /-- No other file is opened before it is read from, if files are streams of their own. -/
  current : i.separate = true → i.left env = [] ∨ i.readerIndex = i.recordIndex

section Stands

variable {all : List Delivery} {n : ℕ} {i : Input} {env : Environment}

lemma Stands.read (h : Stands all n i env) :
    (i.read env).1 = all[n]?.map (·.record) ∧
      Stands all (n + 1) (i.read env).2.1 (i.read env).2.2 := by
  have hreads : Reads (i.left env) i (i.read env).1 (i.read env).2.1 (i.read env).2.2 :=
    reads_readFrom i env i.pending
  have hhead : (i.left env).head? = all[n]? := by rw [h.left, List.head?_drop]
  refine ⟨by rw [hreads.found, hhead], ?_, ?_, fun _ => ?_⟩
  · rw [hreads.left, h.left, List.tail_drop]
  · rw [hreads.origin, hhead, h.origin, List.take_add_one, List.getLast?_append]
    cases all[n]? <;> rfl
  · cases hl : i.left env with
    | nil => exact .inl (by rw [hreads.left, hl]; rfl)
    | cons d rest =>
        refine .inr ?_
        have horigin := hreads.origin
        rw [hl] at horigin
        rw [hreads.current d (by rw [hl]; rfl)]
        exact (Prod.mk.inj horigin).2.symm

lemma Stands.look (h : Stands all n i env) :
    ((i.hasNext env).1 = true ↔ ∃ d ∈ all.drop n, i.separate = false ∨ d.index = i.recordIndex) ∧
      Stands all n (i.hasNext env).2.1 (i.hasNext env).2.2 := by
  have hlooks : Looks (i.left env) i (i.hasNext env).1 (i.hasNext env).2.1 (i.hasNext env).2.2 :=
    looks_hasNextFrom i env i.pending
  obtain ⟨-, hindex⟩ := Prod.mk.inj hlooks.origin
  refine ⟨?_, hlooks.left.trans h.left, hlooks.origin.trans h.origin, fun hs => ?_⟩
  · rw [hlooks.found, ← h.left]
    cases hs : i.separate with
    | false => simp
    | true =>
        obtain hnil | hcurrent := h.current hs
        · simp [hnil]
        · rw [hcurrent]
  · rw [hlooks.separate] at hs
    rw [hlooks.left, hlooks.current hs, hindex]
    exact h.current hs

lemma Stands.after (h : Stands all n i env) (calls : List Call) :
    Stands all (n + calls.count .read) (i.after env calls).1 (i.after env calls).2 := by
  induction calls generalizing n i env with
  | nil => exact h
  | cons c calls ih =>
      cases c with
      | read =>
          rw [List.count_cons_self, ← Nat.add_assoc, Nat.add_right_comm]
          exact ih h.read.2
      | hasNext =>
          rw [List.count_cons_of_ne (by decide)]
          exact ih h.look.2

lemma Stands.readings (h : Stands all n i env) (calls : List Call) :
    i.readings env calls =
      (List.range (calls.count .read)).map fun k => all[n + k]?.map (·.record) := by
  induction calls generalizing n i env with
  | nil => rfl
  | cons c calls ih =>
      cases c with
      | read =>
          rw [List.count_cons_self, List.range_succ_eq_map, List.map_cons, List.map_map,
            Input.readings, ih h.read.2, h.read.1]
          simp only [Nat.add_zero, List.cons.injEq, true_and, Function.comp_def]
          exact List.map_congr_left fun k _ => by
            rw [Nat.succ_eq_add_one, Nat.add_assoc, Nat.add_comm k]
      | hasNext =>
          rw [List.count_cons_of_ne (by decide), Input.readings]
          exact ih h.look.2

end Stands

lemma separate_after (i : Input) (env : Environment) (calls : List Call) :
    (i.after env calls).1.separate = i.separate := by
  induction calls generalizing i env with
  | nil => rfl
  | cons c calls ih =>
      cases c with
      | read => exact (ih _ _).trans (reads_readFrom i env i.pending).separate
      | hasNext => exact (ih _ _).trans (looks_hasNextFrom i env i.pending).separate

lemma stands_ofFiles (files : List Text) (separator : UInt8) (separate : Bool)
    (env : Environment) :
    Stands (deliveries separator env.storage files) 0 (ofFiles files separator separate) env :=
  ⟨rfl, rfl, fun _ => .inr rfl⟩

/-- However calls that read and calls that look on follow each other: the readings are the records
of the files in order, each once, and none from their end on; looking on finds a record if the next
reading gives one, among files that are streams of their own if one is still to come from the file
of the record returned last; this file remains the present one then. -/
theorem read_hasNext_interleaved (files : List Text) (separator : UInt8) (separate : Bool)
    (env : Environment) (calls : List Call) :
    let all := deliveries separator env.storage files
    let start := ofFiles files separator separate
    let n := calls.count .read
    let (i, env') := start.after env calls
    let (found, i₁, env₁) := i.hasNext env'
    start.readings env calls = ((List.range n).map fun k => all[k]?.map (·.record)) ∧
      (i.read env').1 = all[n]?.map (·.record) ∧
      ((i.read env').1 = none → ∀ more, ∀ reading ∈ i.readings env' more, reading = none) ∧
      (found = true ↔
        if separate then ∃ d ∈ all.drop n, d.index = i.recordIndex else (i₁.read env₁).1.isSome) ∧
      (i.recordName, i.recordIndex) =
        (all.take n).getLast?.elim ([], 0) (fun d => (d.file, d.index)) ∧
      (i₁.recordName, i₁.recordIndex) = (i.recordName, i.recordIndex) := by
  intro all start n
  have hstart : Stands all 0 start env := stands_ofFiles files separator separate env
  have hafter : Stands all n (start.after env calls).1 (start.after env calls).2 := by
    simpa using hstart.after calls
  have hseparate : (start.after env calls).1.separate = separate := separate_after start env calls
  rcases hrun : start.after env calls with ⟨i, env'⟩
  rw [hrun] at hafter hseparate
  obtain ⟨hfound, hlooked⟩ := hafter.look
  rcases hlook : i.hasNext env' with ⟨found, i₁, env₁⟩
  rw [hlook] at hfound hlooked
  dsimp only at hafter hseparate hfound hlooked ⊢
  rw [hlook]
  refine ⟨by simpa using hstart.readings calls, hafter.read.1, fun hnone more reading hr => ?_, ?_,
    hafter.origin, hlooked.origin.trans hafter.origin.symm⟩
  · rw [hafter.read.1, Option.map_eq_none_iff, List.getElem?_eq_none_iff] at hnone
    rw [hafter.readings, List.mem_map] at hr
    obtain ⟨k, -, rfl⟩ := hr
    rw [List.getElem?_eq_none (hnone.trans (Nat.le_add_right _ k))]
    rfl
  · rw [hfound, hlooked.read.1, hseparate]
    cases separate with
    | true => simp
    | false => simp [← List.length_pos_iff_exists_mem]

end Input

end StreamEditor
