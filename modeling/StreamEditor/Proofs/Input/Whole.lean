import Mathlib.Tactic
import StreamEditor.Input

/-!
Files that are at hand as a whole and in which every record is terminated.

* `Reader.read_whole`: such a file gives one terminated record after the other.
* `Input.Spent`: nothing is left of the file that is being read; `Input.Spent.read_next` goes on
  to the next one.
* `Input.Along`: two inputs read the same file, the second of them with other files to come. As
  files are streams of their own, they look on and read alike until the file ends.
-/

namespace StreamEditor

variable {separator : UInt8} {contents : Bytes} {env env' : Environment} {i i' i₁ : Input}
  {name : Text} {rest : List Text}

/-! ### One file -/

/-- What follows the first record is terminated as well. -/
lemma Record.exists_split (h : contents.getLast? = some separator) :
    ∃ first others, Record.split separator contents = some (first, others) ∧
      ∀ b ∈ others.getLast?, b = separator := by
  rcases hs : Record.split separator contents with _ | ⟨first, others⟩
  · exact absurd (List.mem_of_getLast? h) (Record.split_eq_none_iff.1 hs)
  · refine ⟨first, others, rfl, fun b hb => ?_⟩
    rw [← Record.append_of_split hs, List.getLast?_append, hb, Option.some_or] at h
    exact Option.some.inj h

lemma Reader.read_whole (h : contents.getLast? = some separator) :
    ∃ record others, (∀ s, (Reader.whole contents).read separator s
        = (.ok (some record), .whole others, s)) ∧
      record.terminated = true ∧ ∀ b ∈ others.getLast?, b = separator := by
  obtain ⟨first, others, hs, hend⟩ := Record.exists_split h
  refine ⟨.ofBytes separator first, others, fun s => ?_, ?_, hend⟩
  · cases contents with
    | nil => cases h
    | cons b bytes =>
        rw [Reader.read]
        · rw [hs]
        · simp
  · rw [Record.ofBytes, if_pos (Record.getLast?_of_split hs)]

namespace Input

/-! ### Reading in the present file -/

/-- Nothing is left to read of what is being read. -/
def Spent (i : Input) : Prop := ∀ r, i.reader = some r → r = .whole []

lemma Spent.readCurrent (h : i.Spent) (env : Environment) :
    i.readCurrent env = (none, { i with reader := none }, env) := by
  rw [Input.readCurrent]
  cases hr : i.reader with
  | none =>
      dsimp only
      rw [← hr]
  | some r =>
      rw [h r hr]
      rfl

lemma readCurrent_whole {record : Record} {others : Bytes}
    (hr : i.reader = some (.whole contents))
    (h : (Reader.whole contents).read i.separator env.storage
      = (.ok (some record), .whole others, env.storage)) :
    i.readCurrent env = (some record,
      { i with
        reader := some (.whole others)
        recordName := i.readerName
        recordIndex := i.readerIndex }, env) := by
  rw [Input.readCurrent, hr]
  dsimp only
  rw [h]

/-- No file is opened as long as the present one gives records. -/
lemma readFrom_of_some {record : Record} {env₁ : Environment}
    (h : i.readCurrent env = (some record, i₁, env₁)) (pending : List Text) :
    i.readFrom env pending = (some record, { i₁ with pending }, env₁) := by
  cases pending <;> rw [readFrom, h]

/-! ### The next file -/

lemma Spent.read_last (h : i.Spent) (hp : i.pending = []) (env : Environment) :
    i.read env = (none, { i with reader := none }, env) := by
  rw [Input.read, hp, readFrom, h.readCurrent, ← hp]

/-- After the end of a file the next one is opened. -/
lemma Spent.read_next (h : i.Spent) (hp : i.pending = name :: rest) {record : Record}
    {others : Bytes} (hopen : Reader.open? env.storage name = .ok (.whole contents))
    (hread : (Reader.whole contents).read i.separator env.storage
      = (.ok (some record), .whole others, env.storage)) :
    i.read env = (some record,
      { i with
        pending := rest
        reader := some (.whole others)
        readerName := name
        readerIndex := i.readerIndex + 1
        recordName := name
        recordIndex := i.readerIndex + 1 }, env) := by
  let opened : Input :=
    { i with
      reader := some (.whole contents)
      readerName := name
      readerIndex := i.readerIndex + 1 }
  have hcurrent := readCurrent_whole (i := opened) rfl hread
  rw [Input.read, hp, readFrom, h.readCurrent]
  dsimp only
  rw [enter, hopen]
  exact readFrom_of_some hcurrent rest

/-! ### Two inputs -/

/-- Where files are streams of their own, no other file is looked into. -/
lemma hasNext_of_separate (hs : i.separate = true) (env : Environment) :
    i.hasNext env = i.hasNextCurrent env := by
  have hkept : (i.hasNextCurrent env).2.1.pending = i.pending ∧
      (i.hasNextCurrent env).2.1.separate = i.separate := by
    rw [hasNextCurrent]
    cases i.reader with
    | none => exact ⟨rfl, rfl⟩
    | some r =>
        dsimp only
        rcases r.hasNext env.storage with ⟨fault | _ | _, r', s⟩ <;> exact ⟨rfl, rfl⟩
  rw [Input.hasNext]
  rcases hcurrent : i.hasNextCurrent env with ⟨found, i₁, env₁⟩
  rw [hcurrent] at hkept
  obtain ⟨hpending, hseparate⟩ := hkept
  cases hp : i.pending with
  | nil => rw [hasNextFrom, hcurrent, ← hp, ← hpending]
  | cons name rest =>
      rw [hasNextFrom, hcurrent, ← hp, ← hpending]
      cases found with
      | true => rfl
      | false =>
          dsimp only at hseparate ⊢
          rw [if_pos (hseparate.trans hs)]

/-- Both inputs read the same file, in which `mark` terminates every record. The first has no other
file to come, the second has the files `rest`. -/
structure Along (mark : UInt8) (rest : List Text) (i i' : Input) : Prop where
  reader : i'.reader = i.reader
  regular : ∀ r, i.reader = some r →
    ∃ contents, r = .whole contents ∧ ∀ b ∈ contents.getLast?, b = mark
  readerName : i'.readerName = i.readerName
  recordName : i'.recordName = i.recordName
  separator : i.separator = mark
  separator' : i'.separator = mark
  separate : i.separate = true
  separate' : i'.separate = true
  pending : i.pending = []
  pending' : i'.pending = rest

lemma Along.spent (h : Along separator rest i i') (hspent : i.Spent) : i'.Spent :=
  fun r hr => hspent r (h.reader ▸ hr)

/-- Both look on in the same way. -/
lemma Along.hasNext (h : Along separator rest i i') (env env' : Environment) :
    ∃ found i₁ i₁', i.hasNext env = (found, i₁, env) ∧ i'.hasNext env' = (found, i₁', env') ∧
      Along separator rest i₁ i₁' ∧ i₁.readerIndex = i.readerIndex ∧
      i₁'.readerIndex = i'.readerIndex := by
  rw [hasNext_of_separate h.separate, hasNext_of_separate h.separate', hasNextCurrent,
    hasNextCurrent, h.reader]
  cases hr : i.reader with
  | none => exact ⟨false, i, i', rfl, rfl, h, rfl, rfl⟩
  | some r =>
      obtain ⟨contents, rfl, hend⟩ := h.regular r hr
      cases contents with
      | nil =>
          refine ⟨false, _, _, rfl, rfl, ?_, rfl, rfl⟩
          exact { h with reader := rfl, regular := fun _ hn => nomatch hn }
      | cons b bytes =>
          refine ⟨true, _, _, rfl, rfl, ?_, rfl, rfl⟩
          refine { h with reader := rfl, regular := fun r hr' => ?_ }
          exact ⟨b :: bytes, (Option.some.inj hr').symm, hend⟩

/-- Until the file ends both give the same records. -/
lemma Along.read (h : Along separator rest i i') (hleft : ¬i.Spent) (env env' : Environment) :
    ∃ record i₁ i₁', i.read env = (some record, i₁, env) ∧
      i'.read env' = (some record, i₁', env') ∧ Along separator rest i₁ i₁' ∧
      record.terminated = true ∧ i₁.readerIndex = i.readerIndex ∧ i₁.recordIndex = i.readerIndex ∧
      i₁'.readerIndex = i'.readerIndex ∧ i₁'.recordIndex = i'.readerIndex := by
  rw [Spent, not_forall] at hleft
  obtain ⟨r, hleft⟩ := hleft
  obtain ⟨hr, hne⟩ := Classical.not_imp.1 hleft
  obtain ⟨contents, rfl, hend⟩ := h.regular r hr
  have hlast : contents.getLast? = some separator := by
    cases hl : contents.getLast? with
    | none => exact absurd (congrArg Reader.whole (List.getLast?_eq_none_iff.1 hl)) hne
    | some b => rw [hend b hl]
  obtain ⟨record, others, hread, hterminated, hend'⟩ := Reader.read_whole hlast
  have hcurrent : i.readCurrent env = (some record, _, env) :=
    readCurrent_whole hr (h.separator ▸ hread env.storage)
  have hcurrent' : i'.readCurrent env' = (some record, _, env') :=
    readCurrent_whole (h.reader.trans hr) (h.separator' ▸ hread env'.storage)
  refine ⟨record, _, _, readFrom_of_some hcurrent i.pending, readFrom_of_some hcurrent' i'.pending,
    ?_, hterminated, rfl, rfl, rfl, rfl⟩
  exact
    { h with
      reader := rfl
      regular := fun r hr' => ⟨others, (Option.some.inj hr').symm, hend'⟩
      recordName := h.readerName }

end Input

end StreamEditor
