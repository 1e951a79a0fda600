import StreamEditor.Proofs.Output.Calls
import StreamEditor.Proofs.Output.Closed

/-!
Records that are brought to files.

* `Storage.Holds`: there is a file at a way. Files are made when writers to them are opened, and
  remain.
* `Writer.Brings`: by way of a writer these records were brought to its file, one after the other,
  and nothing else. It is so at the beginning (`Writer.brings_of_openAll`), and one more record is
  the last of them (`Writer.Brings.writeRecord`).
* `Writer.Brings.get?_closeAll`: at the end the file consists of the records.
-/

namespace StreamEditor

namespace Storage

variable {s s' : Storage} {p q : Path} {data : Bytes}

/-- There is a file at this way. -/
def Holds (s : Storage) (p : Path) : Prop := (s.get? p).isSome = true

lemma Holds.get? (h : s.Holds p) : s.get? p = some (s.contents p) := by
  obtain ⟨data, hdata⟩ := Option.isSome_iff_exists.1 h
  rw [contents, hdata]
  rfl

lemma Holds.set (h : s.Holds p) (q : Path) (data : Bytes) : (s.set q data).Holds p := by
  rw [Holds, get?_set]
  split
  · rfl
  · exact h

lemma Holds.overwrite (h : s.Holds p) (q : Path) (offset : ℕ) (data : Bytes) :
    (s.overwrite q offset data).Holds p := by
  cases data with
  | nil => exact h
  | cons b data => exact h.set q _

end Storage

open Output (Write)

namespace Writer

variable {writers : List Writer} {s s' : Storage} {v w : Writer} {i j : ℕ} {path : Path}
  {ws : List Write} {separator : UInt8}

/-! ### Files that remain -/

section Act

variable {f : Output → Output.Attempt} {doing : String}

lemma holds_act (h : s.Holds path) : (w.act s doing f).2.1.Holds path := by
  cases hw : w.path with
  | none =>
      change Storage.Holds (w.path.elim s _) path
      rw [hw]
      exact h
  | some own =>
      rw [storage_act hw]
      exact h.overwrite _ _ _

end Act

lemma holds_flushAll (h : s.Holds path) : (flushAll s writers).2.1.Holds path := by
  induction writers generalizing s with
  | nil => exact h
  | cons w rest ih =>
      have hfirst : (w.flush s).2.1.Holds path := holds_act h
      rw [flushAll]
      rcases hflush : w.flush s with ⟨w', s', _ | failure⟩ <;> rw [hflush] at hfirst
      · exact ih hfirst
      · exact hfirst

lemma holds_closeAll (h : s.Holds path) : (closeAll s writers).Holds path := by
  induction writers generalizing s with
  | nil => exact h
  | cons w rest ih => exact ih (holds_act h)

/-! ### Records one after the other -/

/-- By way of the writer with this number these writes came to its file, and nothing else. -/
def Brings (i : ℕ) (path : Path) (separator : UInt8) (ws : List Write) (writers : List Writer)
    (s : Storage) : Prop :=
  ∃ w, Keeps i path w writers s ∧ s.Holds path ∧ w.output.separator = separator ∧
    w.output.unterminated = ws.getLast?.any Write.lacksSeparator ∧
    w.written s = Write.joined separator none ws

lemma Brings.drained (h : Brings i path separator ws writers s) (standardInput : Bytes) :
    Brings i path separator ws writers { s with standardInput } := by
  obtain ⟨w, hkeeps, hrest⟩ := h
  exact ⟨w, ⟨hkeeps.writer, hkeeps.own, hkeeps.alone, hkeeps.room, hkeeps.delivered, hkeeps.length⟩,
    hrest⟩

/-- A record that is written is the last one of its file, and does nothing to other files. -/
lemma Brings.writeRecord (h : Brings i path separator ws writers s) (hj : writers[j]? = some v)
    (text : Text) (terminated : Bool) :
    Brings i path separator (ws ++ if j = i then [.record text terminated] else [])
      (writers.set j (v.writeRecord s text terminated).1)
      (v.writeRecord s text terminated).2.1 := by
  obtain ⟨w, hkeeps, hpresent, hseparator, hlacks, hwritten⟩ := h
  by_cases hji : j = i
  · subst hji
    obtain rfl : v = w := Option.some.inj (hj.symm.trans hkeeps.writer)
    obtain ⟨sink, waiting, hrun, hroom, hbytes⟩ :=
      Output.writeRecord_of_room hkeeps.room text terminated
    have hroom' : (v.output.writeRecord text terminated).1.sink.room = none := by
      rw [hrun]
      exact hroom
    rw [if_pos rfl]
    refine ⟨_, hkeeps.act hroom', holds_act hpresent, ?_, ?_, ?_⟩
    · change (v.output.writeRecord text terminated).1.separator = separator
      rw [hrun]
      exact hseparator
    · change (v.output.writeRecord text terminated).1.unterminated = _
      rw [hrun, List.getLast?_concat]
      rfl
    · -- The bytes of the file and those that wait are what was written before.
      have hbefore : s.contents path ++ v.output.written = Write.joined separator none ws := by
        rw [← hwritten, written_of_path hkeeps.own, Output.written, hkeeps.delivered,
          List.nil_append]
      refine (written_act hkeeps.own hkeeps.length).trans ?_
      rw [hrun, Output.written, hbytes, Output.resumed, hseparator, hlacks, Write.joined_append,
        ← hbefore, Option.or_none, Write.joined, Write.joined, List.append_nil]
      simp only [List.append_assoc, Write.bytes]
  · rw [if_neg hji, List.append_nil]
    exact ⟨w, hkeeps.act_of_ne hj hji, holds_act hpresent, hseparator, hlacks,
      (hkeeps.written_act_of_ne hj hji).trans hwritten⟩

/-! ### Beginning and end -/

/-- Files for which writers are opened are there, and the writers are those to the files. -/
lemma holds_of_openAll {files : List OutputFile}
    (h : openAll separator s files = (.ok writers, s')) :
    (∀ path, s.Holds path → s'.Holds path) ∧ writers.map (·.name) = files.map (·.name) ∧
      ∀ w ∈ writers, w.output.separator = separator ∧ w.output.unterminated = false ∧
        ∀ path, w.path = some path → s'.Holds path := by
  have hset (s : Storage) (way path : Path) (hpath : path = way ∨ s.Holds path) :
      (s.set way []).Holds path := by
    obtain rfl | hpath := hpath
    · rw [Storage.Holds, Storage.get?_set, if_pos rfl]
      rfl
    · exact hpath.set way []
  have hnew (f : OutputFile) (node : Node) :
      (ofNode f separator node).output.separator = separator ∧
        (ofNode f separator node).output.unterminated = false := by
    cases node <;> exact ⟨rfl, rfl⟩
  obtain ⟨hkept, hpaths⟩ := paths_of_openAll hset h
  have hfresh := forall_of_openAll
    (P := fun w => w.output.separator = separator ∧ w.output.unterminated = false) hnew h
  exact ⟨hkept, names_of_openAll h, fun w hw => ⟨(hfresh w hw).1, (hfresh w hw).2, hpaths w hw⟩⟩

/-- Nothing was brought yet to a file that is opened, unless another writer has the same file. -/
lemma brings_of_openAll {files : List OutputFile}
    (h : openAll separator s files = (.ok writers, s')) (hi : writers[i]? = some w)
    (hpath : w.path = some path)
    (halone : ∀ (j : ℕ) (v : Writer), writers[j]? = some v → v.path = some path → j = i) :
    Brings i path separator [] writers s' := by
  have hmem := List.mem_of_getElem? hi
  obtain ⟨hseparator, hcomplete, hpresent⟩ := (holds_of_openAll h).2.2 w hmem
  obtain ⟨hnone, hoffset, hempty⟩ := (openAll_spec h).2 w hmem
  obtain ⟨hdelivered, hwaiting⟩ := List.append_eq_nil_iff.1 hnone
  refine ⟨w, ⟨hi, hpath, halone, open_of_openAll h w hmem path hpath, hdelivered, ?_⟩,
    hpresent path hpath, hseparator, hcomplete, ?_⟩
  · rw [hempty path hpath, hoffset]
    rfl
  · rw [written_of_path hpath, hempty path hpath, List.nil_append]
    exact hwaiting

/-- After all writers are flushed, as far as they do not fail, and closed, a file consists of what
was brought to it. -/
lemma Brings.get?_closeAll (h : Brings i path separator ws writers s) :
    (closeAll (flushAll s writers).2.1 (flushAll s writers).1).get? path =
      some (Write.joined separator none ws) := by
  obtain ⟨w, hkeeps, hpresent, -, -, hwritten⟩ := h
  rw [(holds_closeAll (holds_flushAll hpresent)).get?, hkeeps.contents_closeAll_flushAll, hwritten]

end Writer

end StreamEditor
