import StreamEditor.Proofs.Output.Capped
import StreamEditor.Proofs.Output.Stored

/-!
Output files after they are closed.

* `Writer.Open`: writers to files take any number of bytes. They are opened so
  (`Writer.open_of_openAll`) and stay so (`Writer.Handled.open`).
* `Writer.Keeps`: a writer has its file to itself, and goes on where the file ends.
* `Writer.Keeps.contents_closeAll_flushAll`: when all writers are closed this file holds what was
  written to it, whether or not another could be flushed before.
-/

namespace StreamEditor.Writer

variable {writers writers' : List Writer} {s s' : Storage} {v w : Writer} {i j : ℕ} {path : Path}

/-- A writer to a file takes any number of bytes. -/
def Open (writers : List Writer) : Prop :=
  ∀ w ∈ writers, ∀ path, w.path = some path → w.output.sink.room = none

lemma open_of_openAll {separator : UInt8} {files : List OutputFile}
    (h : openAll separator s files = (.ok writers, s')) : Open writers := by
  refine forall_of_openAll (fun f node path hpath => ?_) h
  obtain ⟨data, rfl⟩ := eq_file_of_path_ofNode hpath
  rfl

/-- Writing leaves a writer to a file open. -/
lemma Open.set {f : Output → Output.Attempt} {doing : String} (h : Open writers)
    (hf : ∀ o, Output.Grows o (f o).1) (hi : writers[i]? = some w) :
    Open (writers.set i (w.act s doing f).1) := by
  intro v hv path hpath
  obtain hv | rfl := List.mem_or_eq_of_mem_set hv
  · exact h v hv path hpath
  · exact (hf w.output).room (h w (List.mem_of_getElem? hi) path hpath)

lemma Handled.open {held held' : List Writer × Storage} (h : Handled held held')
    (hopen : Open held.1) : Open held'.1 := by
  induction h with
  | refl => exact hopen
  | tail _ hstep ih =>
      cases hstep with
      | read writers s standardInput => exact ih
      | write hi text terminated =>
          have hsteady : Output.Steady 0 .noSpace (·.writeRecord text terminated) :=
            Output.steady_writeRecord text terminated
          exact ih.set hsteady.grows hi

/-! ### One writer among others -/

/-- The writer with this number has its file to itself, takes any number of bytes, and goes on where
the file ends. What was delivered is in the file. -/
structure Keeps (i : ℕ) (path : Path) (w : Writer) (writers : List Writer) (s : Storage) :
    Prop where
  writer : writers[i]? = some w
  own : w.path = some path
  alone : ∀ (j : ℕ) (v : Writer), writers[j]? = some v → v.path = some path → j = i
  room : w.output.sink.room = none
  delivered : w.output.sink.delivered = []
  length : (s.contents path).length = w.offset

lemma Level.keeps (h : Level writers s) (hapart : Apart writers) (hopen : Open writers)
    (hi : writers[i]? = some w) (hpath : w.path = some path) : Keeps i path w writers s where
  writer := hi
  own := hpath
  alone j v hj hv := by
    by_contra hji
    exact hapart.path_ne hi hj hji hpath hv
  room := hopen w (List.mem_of_getElem? hi) path hpath
  delivered := h.delivered w (List.mem_of_getElem? hi)
  length := h.length w (List.mem_of_getElem? hi) path hpath

namespace Keeps

section Act

variable {f : Output → Output.Attempt} {doing : String}

/-- What the writer itself does. -/
lemma act (h : Keeps i path w writers s) (hf : (f w.output).1.sink.room = none) :
    Keeps i path (w.act s doing f).1 (writers.set i (w.act s doing f).1) (w.act s doing f).2.1 := by
  obtain ⟨hlt, -⟩ := List.getElem?_eq_some_iff.1 h.writer
  refine ⟨List.getElem?_set_self hlt, h.own, fun j v hj hv => ?_, hf, rfl, ?_⟩
  · by_contra hji
    rw [List.getElem?_set_ne (Ne.symm hji)] at hj
    exact hji (h.alone j v hj hv)
  · rw [contents_act h.own h.length, List.length_append, h.length]
    rfl

/-- What another writer does. -/
lemma act_of_ne (h : Keeps i path w writers s) (hj : writers[j]? = some v) (hji : j ≠ i) :
    Keeps i path w (writers.set j (v.act s doing f).1) (v.act s doing f).2.1 := by
  have hne : v.path ≠ some path := fun hv => hji (h.alone j v hj hv)
  refine ⟨by rw [List.getElem?_set_ne hji, h.writer], h.own, fun k u hk hu => ?_, h.room,
    h.delivered, ?_⟩
  · rw [List.getElem?_set] at hk
    split at hk
    · split at hk
      · cases hk
        exact absurd hu hne
      · cases hk
    · exact h.alone k u hk hu
  · rw [contents_act_of_ne hne]
    exact h.length

end Act

lemma written_act_of_ne {f : Output → Output.Attempt} {doing : String}
    (h : Keeps i path w writers s) (hj : writers[j]? = some v) (hji : j ≠ i) :
    w.written (v.act s doing f).2.1 = w.written s := by
  rw [written_of_path h.own, written_of_path h.own]
  exact congrArg (· ++ _) (contents_act_of_ne fun hv => hji (h.alone j v hj hv))

/-- Flushing the writer brings all to its file. -/
lemma contents_flush (h : Keeps i path w writers s) :
    (w.flush s).2.1.contents path = w.written s ∧ w.output.flush.2 = none := by
  have hsteady : Output.Steady 0 .noSpace Output.flush := Output.steady_flush
  have hfine := hsteady.succeeds w.output h.room
  refine ⟨?_, hfine⟩
  rw [written_of_path h.own]
  refine (contents_act h.own h.length).trans (congrArg _ ?_)
  have hall := Output.written_flush w.output
  rwa [Output.written, Output.waiting_flush hfine, List.append_nil, Output.written,
    h.delivered] at hall

end Keeps

/-! ### All writers -/

section All

variable {rest : List Writer}

namespace Keeps

/-- No other writer has the file of the first. -/
lemma others (h : Keeps 0 path w (v :: rest) s) : ∀ u ∈ rest, u.path ≠ some path := by
  intro u hu hpath
  obtain ⟨j, hj⟩ := List.mem_iff_getElem?.1 hu
  exact Nat.succ_ne_zero j (h.alone (j + 1) u hj hpath)

/-- After the first writer is flushed the others are as before. -/
lemma after_first (h : Keeps (i + 1) path w (v :: rest) s) :
    Keeps i path w rest (v.flush s).2.1 := by
  have hfirst : (v :: rest)[0]? = some v := rfl
  have hall : Keeps (i + 1) path w ((v.flush s).1 :: rest) (v.flush s).2.1 :=
    h.act_of_ne hfirst (Nat.succ_ne_zero i).symm
  exact ⟨hall.writer, hall.own, fun j u hj hu => Nat.succ.inj (hall.alone (j + 1) u hj hu),
    hall.room, hall.delivered, hall.length⟩

lemma written_after_first (h : Keeps (i + 1) path w (v :: rest) s) :
    w.written (v.flush s).2.1 = w.written s := by
  have hfirst : (v :: rest)[0]? = some v := rfl
  exact h.written_act_of_ne hfirst (Nat.succ_ne_zero i).symm

end Keeps

/-- A file that no writer has is left as it is. -/
lemma contents_closeAll_of_ne (h : ∀ w ∈ writers, w.path ≠ some path) (s : Storage) :
    (closeAll s writers).contents path = s.contents path := by
  induction writers generalizing s with
  | nil => rfl
  | cons w rest ih =>
      rw [List.forall_mem_cons] at h
      rw [closeAll, ih h.2]
      exact contents_act_of_ne h.1

/-- When all writers are closed a file holds all that came by way of its writer. -/
lemma Keeps.contents_closeAll (h : Keeps i path w writers s) :
    (closeAll s writers).contents path = w.written s := by
  induction writers generalizing s i with
  | nil => cases h.writer
  | cons v rest ih =>
      rw [closeAll]
      cases i with
      | zero =>
          obtain rfl : v = w := Option.some.inj h.writer
          rw [contents_closeAll_of_ne h.others]
          exact h.contents_flush.1
      | succ i => rw [ih h.after_first, h.written_after_first]

/-- Each writer keeps its file. -/
lemma paths_flushAll (writers : List Writer) (s : Storage) :
    (flushAll s writers).1.map (·.path) = writers.map (·.path) := by
  induction writers generalizing s with
  | nil => rfl
  | cons w rest ih =>
      by_cases hfault : w.output.flush.2 = none
      · rw [flushAll_cons_of_ok hfault, List.map_cons, ih]
        rfl
      · obtain ⟨failure, hfails⟩ := flushAll_cons_of_fault hfault rest s
        rw [hfails]
        rfl

/-- A writer for which nothing waits does nothing more. -/
lemma storage_flush_of_flushed (hfine : w.output.flush.2 = none) (s s' : Storage) :
    ((w.flush s).1.flush s').2.1 = s' := by
  have hwaits : (w.flush s).1.output.waiting = [] := Output.waiting_flush hfine
  have hfresh : (w.flush s).1.output.flush.1.sink.delivered = [] := by
    have hwritten := (w.flush s).1.output.written_flush
    have hnone : (w.flush s).1.output.written = [] := by
      rw [Output.written, hwaits]
      rfl
    rw [hnone, Output.written] at hwritten
    exact (List.append_eq_nil_iff.1 hwritten).1
  cases hpath : (w.flush s).1.path with
  | none =>
      change (w.flush s).1.path.elim s' _ = s'
      rw [hpath]
      rfl
  | some path => rw [flush, storage_act hpath, hfresh, Storage.overwrite]

/-- Flushing up to the first failure before all are closed makes no difference. -/
lemma Keeps.contents_closeAll_flushAll (h : Keeps i path w writers s) :
    (closeAll (flushAll s writers).2.1 (flushAll s writers).1).contents path = w.written s := by
  induction writers generalizing s i with
  | nil => cases h.writer
  | cons v rest ih =>
      by_cases hfault : v.output.flush.2 = none
      · rw [flushAll_cons_of_ok hfault, closeAll, storage_flush_of_flushed hfault]
        cases i with
        | zero =>
            obtain rfl : v = w := Option.some.inj h.writer
            have hothers : ∀ u ∈ (flushAll (v.flush s).2.1 rest).1, u.path ≠ some path := by
              intro u hu hsame
              have hmem := List.mem_map_of_mem (f := (·.path)) hu
              rw [paths_flushAll, List.mem_map] at hmem
              obtain ⟨u', hu', hpaths⟩ := hmem
              exact h.others u' hu' (hpaths.trans hsame)
            rw [contents_closeAll_of_ne hothers, contents_flushAll_of_ne h.others]
            exact h.contents_flush.1
        | succ i => rw [ih h.after_first, h.written_after_first]
      · -- The first writer fails, so it has no file; those after it are as before.
        obtain ⟨failure, hfails⟩ := flushAll_cons_of_fault hfault rest s
        rw [hfails]
        cases i with
        | zero =>
            obtain rfl : v = w := Option.some.inj h.writer
            exact absurd h.contents_flush.2 hfault
        | succ i =>
            have hfirst : (v :: rest)[0]? = some v := rfl
            have hall : Keeps (i + 1) path w ((v.flush s).1 :: rest) (v.flush s).2.1 :=
              h.act_of_ne hfirst (Nat.succ_ne_zero i).symm
            rw [hall.contents_closeAll, h.written_after_first]

lemma contents_closeAll_flushAll (hl : Level writers s) (hapart : Apart writers)
    (hopen : Open writers) (hi : writers[i]? = some w) (hpath : w.path = some path) :
    (closeAll (flushAll s writers).2.1 (flushAll s writers).1).contents path = w.written s :=
  (hl.keeps hapart hopen hi hpath).contents_closeAll_flushAll

end All

end StreamEditor.Writer
