import Mathlib.Tactic
import StreamEditor.Proofs.Output.Opened
import StreamEditor.Proofs.Output.Written

/-!
What comes of the bytes that are written to files.

* `Output.Extends`: an attempt loses no byte written before, whether it fails or not.
* `Storage.contents`: the bytes of a file, and what replacing some of them does.
* `Writer.Handles`: what a run does with the files and the writers to them, one thing at a time.
* `Writer.Level`: what was delivered is in the file, whose end is where the writer goes on;
  `Writer.Handles.level` keeps it so.
* `Writer.written`: the bytes that came by way of a writer; `Writer.Handles.written` loses none.
* `Writer.contents_flushAll`: the writers up to the first that fails have brought all to their
  files; `Writer.flushAll_of_fault` keeps back those after it.
-/

namespace StreamEditor

/-! ### Attempts -/

namespace Output

/-- The attempt loses no byte written before. -/
def Extends (f : Output → Attempt) : Prop := ∀ o, o.written <+: (f o).1.written

section Extends

variable {f g : Output → Attempt}

lemma Extends.andThen (hf : Extends f) (hg : Extends g) : Extends fun o => (f o).andThen g := by
  intro o
  have ho := hf o
  dsimp only
  revert ho
  rcases f o with ⟨o₁, _ | fault⟩ <;> intro ho
  · exact ho.trans (hg o₁)
  · exact ho

lemma Extends.ite {c : Output → Prop} [DecidablePred c] (hf : Extends f) (hg : Extends g) :
    Extends fun o => if c o then f o else g o := by
  intro o
  dsimp only
  split
  · exact hf o
  · exact hg o

lemma extends_nothing : Extends fun o => (o, none) := fun _ => List.prefix_rfl

lemma extends_flush : Extends flush := fun o => by rw [written_flush]

lemma extends_hold (data : Bytes) : Extends fun o => (o.hold data, none) := fun o => by
  rw [written_hold]
  exact List.prefix_append _ _

/-- Bytes that are delivered past those that wait come to stand before them, so none may wait. -/
lemma prefix_deliver {o : Output} (hw : o.waiting = []) (data : Bytes) :
    o.written <+: (o.deliver data).1.written := by
  rw [written, written, hw, List.append_nil]
  show _ <+: (o.sink.take data).1.delivered ++ o.waiting
  rw [hw, List.append_nil]
  exact delivered_take_prefix o.sink data

lemma extends_put (data : Bytes) : Extends (put data) := by
  intro o
  rw [put]
  split
  · exact extends_hold data o
  · have hflush := extends_flush o
    rcases hf : o.flush with ⟨o₁, _ | fault⟩
    · have hwaiting : o₁.waiting = [] := by
        have hnone := waiting_flush (o := o) (by rw [hf])
        rwa [hf] at hnone
      rw [hf] at hflush
      rw [Attempt.andThen]
      split
      · exact hflush.trans (extends_hold data o₁)
      · exact hflush.trans (prefix_deliver hwaiting data)
    · rw [hf] at hflush
      exact hflush

lemma extends_restore : Extends restore := by
  refine Extends.ite (Extends.andThen (fun o => extends_put [o.separator] o) ?_) extends_nothing
  exact fun _ => List.prefix_rfl

lemma extends_settle : Extends settle := Extends.ite extends_flush extends_nothing

lemma extends_writeRecord (text : Text) (terminated : Bool) :
    Extends (·.writeRecord text terminated) := by
  refine ((extends_restore.andThen (extends_put _)).andThen ?_).andThen extends_settle
  intro o
  dsimp only
  split
  · exact extends_put _ o
  · exact List.prefix_rfl

lemma extends_writeText (text : Text) : Extends (·.writeText text) :=
  ((extends_restore.andThen (extends_put _)).andThen (extends_put _)).andThen extends_settle

lemma extends_writeRaw (data : Bytes) : Extends (·.writeRaw data) :=
  extends_restore.andThen (extends_put data)

end Extends

end Output

/-! ### Files -/

namespace Storage

variable {s : Storage} {p q : Path} {data : Bytes}

/-- The bytes of a file; there are none if there is no such file. -/
def contents (s : Storage) (p : Path) : Bytes := (s.get? p).getD []

/-- Where entries of a list are replaced, the others are found as before. -/
lemma lookup_replaced (files : List (Path × Bytes)) (p q : Path) (data : Bytes) :
    (files.map fun entry => if entry.1 = p then (p, data) else entry).lookup q =
      if q = p then (files.lookup p).map fun _ => data else files.lookup q := by
  induction files with
  | nil => simp
  | cons entry files ih =>
      obtain ⟨r, old⟩ := entry
      rw [List.map_cons]
      dsimp only
      by_cases hr : r = p <;> by_cases hq : q = p
      · simp [hr, hq]
      · have hne : (q == p) = false := beq_eq_false_iff_ne.2 hq
        rw [if_neg hq] at ih
        rw [if_pos hr, if_neg hq, List.lookup_cons, List.lookup_cons, hr, hne]
        exact ih
      · rw [if_pos hq] at ih
        subst hq
        have hne : (q == r) = false := beq_eq_false_iff_ne.2 (Ne.symm hr)
        rw [if_neg hr, if_pos rfl, List.lookup_cons, List.lookup_cons, hne]
        exact ih
      · rw [if_neg hr, if_neg hq, List.lookup_cons, List.lookup_cons, ih, if_neg hq]

lemma get?_set (s : Storage) (p q : Path) (data : Bytes) :
    (s.set p data).get? q = if q = p then some data else s.get? q := by
  obtain ⟨files, folders, standardInput⟩ := s
  rw [set]
  dsimp only
  split
  · rename_i hany
    refine (lookup_replaced files p q data).trans ?_
    split
    · rw [List.any_eq_true] at hany
      obtain ⟨⟨r, old⟩, hmem, hr⟩ := hany
      obtain rfl : r = p := of_decide_eq_true hr
      cases hfound : files.lookup r with
      | none =>
          exact absurd (beq_self_eq_true r) (by simpa using List.lookup_eq_none_iff.1 hfound _ hmem)
      | some _ => rfl
    · rfl
  · rename_i hany
    have hnone : files.lookup p = none := by
      rw [List.lookup_eq_none_iff]
      rintro ⟨r, old⟩ hmem
      have hr : r ≠ p := fun hr => hany (List.any_eq_true.2 ⟨_, hmem, decide_eq_true hr⟩)
      exact bne_iff_ne.2 (Ne.symm hr)
    show List.lookup q (files ++ [(p, data)]) = if q = p then some data else files.lookup q
    rw [List.lookup_append]
    by_cases hq : q = p
    · rw [hq, hnone, if_pos rfl]
      simp
    · rw [if_neg hq]
      simp [List.lookup_cons, beq_eq_false_iff_ne.2 hq]

lemma contents_set (s : Storage) (p q : Path) (data : Bytes) :
    (s.set p data).contents q = if q = p then data else s.contents q := by
  rw [contents, get?_set]
  split <;> rfl

/-- Bytes that are written where a file ends are added to it. -/
lemma contents_overwrite_end {offset : ℕ} (h : (s.contents p).length = offset) (data : Bytes) :
    (s.overwrite p offset data).contents p = s.contents p ++ data := by
  cases data with
  | nil => simp [overwrite]
  | cons b data =>
      rw [overwrite, contents_set, if_pos rfl]
      · change (s.contents p).take offset ++ List.replicate (offset - (s.contents p).length) 0 ++
          (b :: data) ++ (s.contents p).drop (offset + (b :: data).length) = _
        rw [h, Nat.sub_self, List.take_of_length_le h.le, List.replicate_zero, List.append_nil,
          List.drop_eq_nil_of_le (by omega), List.append_nil]
      · exact List.cons_ne_nil _ _

lemma contents_overwrite_of_ne (h : q ≠ p) (offset : ℕ) (data : Bytes) :
    (s.overwrite p offset data).contents q = s.contents q := by
  cases data with
  | nil => rfl
  | cons b data =>
      rw [overwrite, contents_set, if_neg h]
      exact List.cons_ne_nil _ _

end Storage

/-! ### Writers -/

namespace Writer

variable {writers writers' : List Writer} {s s' : Storage} {v w : Writer} {i j : ℕ} {path : Path}

/-- No two writers have the same file. -/
def Apart (writers : List Writer) : Prop :=
  (writers.map (·.path)).Pairwise fun p q => ∀ path, p = some path → q ≠ some path

lemma Apart.path_ne (h : Apart writers) (hi : writers[i]? = some v) (hj : writers[j]? = some w)
    (hij : j ≠ i) (hv : v.path = some path) : w.path ≠ some path := by
  obtain ⟨hlti, rfl⟩ := List.getElem?_eq_some_iff.1 hi
  obtain ⟨hltj, rfl⟩ := List.getElem?_eq_some_iff.1 hj
  rw [Apart, List.pairwise_map, List.pairwise_iff_getElem] at h
  rcases Nat.lt_or_gt_of_ne hij with hlt | hlt
  · exact fun hw => h j i hltj hlti hlt path hw hv
  · exact h i j hlti hltj hlt path hv

/-- What was delivered is in the files, and each writer goes on where its file ends. -/
structure Level (writers : List Writer) (s : Storage) : Prop where
  delivered : ∀ w ∈ writers, w.output.sink.delivered = []
  length : ∀ w ∈ writers, ∀ path, w.path = some path → (s.contents path).length = w.offset

/-- The bytes that came by way of a writer: those in its file, and those that wait. -/
def written (w : Writer) (s : Storage) : Bytes :=
  w.path.elim [] s.contents ++ w.output.waiting

lemma written_of_path (h : w.path = some path) (s : Storage) :
    w.written s = s.contents path ++ w.output.waiting := by
  rw [written, h]
  rfl

section Act

variable {f : Output → Output.Attempt} {doing : String}

lemma delivered_act : (w.act s doing f).1.output.sink.delivered = [] := rfl

lemma storage_act (h : w.path = some path) : (w.act s doing f).2.1 =
    s.overwrite path w.offset (f w.output).1.sink.delivered := by
  change w.path.elim s _ = _
  rw [h]
  rfl

/-- A writer does nothing to the files of others. -/
lemma contents_act_of_ne (h : w.path ≠ some path) :
    (w.act s doing f).2.1.contents path = s.contents path := by
  cases hw : w.path with
  | none =>
      change Storage.contents (w.path.elim s _) path = _
      rw [hw]
      rfl
  | some own =>
      rw [storage_act hw]
      exact Storage.contents_overwrite_of_ne (fun he => h (by rw [hw, he])) _ _

/-- What is delivered is added to the file. -/
lemma contents_act (hpath : w.path = some path) (hl : (s.contents path).length = w.offset) :
    (w.act s doing f).2.1.contents path = s.contents path ++ (f w.output).1.sink.delivered := by
  rw [storage_act hpath]
  exact Storage.contents_overwrite_end hl _

/-- Bytes that are delivered remain written. -/
lemma written_act (hpath : w.path = some path) (hl : (s.contents path).length = w.offset) :
    (w.act s doing f).1.written (w.act s doing f).2.1 =
      s.contents path ++ (f w.output).1.written := by
  have hwritten := written_of_path (w := (w.act s doing f).1) hpath (w.act s doing f).2.1
  rw [hwritten, contents_act hpath hl, List.append_assoc]
  rfl

lemma paths_act (hi : writers[i]? = some w) :
    (writers.set i (w.act s doing f).1).map (·.path) = writers.map (·.path) := by
  obtain ⟨hlt, -⟩ := List.getElem?_eq_some_iff.1 hi
  refine List.ext_getElem? fun j => ?_
  rw [List.getElem?_map, List.getElem?_map]
  by_cases hij : i = j
  · subst hij
    rw [List.getElem?_set_self hlt, hi]
    rfl
  · rw [List.getElem?_set_ne hij]

lemma Level.act (h : Level writers s) (hapart : Apart writers) (hi : writers[i]? = some w) :
    Level (writers.set i (w.act s doing f).1) (w.act s doing f).2.1 := by
  have hmem := List.mem_of_getElem? hi
  refine ⟨fun v hv => ?_, fun v hv path hpath => ?_⟩
  · obtain hv | rfl := List.mem_or_eq_of_mem_set hv
    · exact h.delivered v hv
    · exact delivered_act
  · obtain ⟨j, hj⟩ := List.mem_iff_getElem?.1 hv
    rw [List.getElem?_set] at hj
    split at hj
    · split at hj
      · cases hj
        have hl := h.length w hmem path hpath
        rw [contents_act (w := w) hpath hl, List.length_append, hl]
        rfl
      · cases hj
    · rename_i hij
      rw [contents_act_of_ne (hapart.path_ne hj hi hij hpath)]
      exact h.length v (List.mem_of_getElem? hj) path hpath

/-- Each writer keeps the bytes that came by way of it. -/
lemma Level.written_act (h : Level writers s) (hapart : Apart writers) (hi : writers[i]? = some w)
    (hf : Output.Extends f) (hj : writers[j]? = some v) (hpath : v.path = some path) :
    ∃ v', (writers.set i (w.act s doing f).1)[j]? = some v' ∧ v'.path = some path ∧
      v.written s <+: v'.written (w.act s doing f).2.1 := by
  by_cases hij : i = j
  · subst hij
    obtain rfl : w = v := Option.some.inj (hi.symm.trans hj)
    have hmem := List.mem_of_getElem? hi
    obtain ⟨hlt, -⟩ := List.getElem?_eq_some_iff.1 hi
    refine ⟨_, List.getElem?_set_self hlt, hpath, ?_⟩
    rw [Writer.written_act hpath (h.length w hmem path hpath), written_of_path hpath]
    refine (List.prefix_append_right_inj _).2 ?_
    have hextends := hf w.output
    rwa [Output.written, h.delivered w hmem, List.nil_append] at hextends
  · refine ⟨v, by rw [List.getElem?_set_ne hij, hj], hpath, ?_⟩
    rw [written_of_path hpath, written_of_path hpath,
      contents_act_of_ne (hapart.path_ne hj hi hij hpath)]

end Act

/-! ### Runs -/

/-- One thing that a run does with the files and the writers to them. -/
inductive Handles : List Writer × Storage → List Writer × Storage → Prop
  | read (writers : List Writer) (s : Storage) (standardInput : Bytes) :
      Handles (writers, s) (writers, { s with standardInput })
  | write {writers : List Writer} {s : Storage} {i : ℕ} {w : Writer} (h : writers[i]? = some w)
      (text : Text) (terminated : Bool) : Handles (writers, s)
        (writers.set i (w.writeRecord s text terminated).1, (w.writeRecord s text terminated).2.1)

/-- All that a run does with the files and the writers to them. -/
abbrev Handled : List Writer × Storage → List Writer × Storage → Prop :=
  Relation.ReflTransGen Handles

section Handled

variable {held held' : List Writer × Storage}

/-- Each writer keeps its file. -/
lemma Handled.paths (h : Handled held held') :
    held'.1.map (·.path) = held.1.map (·.path) := by
  induction h with
  | refl => rfl
  | tail _ hstep ih =>
      cases hstep with
      | read writers s standardInput => exact ih
      | write hi text terminated => exact (paths_act hi).trans ih

lemma Handled.apart (h : Handled held held') : Apart held'.1 ↔ Apart held.1 := by
  rw [Apart, Apart, Handled.paths h]

lemma Handled.level (h : Handled held held') (hl : Level held.1 held.2) (hapart : Apart held.1) :
    Level held'.1 held'.2 := by
  induction h with
  | refl => exact hl
  | tail hbefore hstep ih =>
      cases hstep with
      | read writers s standardInput => exact ⟨ih.delivered, ih.length⟩
      | write hi text terminated => exact ih.act ((Handled.apart hbefore).2 hapart) hi

/-- Of the bytes that came by way of a writer none is lost. -/
lemma Handled.written (h : Handled held held') (hl : Level held.1 held.2) (hapart : Apart held.1)
    (hi : held.1[i]? = some w) (hpath : w.path = some path) :
    ∃ w', held'.1[i]? = some w' ∧ w'.path = some path ∧ w.written held.2 <+:
      w'.written held'.2 := by
  induction h with
  | refl => exact ⟨w, hi, hpath, List.prefix_rfl⟩
  | tail hbefore hstep ih =>
      obtain ⟨w₁, hw₁, hpath₁, hprefix⟩ := ih
      have hl₁ := Handled.level hbefore hl hapart
      have hapart₁ := (Handled.apart hbefore).2 hapart
      cases hstep with
      | read writers₁ s₁ standardInput => exact ⟨w₁, hw₁, hpath₁, hprefix⟩
      | write hj text terminated =>
          obtain ⟨w₂, hw₂, hpath₂, hmore⟩ := hl₁.written_act hapart₁ hj
            (Output.extends_writeRecord text terminated) hw₁ hpath₁
          exact ⟨w₂, hw₂, hpath₂, hprefix.trans hmore⟩

end Handled

/-! ### Flushing -/

/-- A file that no writer has is left as it is. -/
lemma contents_flushAll_of_ne (h : ∀ w ∈ writers, w.path ≠ some path) (s : Storage) :
    (flushAll s writers).2.1.contents path = s.contents path := by
  induction writers generalizing s with
  | nil => rfl
  | cons w rest ih =>
      rw [List.forall_mem_cons] at h
      have hfirst : (w.flush s).2.1.contents path = s.contents path := contents_act_of_ne h.1
      by_cases hfault : w.output.flush.2 = none
      · rw [flushAll_cons_of_ok hfault, ih h.2, hfirst]
      · obtain ⟨failure, hfails⟩ := flushAll_cons_of_fault hfault rest s
        rw [hfails]
        exact hfirst

/-- For a writer that does not fail, nor any before it, nothing waits any more. -/
lemma waiting_flushAll (hi : writers[i]? = some w)
    (hfine : ∀ v ∈ writers.take (i + 1), v.output.flush.2 = none) (s : Storage) :
    ∃ w', (flushAll s writers).1[i]? = some w' ∧ w'.path = w.path ∧ w'.output.written = [] := by
  induction writers generalizing s i with
  | nil => cases hi
  | cons v rest ih =>
      rw [List.take_succ_cons, List.forall_mem_cons] at hfine
      rw [flushAll_cons_of_ok hfine.1]
      cases i with
      | zero =>
          obtain rfl : v = w := Option.some.inj hi
          exact ⟨_, rfl, rfl, (List.nil_append _).trans (Output.waiting_flush hfine.1)⟩
      | succ i => exact ih hi hfine.2 _

/-- All that came by way of such a writer is in its file. -/
lemma contents_flushAll (hl : Level writers s) (hapart : Apart writers) (hi : writers[i]? = some w)
    (hfine : ∀ v ∈ writers.take (i + 1), v.output.flush.2 = none) (hpath : w.path = some path) :
    (flushAll s writers).2.1.contents path = w.written s := by
  induction writers generalizing s i with
  | nil => cases hi
  | cons v rest ih =>
      rw [List.take_succ_cons, List.forall_mem_cons] at hfine
      have hfirst : (v :: rest)[0]? = some v := rfl
      rw [flushAll_cons_of_ok hfine.1]
      -- What is flushed after the writer goes to other files, and what is flushed before it does
      -- too.
      cases i with
      | zero =>
          obtain rfl : v = w := Option.some.inj hi
          have hothers : ∀ u ∈ rest, u.path ≠ some path := by
            intro u hu
            obtain ⟨j, hj⟩ := List.mem_iff_getElem?.1 hu
            exact hapart.path_ne hfirst (j := j + 1) hj (Nat.succ_ne_zero j) hpath
          have hown := hl.length v List.mem_cons_self path hpath
          rw [contents_flushAll_of_ne hothers, written_of_path hpath]
          refine (contents_act hpath hown).trans (congrArg _ ?_)
          have hall := Output.written_flush v.output
          rw [Output.written, Output.waiting_flush hfine.1, List.append_nil, Output.written,
            hl.delivered v List.mem_cons_self] at hall
          exact hall
      | succ i =>
          have hlevel : Level ((v.flush s).1 :: rest) (v.flush s).2.1 := hl.act hapart hfirst
          have hrest : Level rest (v.flush s).2.1 :=
            ⟨fun u hu => hlevel.delivered u (List.mem_cons_of_mem _ hu),
              fun u hu => hlevel.length u (List.mem_cons_of_mem _ hu)⟩
          have hother : v.path ≠ some path :=
            hapart.path_ne (i := i + 1) hi hfirst (Nat.succ_ne_zero i).symm hpath
          rw [ih hrest (List.Pairwise.of_cons hapart) hi hfine.2, written_of_path hpath,
            written_of_path hpath]
          exact congrArg (· ++ _) (contents_act_of_ne hother)

/-- A writer that fails keeps those after it from being flushed. -/
lemma flushAll_of_fault (hi : writers[i]? = some w) (h : w.output.flush.2 ≠ none) (s : Storage) :
    (flushAll s writers).2.2 ≠ none ∧
      ∀ j, i < j → (flushAll s writers).1[j]? = writers[j]? := by
  induction writers generalizing s i with
  | nil => cases hi
  | cons v rest ih =>
      by_cases hfault : v.output.flush.2 = none
      · rw [flushAll_cons_of_ok hfault]
        cases i with
        | zero => exact absurd (Option.some.inj hi ▸ hfault) h
        | succ i =>
            obtain ⟨hfails, hsame⟩ := ih hi (v.flush s).2.1
            refine ⟨hfails, fun j hj => ?_⟩
            cases j with
            | zero => exact absurd hj (Nat.not_lt_zero _)
            | succ j => exact hsame j (Nat.lt_of_succ_lt_succ hj)
      · obtain ⟨failure, hfails⟩ := flushAll_cons_of_fault hfault rest s
        rw [hfails]
        refine ⟨Option.some_ne_none _, fun j hj => ?_⟩
        cases j with
        | zero => exact absurd hj (Nat.not_lt_zero _)
        | succ j => rfl

/-- Where no writer fails none is reported. -/
lemma flushAll_of_fine (h : ∀ w ∈ writers, w.output.flush.2 = none) (s : Storage) :
    (flushAll s writers).2.2 = none := by
  induction writers generalizing s with
  | nil => rfl
  | cons w rest ih =>
      rw [List.forall_mem_cons] at h
      rw [flushAll_cons_of_ok h.1]
      exact ih h.2 _

/-! ### Beginning -/

/-- Opening files leaves no bytes in them, and adds none to others. -/
lemma openAll_spec {separator : UInt8} {files : List OutputFile}
    (h : openAll separator s files = (.ok writers, s')) :
    (∀ path, s.contents path = [] → s'.contents path = []) ∧
      ∀ w ∈ writers, w.output.written = [] ∧ w.offset = 0 ∧
        ∀ path, w.path = some path → s'.contents path = [] := by
  have hset (s : Storage) (way path : Path) (hpath : path = way ∨ s.contents path = []) :
      (s.set way []).contents path = [] := by
    rw [Storage.contents_set]
    split
    · rfl
    · exact hpath.resolve_left ‹_›
  have hnew (f : OutputFile) (node : Node) : (ofNode f separator node).output.written = [] ∧
      (ofNode f separator node).offset = 0 := by
    cases node <;> exact ⟨rfl, rfl⟩
  obtain ⟨hempty, hpaths⟩ := paths_of_openAll (P := fun s path => s.contents path = []) hset h
  have hfresh := forall_of_openAll (P := fun w => w.output.written = [] ∧ w.offset = 0) hnew h
  exact ⟨hempty, fun w hw => ⟨(hfresh w hw).1, (hfresh w hw).2, hpaths w hw⟩⟩

/-- Writers that are opened go on where their emptied files end. -/
lemma level_of_openAll {separator : UInt8} {files : List OutputFile}
    (h : openAll separator s files = (.ok writers, s')) : Level writers s' := by
  obtain ⟨-, hwriters⟩ := openAll_spec h
  refine ⟨fun w hw => (List.append_eq_nil_iff.1 (hwriters w hw).1).1, fun w hw path hpath => ?_⟩
  obtain ⟨-, hoffset, hempty⟩ := hwriters w hw
  rw [hempty path hpath, hoffset]
  rfl

end Writer

end StreamEditor
