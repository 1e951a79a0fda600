import StreamEditor.Proofs.Parser.Statements
import StreamEditor.Proofs.Program.Nesting

/-!
Programs that are read from scripts are well-formed.

* `Parser.Draft.Sound`: what holds of a draft after every statement (`Sound.step`, `Sound.steps`).
* `Program.collectLabels_spec`: the labels are those that commands define, each once.
* `Program.wellFormed_of_parse`: a program that is read is well-formed.
-/

namespace StreamEditor

variable {library : Regex.Library}

/-! ### Commands that are changed in place -/

section Closed

variable {commands : List Command} {b stop : ℕ}

@[simp] lemma selection_closed (c : Command) : (Parser.closed stop c).selection = c.selection := by
  rw [Parser.closed]
  split <;> rfl

@[simp] lemma target?_closed (c : Command) :
    (Parser.closed stop c).action.target? = c.action.target? := by
  rw [Parser.closed]
  split
  · rename_i t ht
    rw [ht]
    rfl
  · rfl

lemma map_modify_closed {α : Type} {g : Command → α} (hg : ∀ c, g (Parser.closed stop c) = g c) :
    (commands.modify b (Parser.closed stop)).map g = commands.map g := by
  induction commands generalizing b with
  | nil => simp
  | cons c commands ih =>
      cases b with
      | zero => simp [hg]
      | succ b => simp [ih]

/-- What does not depend on the ends of blocks holds as it did before. -/
lemma forall_mem_modify_closed {P : Command → Prop} (hP : ∀ c, P (Parser.closed stop c) ↔ P c) :
    (∀ c ∈ commands.modify b (Parser.closed stop), P c) ↔ ∀ c ∈ commands, P c := by
  have h : (commands.modify b (Parser.closed stop)).map P = commands.map P :=
    map_modify_closed fun c => propext (hP c)
  constructor
  · intro hall c hc
    have hmem : P c ∈ (commands.modify b (Parser.closed stop)).map P := by
      rw [h]
      exact List.mem_map_of_mem hc
    obtain ⟨c', hc', he⟩ := List.mem_map.1 hmem
    exact he ▸ hall c' hc'
  · intro hall c hc
    have hmem : P c ∈ commands.map P := by
      rw [← h]
      exact List.mem_map_of_mem hc
    obtain ⟨c', hc', he⟩ := List.mem_map.1 hmem
    exact he ▸ hall c' hc'

end Closed

namespace Parser

/-! ### Drafts -/

/-- What holds of the part of a program that is read so far. -/
structure Draft.Sound (d : Draft) : Prop where
  nested : Nested d.commands d.openBlocks
  slots : d.commands.filterMap (·.selection.slot?) = List.range d.rangeCount
  targets : ∀ c ∈ d.commands, ∀ i, c.action.target? = some (.file i) → i < d.outputFiles.length
  files : ∀ i < d.outputFiles.length, some (Target.file i) ∈ d.commands.map (·.action.target?)
  files_nodup : (d.outputFiles.map (Path.key ·.name)).Nodup
  zero_placed : ∀ c ∈ d.commands, c.selection.ZeroPlaced
  substitutions : ∀ c ∈ d.commands, ∀ s, c.action = .substitute s → s.Sound
  /-- Labels are looked up when all commands are read. -/
  unresolved : ∀ c ∈ d.commands, ∀ condition label target,
    c.action = .branch condition label target → target = none

namespace Draft.Sound

lemma empty : Draft.Sound ⟨[], [], 0, []⟩ := by
  refine ⟨Nested.nil, ?_, ?_, ?_, ?_, ?_, ?_, ?_⟩ <;> simp

/-- The ranges are counted on. -/
lemma slots_concat {commands : List Command} {n ranges : ℕ} {c : Command}
    (h : commands.filterMap (·.selection.slot?) = List.range n)
    (hc : Counted n c.selection ranges) :
    (commands ++ [c]).filterMap (·.selection.slot?) = List.range ranges := by
  rw [List.filterMap_append, h]
  rcases hc with ⟨hnone, rfl⟩ | ⟨hsome, rfl⟩
  · simp [hnone]
  · rw [List.range_succ]
    simp [hsome]

lemma lt_length_of_names {before files : List OutputFile} {target : Option Target}
    (h : Names before target files) :
    before.length ≤ files.length ∧ ∀ i, target = some (.file i) → i < files.length := by
  rcases h with ⟨rfl, ht⟩ | ⟨f, rfl, rfl, -⟩
  · exact ⟨le_rfl, ht⟩
  · refine ⟨by simp, ?_⟩
    rintro i hi
    cases hi
    simp

/-- A file beyond those before is the one that the target names. -/
lemma target_of_names {before files : List OutputFile} {target : Option Target} {i : ℕ}
    (h : Names before target files) (hi : i < files.length) (hb : ¬ i < before.length) :
    target = some (.file i) := by
  rcases h with ⟨rfl, -⟩ | ⟨f, rfl, rfl, -⟩
  · exact absurd hi hb
  · rw [List.length_append, List.length_singleton] at hi
    rw [show i = before.length by omega]

lemma nodup_of_names {before files : List OutputFile} {target : Option Target}
    (h : Names before target files) (hb : (before.map (Path.key ·.name)).Nodup) :
    (files.map (Path.key ·.name)).Nodup := by
  rcases h with ⟨rfl, -⟩ | ⟨f, rfl, -, hnew⟩
  · exact hb
  · rw [List.map_append, List.nodup_append]
    refine ⟨hb, by simp, ?_⟩
    simpa using hnew

/-- Adding a command that is no brace. -/
lemma command {d : Draft} {c : Command} {files : List OutputFile} {ranges : ℕ} (h : d.Sound)
    (hzero : c.selection.ZeroPlaced) (hread : c.action.Read)
    (hcount : Counted d.rangeCount c.selection ranges)
    (hnames : Names d.outputFiles c.action.target? files) :
    Draft.Sound ⟨d.commands ++ [c], files, ranges, d.openBlocks⟩ := by
  have hblock : ∀ stop, c.action ≠ .block stop := fun stop he => by rw [he] at hread; exact hread
  have hend : c.action ≠ .blockEnd := fun he => by rw [he] at hread; exact hread
  obtain ⟨hle, hlt⟩ := lt_length_of_names hnames
  refine ⟨h.nested.concat hblock hend, slots_concat h.slots hcount, ?_, ?_,
    nodup_of_names hnames h.files_nodup, ?_, ?_, ?_⟩
  · rw [List.forall_mem_append]
    refine ⟨fun c' hc' i hi => (h.targets c' hc' i hi).trans_le hle, ?_⟩
    simpa using hlt
  · intro i hi
    rw [List.map_append, List.mem_append]
    by_cases hb : i < d.outputFiles.length
    · exact .inl (h.files i hb)
    · rw [← target_of_names hnames hi hb]
      simp
  · rw [List.forall_mem_append]
    exact ⟨h.zero_placed, by simpa using hzero⟩
  · rw [List.forall_mem_append]
    refine ⟨h.substitutions, ?_⟩
    rintro c' hc' s hs
    rw [List.mem_singleton.1 hc'] at hs
    rwa [hs] at hread
  · rw [List.forall_mem_append]
    refine ⟨h.unresolved, ?_⟩
    rintro c' hc' condition label target hb
    rw [List.mem_singleton.1 hc'] at hb
    rwa [hb] at hread

/-- Opening a block. -/
lemma openBlock {d : Draft} {c : Command} {ranges : ℕ} (h : d.Sound)
    (hzero : c.selection.ZeroPlaced) (hblock : c.action = .block 0)
    (hcount : Counted d.rangeCount c.selection ranges) :
    Draft.Sound ⟨d.commands ++ [c], d.outputFiles, ranges, d.commands.length :: d.openBlocks⟩ := by
  refine ⟨h.nested.open_ hblock, slots_concat h.slots hcount, ?_, ?_, h.files_nodup, ?_, ?_, ?_⟩
  · rw [List.forall_mem_append]
    exact ⟨h.targets, by simp [hblock, Action.target?]⟩
  · intro i hi
    rw [List.map_append, List.mem_append]
    exact .inl (h.files i hi)
  · rw [List.forall_mem_append]
    exact ⟨h.zero_placed, by simpa using hzero⟩
  · rw [List.forall_mem_append]
    exact ⟨h.substitutions, by simp [hblock]⟩
  · rw [List.forall_mem_append]
    exact ⟨h.unresolved, by simp [hblock]⟩

/-- Closing the innermost block. -/
lemma closeBlock {d : Draft} {c : Command} {block : ℕ} {outer : List ℕ} (h : d.Sound)
    (hopen : d.openBlocks = block :: outer) (hall : c.selection = .all)
    (hend : c.action = .blockEnd) :
    Draft.Sound ⟨d.commands.modify block (closed d.commands.length) ++ [c], d.outputFiles,
      d.rangeCount, outer⟩ := by
  have hnested : Nested d.commands (block :: outer) := hopen ▸ h.nested
  refine ⟨hnested.close hend, ?_, ?_, ?_, h.files_nodup, ?_, ?_, ?_⟩
  · have hslots := congrArg (List.filterMap id) (map_modify_closed (g := (·.selection.slot?))
      fun c => congrArg Selection.slot? (selection_closed c) :
        (d.commands.modify block (closed d.commands.length)).map _ = _)
    simp only [List.filterMap_map, Function.id_comp] at hslots
    rw [List.filterMap_append, hslots, h.slots]
    simp [hall, Selection.slot?]
  · rw [List.forall_mem_append, forall_mem_modify_closed fun c => by rw [target?_closed]]
    exact ⟨h.targets, by simp [hend, Action.target?]⟩
  · intro i hi
    rw [List.map_append, map_modify_closed fun c => target?_closed c, List.mem_append]
    exact .inl (h.files i hi)
  · rw [List.forall_mem_append, forall_mem_modify_closed fun c => by rw [selection_closed]]
    exact ⟨h.zero_placed, by simp [hall, Selection.ZeroPlaced]⟩
  · rw [List.forall_mem_append,
      forall_mem_modify_closed fun c => forall_congr' fun s => by rw [action_closed_eq (by simp)]]
    exact ⟨h.substitutions, by simp [hend]⟩
  · rw [List.forall_mem_append, forall_mem_modify_closed fun c => forall_congr' fun condition =>
      forall_congr' fun label => forall_congr' fun target => by rw [action_closed_eq (by simp)]]
    exact ⟨h.unresolved, by simp [hend]⟩

lemma step {d d' : Draft} (h : d.Sound) (hstep : d.Step d') : d'.Sound := by
  cases hstep with
  | command hzero hread hcount hnames => exact h.command hzero hread hcount hnames
  | openBlock hzero hblock hcount => exact h.openBlock hzero hblock hcount
  | closeBlock hopen hall hend => exact h.closeBlock hopen hall hend

lemma steps {d d' : Draft} (h : d.Sound) (hsteps : Relation.ReflTransGen Draft.Step d d') :
    d'.Sound := by
  induction hsteps with
  | refl => exact h
  | tail _ hstep ih => exact ih.step hstep

end Draft.Sound

/-- The draft of a whole script is sound, and in it no block is open. -/
lemma sound_of_wholeScript {script : Script} {options : Options} {q : Parser}
    (h : wholeScript.run (start script options) = .ok ((), q)) :
    q.draft.Sound ∧ q.openBlocks = [] := by
  obtain ⟨hsteps, hopen⟩ := yields_wholeScript _ _ _ h
  exact ⟨Draft.Sound.empty.steps hsteps, hopen⟩

end Parser

namespace Program

/-! ### Labels -/

lemma lookup_eq_some_iff {α β : Type} [BEq α] [LawfulBEq α] {l : List (α × β)}
    (h : (l.map Prod.fst).Nodup) {a : α} {b : β} : l.lookup a = some b ↔ (a, b) ∈ l := by
  induction l with
  | nil => simp
  | cons entry l ih =>
      obtain ⟨k, v⟩ := entry
      rw [List.map_cons, List.nodup_cons] at h
      rw [List.lookup_cons]
      cases hk : a == k with
      | true =>
          cases eq_of_beq hk
          have hnot : (a, b) ∉ l := fun hm => h.1 (List.mem_map.2 ⟨(a, b), hm, rfl⟩)
          simp [hnot, eq_comm]
      | false =>
          have hne : a ≠ k := by simpa using hk
          simp [hne, ih h.2]

/-- The labels are those before and those that the commands define, each once. -/
lemma collectLabels_spec {commands : List Command} {n : ℕ} {labels found : List (Text × ℕ)}
    (h : collectLabels n labels commands = .ok found) (hb : (labels.map Prod.fst).Nodup) :
    (found.map Prod.fst).Nodup ∧ ∀ name i, (name, i) ∈ found ↔
      (name, i) ∈ labels ∨ ∃ k, i = n + k ∧ Defines commands k name := by
  induction commands generalizing n labels with
  | nil =>
      cases h
      exact ⟨hb, by simp [Defines]⟩
  | cons c rest ih =>
      -- Counted from the rest of the commands, what they define is one place nearer.
      have hdefines : ∀ name i, (∃ k, i = n + k ∧ Defines (c :: rest) k name) ↔
          (i = n ∧ c.action = .label name) ∨ ∃ k, i = n + 1 + k ∧ Defines rest k name := by
        intro name i
        constructor
        · rintro ⟨k, rfl, c', hc', hl⟩
          cases k with
          | zero =>
              cases hc'
              exact .inl ⟨rfl, hl⟩
          | succ k => exact .inr ⟨k, by omega, c', hc', hl⟩
        · rintro (⟨rfl, hl⟩ | ⟨k, rfl, c', hc', hl⟩)
          · exact ⟨0, rfl, c, rfl, hl⟩
          · exact ⟨k + 1, by omega, c', hc', hl⟩
      rw [collectLabels] at h
      split at h
      · rename_i name hname
        split at h
        · cases h
        · rename_i hnew
          have hnew' : name ∉ labels.map Prod.fst := by
            simpa [List.any_eq_true] using hnew
          have hb' : ((labels ++ [(name, n)]).map Prod.fst).Nodup := by
            rw [List.map_append, List.nodup_append]
            refine ⟨hb, by simp, ?_⟩
            intro a ha b hmem
            rw [List.map_singleton, List.mem_singleton] at hmem
            subst hmem
            exact fun he => hnew' (he ▸ ha)
          obtain ⟨hnodup, hmem⟩ := ih h hb'
          refine ⟨hnodup, fun name' i => ?_⟩
          rw [hmem, hdefines, hname]
          simp [and_comm, eq_comm, or_assoc]
      · rename_i hname
        obtain ⟨hnodup, hmem⟩ := ih h hb
        refine ⟨hnodup, fun name i => ?_⟩
        have hno : ¬(i = n ∧ c.action = .label name) := fun he => hname name he.2
        rw [hmem, hdefines, or_iff_right hno]

section Resolved

variable {labels : List (Text × ℕ)} {commands : List Command} {c : Command}

@[simp] lemma selection_resolve : (resolve labels c).selection = c.selection := by
  rw [resolve]
  split <;> rfl

@[simp] lemma target?_resolve : (resolve labels c).action.target? = c.action.target? := by
  rw [resolve]
  split
  · rename_i condition name target h
    rw [h]
    rfl
  · rfl

/-- Only branches to a label are changed. -/
lemma action_resolve_eq {a : Action}
    (ha : ∀ condition name target, a ≠ .branch condition (some name) target) :
    (resolve labels c).action = a ↔ c.action = a := by
  rw [resolve]
  split
  · rename_i condition name target h
    rw [h]
    exact ⟨fun he => absurd he.symm (ha _ _ _), fun he => absurd he.symm (ha _ _ _)⟩
  · rfl

/-- Commands other than branches stand where they stood. -/
lemma exists_getElem?_resolve {i : ℕ} {a : Action}
    (ha : ∀ condition name target, a ≠ .branch condition (some name) target) :
    (∃ c, (commands.map (resolve labels))[i]? = some c ∧ c.action = a) ↔
      ∃ c, commands[i]? = some c ∧ c.action = a := by
  rw [List.getElem?_map]
  cases commands[i]? with
  | none => simp
  | some c => simp [action_resolve_eq ha]

lemma opens_resolve {i stop : ℕ} :
    Opens (commands.map (resolve labels)) i stop ↔ Opens commands i stop :=
  exists_getElem?_resolve (by simp)

lemma closes_resolve {i : ℕ} :
    Closes (commands.map (resolve labels)) i ↔ Closes commands i :=
  exists_getElem?_resolve (by simp)

lemma defines_resolve {i : ℕ} {name : Text} :
    Defines (commands.map (resolve labels)) i name ↔ Defines commands i name :=
  exists_getElem?_resolve (by simp)

/-- A branch leads to its label, if no branch leads to a label that is not defined. -/
lemma branch_resolve (hdefined : undefinedLabel? labels c = none)
    (hunresolved : ∀ condition label target, c.action = .branch condition label target →
      target = none) {condition : Condition} {label : Option Text} {target : Option ℕ}
    (h : (resolve labels c).action = .branch condition label target) :
    (label = none → target = none) ∧
      ∀ name, label = some name → ∃ i, labels.lookup name = some i ∧ target = some i := by
  cases label with
  | none =>
      rw [action_resolve_eq (by simp)] at h
      exact ⟨fun _ => hunresolved _ _ _ h, by simp⟩
  | some name =>
      refine ⟨by simp, fun name' hname => ?_⟩
      cases hname
      rw [resolve] at h
      rw [undefinedLabel?] at hdefined
      split at h
      · rename_i condition' name' target' hc
        cases h
        simp only [hc] at hdefined
        cases hl : labels.lookup name with
        | none => simp [hl] at hdefined
        | some i => exact ⟨i, rfl, rfl⟩
      · rename_i hno
        exact absurd h (hno _ _ _)

end Resolved

/-- What a script is read as. -/
lemma parse_eq_ok {script : Script} {options : Options} {p : Program}
    (h : parse script options = .ok p) :
    ∃ q labels, Parser.wholeScript.run (Parser.start script options) = .ok ((), q) ∧
      collectLabels 0 [] q.commands = .ok labels ∧
      (∀ c ∈ q.commands, undefinedLabel? labels c = none) ∧
      p = ⟨q.commands.map (resolve labels), labels, q.outputFiles, q.rangeCount,
        script.asksForQuiet⟩ := by
  rw [parse] at h
  rcases hrun : Parser.wholeScript.run (Parser.start script options) with fault | ⟨⟨⟩, q⟩
  · rw [hrun] at h
    cases h
  · rw [hrun] at h
    rcases hlabels : collectLabels 0 [] q.commands with fault | labels
    · simp only [bind, Except.bind, hlabels] at h
      cases h
    · simp only [bind, Except.bind, hlabels] at h
      split at h
      · rename_i hdefined
        cases h
        exact ⟨q, labels, rfl, hlabels, by simpa using hdefined, rfl⟩
      · cases h

/-- A program that is read from a script is well-formed. -/
theorem wellFormed_of_parse {script : Script} {options : Options} {p : Program}
    (h : parse script options = .ok p) : p.WellFormed := by
  obtain ⟨q, labels, hrun, hlabels, hdefined, rfl⟩ := parse_eq_ok h
  obtain ⟨hsound, hopen⟩ := Parser.sound_of_wholeScript hrun
  have hnested : Nested q.commands [] := hopen ▸ hsound.nested
  obtain ⟨hnodup, hmem⟩ := collectLabels_spec hlabels List.nodup_nil
  have hslots : q.commands.filterMap (·.selection.slot?) = List.range q.rangeCount := hsound.slots
  exact
    { opens := fun i stop hi => by
        rw [closes_resolve]
        exact hnested.opens i stop (opens_resolve.1 hi) (by simp)
      closes := fun j hj => by
        obtain ⟨i, hi, -⟩ := hnested.closes j (closes_resolve.1 hj)
        refine ⟨i, opens_resolve.2 hi, fun k hk => ?_⟩
        exact hnested.opens_unique (opens_resolve.1 hk) (by simp) hi (by simp)
      nested := fun i j s t hi hj =>
        hnested.nested i j s t (opens_resolve.1 hi) (by simp) (opens_resolve.1 hj) (by simp)
      labels_nodup := hnodup
      labels := fun name i => by
        dsimp only
        rw [lookup_eq_some_iff hnodup, hmem, defines_resolve]
        simp
      branches := List.forall_mem_map.2 fun c hc condition label target hb =>
        branch_resolve (hdefined c hc) (hsound.unresolved c hc) hb
      slots := by
        rw [List.filterMap_map]
        simpa [Function.comp_def] using hslots
      targets := List.forall_mem_map.2 fun c hc => by
        rw [target?_resolve]
        exact hsound.targets c hc
      files := fun i hi => by
        obtain ⟨c, hc, ht⟩ := List.mem_map.1 (hsound.files i hi)
        exact ⟨resolve labels c, List.mem_map_of_mem hc, by rw [target?_resolve, ht]⟩
      files_nodup := hsound.files_nodup
      zero_placed := List.forall_mem_map.2 fun c hc => by
        rw [selection_resolve]
        exact hsound.zero_placed c hc
      substitutions := List.forall_mem_map.2 fun c hc s hs =>
        hsound.substitutions c hc s ((action_resolve_eq (by simp)).1 hs) }

end Program

end StreamEditor
