import StreamEditor.Proofs.Program.Parsed

/-!
Commands behind others.

* `Command.moved`: a command that comes after others, with their ranges and output files before
  its own.
* `Renumbers`: the file that a target names keeps its path under its new number.
* `mergedFiles`, `fileNumber`: the output files of both, each path once, and the new numbers.
* `collectLabels_append`, `resolve_moved`: labels and the branches to them move along.
-/

namespace StreamEditor

/-! ### One command -/

/-- The selection, with a range numbered after `ranges` others. -/
def Selection.moved (ranges : ℕ) : Selection → Selection
  | .range first stop slot => .range first stop (slot + ranges)
  | s => s

/-- The target, with a file under its new number. -/
def Target.moved (number : ℕ → ℕ) : Target → Target
  | .file i => .file (number i)
  | t => t

/-- The action of a command that comes after `places` others. -/
def Action.moved (places : ℕ) (number : ℕ → ℕ) : Action → Action
  | .block stop => .block (stop + places)
  | .branch condition goal target => .branch condition goal (target.map (· + places))
  | .substitute s => .substitute { s with write := s.write.map (·.moved number) }
  | .write target => .write (target.moved number)
  | .writeFirstLine target => .writeFirstLine (target.moved number)
  | a => a

/-- The command after `places` others with `ranges` ranges, and its output file under its new
number. -/
def Command.moved (places ranges : ℕ) (number : ℕ → ℕ) (c : Command) : Command :=
  { c with
    selection := c.selection.moved ranges
    action := c.action.moved places number }

section Moved

variable {places ranges : ℕ} {number number' : ℕ → ℕ} {a : Action} {c : Command}

@[simp] lemma addressCount_moved (s : Selection) :
    (s.moved ranges).addressCount = s.addressCount := by
  cases s <;> rfl

@[simp] lemma action_moved (c : Command) :
    (c.moved places ranges number).action = c.action.moved places number := rfl

lemma selection_moved_zero (s : Selection) : s.moved 0 = s := by
  cases s <;> rfl

/-- Only the numbers of the files that are named matter. -/
lemma Action.moved_congr (h : ∀ i, a.target? = some (.file i) → number i = number' i) :
    a.moved places number = a.moved places number' := by
  have htarget : ∀ t : Target, a.target? = some t → t.moved number = t.moved number' := by
    rintro (_ | _ | i) ht
    · rfl
    · rfl
    · rw [Target.moved, Target.moved, h i ht]
  cases a with
  | substitute s =>
      have hwrite : s.write.map (·.moved number) = s.write.map (·.moved number') := by
        cases hs : s.write with
        | none => rfl
        | some t => exact congrArg some (htarget t hs)
      simp only [Action.moved, hwrite]
  | write t => exact congrArg Action.write (htarget t rfl)
  | writeFirstLine t => exact congrArg Action.writeFirstLine (htarget t rfl)
  | _ => rfl

lemma Action.moved_zero (h : ∀ i, a.target? = some (.file i) → number i = i) :
    a.moved 0 number = a := by
  rw [show a.moved 0 number = a.moved 0 id from Action.moved_congr h]
  have htarget : ∀ t : Target, t.moved id = t := by
    rintro (_ | _ | i) <;> rfl
  cases a with
  | branch condition goal target => simp [Action.moved]
  | substitute s =>
      simp only [Action.moved, htarget]
      simp
  | write | writeFirstLine => rw [Action.moved, htarget]
  | _ => rfl

/-- Before all others a command stays as it is. -/
lemma Command.moved_zero (h : ∀ i, c.action.target? = some (.file i) → number i = i) :
    c.moved 0 0 number = c := by
  rw [Command.moved, selection_moved_zero, Action.moved_zero h]

lemma Action.moved_eq_block {stop : ℕ} (h : a.moved places number = .block stop) :
    ∃ s, a = .block s := by
  cases a with
  | block s => exact ⟨s, rfl⟩
  | _ => cases h

lemma Action.moved_eq_label {name : Text} :
    a.moved places number = .label name ↔ a = .label name := by
  cases a <;> simp [Action.moved]

end Moved

/-! ### Output files -/

/-- The file that a target names has the same path under its new number. -/
def Renumbers (files files' : List OutputFile) (number : ℕ → ℕ) (target : Option Target) : Prop :=
  ∀ i, target = some (.file i) → ∃ f f', files[i]? = some f ∧ files'[number i]? = some f' ∧
    Path.key f'.name = Path.key f.name

/-- The output files of a program, and those of another that have other paths. -/
def mergedFiles (files files' : List OutputFile) : List OutputFile :=
  files ++ files'.filter fun f => files.all (Path.key ·.name ≠ Path.key f.name)

/-- The number of the file with the same path. -/
def fileNumber (files merged : List OutputFile) (i : ℕ) : ℕ :=
  ((files[i]?).bind fun f => merged.findIdx? (Path.key ·.name = Path.key f.name)).getD i

section Files

variable {files files' before : List OutputFile} {number : ℕ → ℕ} {target : Option Target}

lemma Renumbers.append (h : Renumbers files files' number target) (more more' : List OutputFile) :
    Renumbers (files ++ more) (files' ++ more') number target := by
  intro i hi
  obtain ⟨f, f', hf, hf', hkey⟩ := h i hi
  have hlt := (List.getElem?_eq_some_iff.1 hf).1
  have hlt' := (List.getElem?_eq_some_iff.1 hf').1
  exact ⟨f, f', by rw [List.getElem?_append_left hlt, hf],
    by rw [List.getElem?_append_left hlt', hf'], hkey⟩

lemma renumbers_none (files files' : List OutputFile) (number : ℕ → ℕ) :
    Renumbers files files' number none := nofun

@[simp] lemma mergedFiles_nil (files : List OutputFile) : mergedFiles [] files = files := by
  simp [mergedFiles]

/-- Where no path occurs twice a file keeps its number among the same files. -/
lemma Renumbers.eq_self (h : Renumbers files files number target)
    (hnodup : (files.map (Path.key ·.name)).Nodup) {i : ℕ} (hi : target = some (.file i)) :
    number i = i := by
  obtain ⟨f, f', hf, hf', hkey⟩ := h i hi
  refine (List.getElem?_inj ?_ hnodup).1 ?_
  · rw [List.length_map]
    exact (List.getElem?_eq_some_iff.1 hf').1
  · rw [List.getElem?_map, List.getElem?_map, hf', hf]
    exact congrArg some hkey

/-- The path of a file is found among those of both programs. -/
lemma exists_mem_mergedFiles (before : List OutputFile) {f : OutputFile} (h : f ∈ files) :
    ∃ f' ∈ mergedFiles before files, Path.key f'.name = Path.key f.name := by
  by_cases hold : ∃ f' ∈ before, Path.key f'.name = Path.key f.name
  · obtain ⟨f', hf', hkey⟩ := hold
    exact ⟨f', List.mem_append_left _ hf', hkey⟩
  · refine ⟨f, List.mem_append_right _ (List.mem_filter.2 ⟨h, ?_⟩), rfl⟩
    rw [List.all_eq_true]
    intro f' hf'
    exact decide_eq_true fun hkey => hold ⟨f', hf', hkey⟩

/-- A file whose path is found already is left out. -/
lemma mergedFiles_concat_of_mem {f f' : OutputFile} (h : f' ∈ mergedFiles before files)
    (hkey : Path.key f'.name = Path.key f.name)
    (hnew : ∀ g ∈ files, Path.key g.name ≠ Path.key f.name) :
    mergedFiles before (files ++ [f]) = mergedFiles before files := by
  have hold : f' ∈ before := by
    rcases List.mem_append.1 h with h | h
    · exact h
    · exact absurd hkey (hnew f' (List.mem_of_mem_filter h))
  have hall : before.all (Path.key ·.name ≠ Path.key f.name) = false :=
    List.all_eq_false.2 ⟨f', hold, by simpa using hkey⟩
  rw [mergedFiles, List.filter_append, List.filter_singleton, hall, cond_false, List.append_nil]
  rfl

lemma mergedFiles_concat_of_new {f : OutputFile}
    (hnew : ∀ g ∈ mergedFiles before files, Path.key g.name ≠ Path.key f.name) :
    mergedFiles before (files ++ [f]) = mergedFiles before files ++ [f] := by
  have hall : before.all (Path.key ·.name ≠ Path.key f.name) = true :=
    List.all_eq_true.2 fun g hg => decide_eq_true (hnew g (List.mem_append_left _ hg))
  rw [mergedFiles, List.filter_append, List.filter_singleton, hall, cond_true, ← List.append_assoc]
  rfl

/-- Every file has a number under which its path is kept. -/
lemma getElem?_fileNumber (before : List OutputFile) {i : ℕ} {f : OutputFile}
    (h : files[i]? = some f) :
    ∃ f', (mergedFiles before files)[fileNumber files (mergedFiles before files) i]? = some f' ∧
      Path.key f'.name = Path.key f.name := by
  obtain ⟨f', hmem, hkey⟩ := exists_mem_mergedFiles before (List.mem_of_getElem? h)
  rw [fileNumber, h, Option.bind_some]
  cases hfind : (mergedFiles before files).findIdx? (Path.key ·.name = Path.key f.name) with
  | none =>
      have hno := List.findIdx?_eq_none_iff.1 hfind f' hmem
      exact absurd hkey (by simpa using hno)
  | some j =>
      obtain ⟨hj, hkeys, -⟩ := List.findIdx?_eq_some_iff_getElem.1 hfind
      exact ⟨_, List.getElem?_eq_getElem hj, by simpa using hkeys⟩

/-- A number under which the path is kept is the only one, if no path occurs twice. -/
lemma Renumbers.eq_fileNumber (h : Renumbers files (mergedFiles before files) number target)
    (hnodup : ((mergedFiles before files).map (Path.key ·.name)).Nodup) {i : ℕ}
    (hi : target = some (.file i)) :
    number i = fileNumber files (mergedFiles before files) i := by
  obtain ⟨f, f', hf, hf', hkey⟩ := h i hi
  obtain ⟨g, hg, hkey'⟩ := getElem?_fileNumber before hf
  refine (List.getElem?_inj ?_ hnodup).1 ?_
  · rw [List.length_map]
    exact (List.getElem?_eq_some_iff.1 hf').1
  · rw [List.getElem?_map, List.getElem?_map, hf', hg]
    exact congrArg some (hkey.trans hkey'.symm)

/-- Where no path occurs twice, each file has its own number. -/
lemma fileNumber_self (hnodup : (files.map (Path.key ·.name)).Nodup) :
    fileNumber files files = id := by
  funext i
  cases hf : files[i]? with
  | none => simp [fileNumber, hf]
  | some f =>
      obtain ⟨f', hf', hkey⟩ := getElem?_fileNumber [] hf
      rw [mergedFiles_nil] at hf'
      have hrenumbers : Renumbers files files (fileNumber files files) (some (.file i)) := by
        rintro j hj
        cases hj
        exact ⟨f, f', hf, hf', hkey⟩
      exact hrenumbers.eq_self hnodup rfl

end Files

/-! ### Labels -/

namespace Program

/-- Labels of commands that come after `places` others. -/
def movedLabels (places : ℕ) (labels : List (Text × ℕ)) : List (Text × ℕ) :=
  labels.map (Prod.map id (· + places))

section Labels

variable {labels labels' found : List (Text × ℕ)} {places ranges : ℕ} {number : ℕ → ℕ}

lemma collectLabels_append (first second : List Command) (n : ℕ) (labels : List (Text × ℕ)) :
    collectLabels n labels (first ++ second) =
      (collectLabels n labels first).bind fun found =>
        collectLabels (n + first.length) found second := by
  induction first generalizing n labels with
  | nil => rfl
  | cons c first ih =>
      rw [List.cons_append, collectLabels, collectLabels]
      split
      · split
        · rfl
        · rw [ih, List.length_cons, Nat.add_assoc, Nat.add_comm 1]
      · rw [ih, List.length_cons, Nat.add_assoc, Nat.add_comm 1]

lemma lookup_movedLabels (name : Text) :
    (movedLabels places labels).lookup name = (labels.lookup name).map (· + places) := by
  induction labels with
  | nil => rfl
  | cons entry labels ih =>
      rw [movedLabels, List.map_cons, List.lookup_cons, List.lookup_cons]
      cases h : name == entry.1 with
      | true => simp [h]
      | false => simpa [h, movedLabels] using ih

/-- Labels are only added. -/
lemma prefix_of_collectLabels {commands : List Command} {n : ℕ}
    (h : collectLabels n labels commands = .ok found) : labels <+: found := by
  induction commands generalizing n labels with
  | nil =>
      cases h
      exact List.prefix_rfl
  | cons c rest ih =>
      rw [collectLabels] at h
      split at h
      · split at h
        · cases h
        · exact (List.prefix_append _ _).trans (ih h)
      · exact ih h

/-- Where no label is defined before, those of commands that come after others are the same. -/
lemma collectLabels_moved (places ranges : ℕ) (number : ℕ → ℕ) {commands : List Command} {n : ℕ}
    (h : collectLabels n labels commands = .ok found)
    (hnew : (labels'.map Prod.fst).Disjoint (found.map Prod.fst)) :
    collectLabels (n + places) (labels' ++ movedLabels places labels)
        (commands.map (Command.moved places ranges number)) =
      .ok (labels' ++ movedLabels places found) := by
  induction commands generalizing n labels with
  | nil =>
      cases h
      rfl
  | cons c commands ih =>
      have hsucc : n + places + 1 = n + 1 + places := Nat.add_right_comm n places 1
      rw [List.map_cons]
      rw [collectLabels] at h ⊢
      rw [action_moved, hsucc]
      split at h
      · rename_i name hname
        split at h
        · cases h
        · rename_i hfirst
          have hmem : name ∈ found.map Prod.fst :=
            List.mem_map_of_mem ((prefix_of_collectLabels h).subset (List.mem_concat_self))
          -- No label before has this name, neither a moved one nor one of the first commands.
          have hany : (labels' ++ movedLabels places labels).any (·.1 = name) = false := by
            rw [List.any_append, Bool.or_eq_false_iff]
            refine ⟨?_, ?_⟩
            · rw [List.any_eq_false]
              intro entry hentry he
              rw [← of_decide_eq_true he] at hmem
              exact hnew (List.mem_map_of_mem hentry) hmem
            · rw [movedLabels, List.any_map]
              exact Bool.eq_false_iff.2 hfirst
          have hrest := ih h
          simp only [hname, Action.moved, hany, Bool.false_eq_true, if_false]
          simpa [movedLabels] using hrest
      · rename_i hname
        split
        · rename_i name hlabel
          exact absurd (Action.moved_eq_label.1 hlabel) (hname name)
        · exact ih h

/-- Other commands have no label to look up. -/
lemma resolve_of_ne_branch {c : Command}
    (hc : ∀ condition name target, c.action ≠ .branch condition (some name) target)
    (labels : List (Text × ℕ)) : resolve labels c = c ∧ undefinedLabel? labels c = none := by
  rw [resolve, undefinedLabel?]
  split
  · exact absurd ‹_› (hc _ _ _)
  · exact ⟨rfl, rfl⟩

/-- A branch to a label leads to the same command, if no label before has its name. -/
lemma resolve_moved {c : Command} (hdefined : undefinedLabel? labels c = none)
    (hnew : (labels'.map Prod.fst).Disjoint (labels.map Prod.fst)) :
    resolve (labels' ++ movedLabels places labels) (c.moved places ranges number) =
        (resolve labels c).moved places ranges number ∧
      undefinedLabel? (labels' ++ movedLabels places labels) (c.moved places ranges number) =
        none := by
  by_cases hbranch : ∃ condition name target, c.action = .branch condition (some name) target
  · obtain ⟨condition, name, target, hbranch⟩ := hbranch
    obtain ⟨i, hlookup⟩ : ∃ i, labels.lookup name = some i := by
      rw [undefinedLabel?, hbranch] at hdefined
      exact Option.isSome_iff_exists.1 (by simpa using hdefined)
    have hmem : name ∈ labels.map Prod.fst := by
      rw [List.lookup_eq_some_iff] at hlookup
      obtain ⟨before, after, rfl, -⟩ := hlookup
      simp
    -- The name is looked up behind the labels of the first commands, which do not have it.
    have hfirst : labels'.lookup name = none := by
      rw [List.lookup_eq_none_iff]
      intro entry hentry
      exact bne_iff_ne.2 fun he => hnew (List.mem_map_of_mem hentry) (he ▸ hmem)
    have hboth : (labels' ++ movedLabels places labels).lookup name = some (i + places) := by
      rw [List.lookup_append, hfirst, lookup_movedLabels, hlookup]
      rfl
    simp only [resolve, undefinedLabel?, action_moved, hbranch, Action.moved, hboth, hlookup]
    exact ⟨rfl, rfl⟩
  · have hmoved : ∀ condition name target,
        c.action.moved places number ≠ .branch condition (some name) target := by
      intro condition name target h
      cases haction : c.action with
      | branch condition' goal target' =>
          rw [haction] at h hbranch
          cases h
          exact hbranch ⟨_, _, _, rfl⟩
      | _ => rw [haction] at h; cases h
    obtain ⟨hresolve, hundefined⟩ := resolve_of_ne_branch (c := c.moved places ranges number)
      hmoved (labels' ++ movedLabels places labels)
    have hown := (resolve_of_ne_branch (fun _ _ _ h => hbranch ⟨_, _, _, h⟩) labels).1
    rw [hresolve, hown]
    exact ⟨rfl, hundefined⟩

/-- More labels behind those that are defined change nothing. -/
lemma resolve_append {c : Command} (hdefined : undefinedLabel? labels c = none)
    (more : List (Text × ℕ)) :
    resolve (labels ++ more) c = resolve labels c ∧ undefinedLabel? (labels ++ more) c = none := by
  rw [undefinedLabel?] at hdefined
  rw [resolve, resolve, undefinedLabel?]
  split at hdefined
  · rename_i condition name target hbranch
    cases hlookup : labels.lookup name with
    | none => simp [hlookup] at hdefined
    | some i => simp [List.lookup_append, hlookup]
  · exact ⟨rfl, rfl⟩

end Labels

end Program

end StreamEditor
