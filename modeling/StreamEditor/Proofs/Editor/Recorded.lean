import StreamEditor.Proofs.Editor.Directed
import StreamEditor.Proofs.Output.Brought
import StreamEditor.Proofs.Program.Parsed
import StreamEditor.Regex.Builtin

/-!
What output files hold after a run.

* `Parser.key_of_target`: the file that a command writes is the one with the path that it names.
* `Editor.Deals.brings`: records that are directed at a file are brought to it, in order.
* `Editor.files_hold_records`: an output file is empty before the first record is read, and in the
  end it holds the records directed at it.
-/

namespace StreamEditor

/-- A command that names a path writes the file with an equal path. -/
lemma Parser.key_of_target {name : Text} {place : Location} {q q' : Parser} {i : ℕ}
    (h : (Parser.target name place).run q = .ok (.file i, q')) :
    ∃ f, q'.outputFiles[i]? = some f ∧ Path.key f.name = Path.key name := by
  rw [Parser.target] at h
  split_ifs at h with houtput herrors
  · cases h
  · cases h
  · rw [StateT.run_bind, StateT.run_get, pure_bind] at h
    dsimp only at h
    split at h
    · rename_i j hfound
      cases h
      obtain ⟨hi, hkey, -⟩ := List.findIdx?_eq_some_iff_getElem.1 hfound
      exact ⟨_, List.getElem?_eq_getElem hi, of_decide_eq_true hkey⟩
    · cases h
      exact ⟨⟨name, place⟩, List.getElem?_concat_length, rfl⟩

namespace Editor

open Writer (Brings)
open Output (Write)

variable {p : Program} {e e' e₀ e₁ : Editor} {ds : List Directed} {i k : ℕ} {path : Path}
  {separator : UInt8} {ws : List Write} {r : Except Failure ℕ}

/-- Of the records that are written one after the other, those for a file are brought to it. -/
lemma Deals.brings (h : Deals ds e e')
    (hb : Brings i path separator ws e.writers e.environment.storage) :
    Brings i path separator (ws ++ writesAt (.file i) ds) e'.writers e'.environment.storage := by
  induction h generalizing ws with
  | rest h =>
      obtain ⟨standardInput, hs⟩ := h.storage
      rw [h.writers, hs, writesAt, List.filter_nil, List.map_nil, List.append_nil]
      exact hb.drained standardInput
  | direct d e =>
      obtain ⟨target, text, terminated⟩ := d
      rw [writesAt_singleton]
      cases target with
      | output =>
          rw [writeTo, printRecord, run_emit, if_neg Target.noConfusion, List.append_nil]
          exact hb
      | errors =>
          rw [if_neg Target.noConfusion, List.append_nil]
          exact hb
      | file j =>
          simp only [Target.file.injEq]
          rw [writeTo]
          cases hw : e.writers[j]? with
          | none =>
              -- The file that is meant is another one, for it has a writer.
              have hji : j ≠ i := by
                rintro rfl
                obtain ⟨w, hkeeps, -⟩ := hb
                cases hw.symm.trans hkeeps.writer
              rw [run_writeToFile_of_none hw, if_neg hji, List.append_nil]
              exact hb
          | some v =>
              rw [run_writeToFile hw]
              exact hb.writeRecord hw text terminated
  | trans _ _ ih ih' =>
      rw [writesAt_append, ← List.append_assoc]
      exact ih' (ih hb)

/-- An output file is there and empty before the first record is read. In the end it holds the
records that commands directed at it: those of all commands that name an equal path, in the order in
which they were executed, each followed by the separator unless it was written without one and was
the last. -/
theorem files_hold_records [Regex.Library] {script : Script} {o : Options} {input : Input}
    {sink : Sink} {env : Environment} (hp : Program.parse script o = .ok p)
    (hstart : (start? p o input sink env).1 = .ok e₀) (hapart : Writer.Apart e₀.writers)
    (hrun : advance p k .reading e₀ = (.finished r, e₁)) :
    (∀ (name : Text) (place : Location) (q q' : Parser) (i : ℕ),
      (Parser.target name place).run q = .ok (.file i, q') → q'.outputFiles <+: p.outputFiles →
      ∀ (j : ℕ) (f : OutputFile), p.outputFiles[j]? = some f →
        (Path.key f.name = Path.key name ↔ j = i)) ∧
    e₀.writers.map (·.name) = p.outputFiles.map (·.name) ∧
    ∀ (i : ℕ) (w : Writer) (path : Path), e₀.writers[i]? = some w → w.path = some path →
      e₀.environment.storage.get? path = some [] ∧
      (conclude r e₁).2.close.storage.get? path =
        some (Write.joined o.separator none (writesAt (.file i) (runWrites p k .reading e₀))) := by
  have hwell := Program.wellFormed_of_parse hp
  obtain ⟨writers, storage, hopen, he₀⟩ := start?_eq_ok hstart
  have hwriters : e₀.writers = writers := by rw [he₀]
  have hstorage : e₀.environment.storage = storage := by rw [he₀]
  refine ⟨fun name place q q' i htarget hprefix j f hf => ?_, ?_, fun i w path hi hpath => ?_⟩
  · obtain ⟨g, hg, hkey⟩ := Parser.key_of_target htarget
    obtain ⟨more, hmore⟩ := hprefix
    obtain ⟨hlt, -⟩ := List.getElem?_eq_some_iff.1 hg
    have hg : p.outputFiles[i]? = some g := by
      rw [← hmore, List.getElem?_append_left hlt, hg]
    refine ⟨fun hsame => ?_, ?_⟩
    · have hj : (p.outputFiles.map (Path.key ·.name))[j]? = some (Path.key name) := by
        rw [List.getElem?_map, hf, Option.map_some, hsame]
      have hi : (p.outputFiles.map (Path.key ·.name))[i]? = some (Path.key name) := by
        rw [List.getElem?_map, hg, Option.map_some, hkey]
      obtain ⟨hjlt, -⟩ := List.getElem?_eq_some_iff.1 hj
      exact (List.getElem?_inj hjlt hwell.files_nodup).1 (hj.trans hi.symm)
    · rintro rfl
      obtain rfl : f = g := Option.some.inj (hf.symm.trans hg)
      exact hkey
  · rw [hwriters]
    exact (Writer.holds_of_openAll hopen).2.1
  · have hempty : e₀.environment.storage.contents path = [] := by
      rw [hwriters] at hi
      rw [hstorage]
      exact ((Writer.openAll_spec hopen).2 w (List.mem_of_getElem? hi)).2.2 path hpath
    have hb : Brings i path o.separator [] e₀.writers e₀.environment.storage := by
      rw [hwriters] at hi hapart ⊢
      rw [hstorage]
      refine Writer.brings_of_openAll hopen hi hpath fun j v hj hv => ?_
      by_contra hji
      exact hapart.path_ne hi hj hji hpath hv
    obtain ⟨-, -, hpresent, -⟩ := id hb
    refine ⟨by rw [hpresent.get?, hempty], ?_⟩
    have hdeals := deals_advance p k .reading e₀
    rw [hrun] at hdeals
    rw [close, writers_conclude, storage_conclude]
    exact (hdeals.brings hb).get?_closeAll

/-- Two commands write to one file. The record without its separator is followed by another one. -/
theorem files_hold_records_twice :
    ∃ p e₀ e₁,
      Program.parse (.ofText (Text.ofString "w out\nW out")) .standard = .ok p ∧
      (start? p .standard (.ofFiles [['f']] 10 false) .unlimited
        (.start ⟨[([['f']], [97, 10, 98]), ([['o', 'u', 't']], [99])], [], []⟩)).1 = .ok e₀ ∧
      Writer.Apart e₀.writers ∧ advance p 9 .reading e₀ = (.finished (.ok 0), e₁) ∧
      e₀.environment.storage.get? [['o', 'u', 't']] = some [] ∧
      Write.joined 10 none (writesAt (.file 0) (runWrites p 9 .reading e₀)) =
        [97, 10, 97, 10, 98, 10, 98, 10] := by
  have hall : ending?
      (fun e₁ e => decide (e₁.writers.map (·.path) = [some [['o', 'u', 't']]] ∧
        e.close.storage.get? [['o', 'u', 't']] = some [97, 10, 97, 10, 98, 10, 98, 10]))
      (Program.parse (.ofText (Text.ofString "w out\nW out")) .standard) .standard [['f']]
      ⟨[([['f']], [97, 10, 98]), ([['o', 'u', 't']], [99])], [], []⟩ 9 = some (.ok 0, true) := by
    decide +kernel
  obtain ⟨p, e₀, e₁, hp, hstart, hrun, hseen⟩ := advance_of_ending? hall
  obtain ⟨hpaths, hcontents⟩ := of_decide_eq_true hseen
  have hpaths₀ : e₀.writers.map (·.path) = [some [['o', 'u', 't']]] :=
    (passes_of_advance hrun 0).handled.paths.symm.trans hpaths
  have hapart : Writer.Apart e₀.writers := by
    rw [Writer.Apart, hpaths₀]
    exact List.pairwise_singleton _ _
  obtain ⟨w, hw, hpath⟩ := List.map_eq_singleton_iff.1 hpaths₀
  obtain ⟨-, -, hfiles⟩ := files_hold_records hp hstart hapart hrun
  obtain ⟨hempty, hholds⟩ := hfiles 0 w _ (by rw [hw]; rfl) hpath
  exact ⟨p, e₀, e₁, hp, hstart, hapart, hrun, hempty,
    Option.some.inj (hholds.symm.trans hcontents)⟩

end Editor

end StreamEditor
