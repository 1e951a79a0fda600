import StreamEditor.Proofs.Parser.Tandem
import StreamEditor.Proofs.Program.Joined

/-!
Scripts with the same text that come from other sources.

* `Program.relocated`: a program with other places.
* `Program.parse_relocated`: what a script says depends on its text alone, but for the places.
* `Script.location_joined`: the places of two sources, in one source with the same text.
-/

namespace StreamEditor

variable {library : Regex.Library}

/-- The program with other places. -/
def Program.relocated (f : Location → Location) (p : Program) : Program where
  commands := p.commands.map fun c => { c with place := f c.place }
  labels := p.labels
  outputFiles := p.outputFiles.map fun file => { file with place := f file.place }
  rangeCount := p.rangeCount
  quiet := p.quiet

section Relocated

variable {script script' : Script} {f : Location → Location} {o : Options} {p : Program}

lemma Program.Matched.eq_relocated
    {h : ∀ line column, script'.location line column = f (script.location line column)}
    {p' : Program} (hmatched : p.Matched (.ofPlaces (o := o) rfl id id h) p') : p' =
      p.relocated f := by
  have hcommands : p'.commands = p.commands.map fun c => { c with place := f c.place } := by
    rw [← List.map_id p'.commands]
    refine map_eq_of_forall₂ hmatched.commands fun c c' hc => ?_
    obtain ⟨letter, selection, negated, action, place⟩ := c
    obtain ⟨letter', selection', negated', action', place'⟩ := c'
    obtain rfl : letter' = letter := hc.letter
    obtain rfl : selection' = selection := hc.selection
    obtain rfl : negated' = negated := hc.negated
    obtain rfl : action' = action := hc.action.eq rfl
    obtain rfl : place' = f place := hc.place
    rfl
  have hfiles : p'.outputFiles =
      p.outputFiles.map fun file => { file with place := f file.place } := by
    rw [← List.map_id p'.outputFiles]
    refine map_eq_of_forall₂ hmatched.outputFiles fun file file' hfile => ?_
    obtain ⟨name, place⟩ := file
    obtain ⟨name', place'⟩ := file'
    obtain rfl : name' = name := hfile.name
    obtain rfl : place' = f place := hfile.place
    rfl
  obtain ⟨commands, labels, files, ranges, quiet⟩ := p'
  obtain rfl : commands = _ := hcommands
  obtain rfl : files = _ := hfiles
  obtain rfl : labels = p.labels := hmatched.labels
  obtain rfl : ranges = p.rangeCount := hmatched.rangeCount
  obtain rfl : quiet = p.quiet := hmatched.quiet
  rfl

/-- What a script says depends on its text alone, but for the places. -/
lemma Program.parse_relocated (htext : script'.text = script.text)
    (hf : ∀ line column, script'.location line column = f (script.location line column))
    (h : parse script o = .ok p) : parse script' o = .ok (p.relocated f) := by
  let T := Parser.Tandem.ofPlaces (o := o) rfl id id hf
  have hstart : T.Tied (.start script o) (.start script' o) := by
    refine T.tied_start ?_
    change Scanner.start script'.text = Scanner.start script.text
    rw [htext]
  have hquiet : script'.asksForQuiet = script.asksForQuiet := by
    rw [Script.asksForQuiet, Script.asksForQuiet, htext]
  have hends := ends_parse (T := T) hquiet (Parser.Tandem.agree_wholeScript _ _ hstart)
  change T.Ends (Matched T) (parse script o) (parse script' o) at hends
  rw [h] at hends
  generalize parse script' o = r at hends ⊢
  cases hends with
  | ok hmatched => rw [hmatched.eq_relocated]

end Relocated

/-- The place in a source where whole lines come before. -/
def Location.behind (source : Text) (lines : ℕ) (l : Location) : Location :=
  ⟨source, l.line + lines, l.column⟩

/-- The lines of the second of two sources come behind those of the first. -/
lemma Script.location_joined {name name' : Text} (hname : name' ≠ name)
    (source contents contents' whole : Text) (line column : ℕ) :
    (empty.append source whole).location line column =
      let l := ((empty.append name contents).append name' contents').location line column
      l.behind source (if l.source = name then 0 else (terminated contents).count '\n') := by
  rw [location_single, location_pair]
  by_cases hline : (terminated contents).count '\n' ≤ line
  · simp only [if_pos hline, if_neg hname, Location.behind, Location.mk.injEq, true_and, and_true]
    omega
  · simp only [if_neg hline, if_true, Location.behind, Nat.add_zero]

end StreamEditor
