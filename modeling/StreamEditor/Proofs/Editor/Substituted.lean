import StreamEditor.Proofs.Editor.Edits
import StreamEditor.Proofs.Parser.Substitution
import StreamEditor.Proofs.Program.Quoted
import StreamEditor.Proofs.Regex.Replaced

/-!
Substituting one text for another.

* `run_substitute_ofAll`: what a substitution in all places changes.
* `Quoted.substitution`: the script that substitutes one text for another, both quoted.
* `parse_quoted_replaces`: it is read as one command, which replaces all occurrences.
-/

namespace StreamEditor

namespace Editor

variable {c : Command} {re : Regex} {template : Template} {e : Editor} {result : Text} {count : ℕ}

/-- The trace of what is told does not depend on the pattern space. -/
lemma told_with (event : Event) (e : Editor) (re : Regex) (pattern : Text) :
    { told event { e with lastRegex := some re } with pattern, substituted := true } =
      { e with
        pattern
        substituted := true
        lastRegex := some re
        environment := (told event e).environment } := by
  cases hdebug : e.options.debug <;> simp [told, hdebug]

/-- A substitution in all places changes the pattern space if anything was replaced. -/
lemma run_substitute_ofAll (hgroups : template.maxGroup < re.groupCount)
    (hreplace : re.replace template 1 true e.pattern = .ok (result, count)) :
    (substitute c (.ofAll re template)).run e = (.ok (),
      if count = 0 then { e with lastRegex := some re }
      else
        { e with
          pattern := result
          substituted := true
          lastRegex := some re
          environment := (told (.substituted count) e).environment }) := by
  have hresolve : (resolve c (some re)).run e = (.ok re, { e with lastRegex := some re }) := rfl
  have hsearched : (searched c (re.replace template 1 true e.pattern)).run
      { e with lastRegex := some re } = (.ok (result, count), { e with lastRegex := some re }) := by
    rw [hreplace]
    rfl
  rw [substitute_eq]
  refine (run_bind_of_ok hresolve).trans ?_
  have hknown : ¬re.groupCount ≤ (Substitution.ofAll re template).template.maxGroup :=
    not_le.2 hgroups
  rw [if_neg hknown, substituteFor, run_get_bind]
  refine (run_bind_of_ok hsearched).trans ?_
  by_cases hcount : count = 0
  · simp only [if_pos hcount]
    rfl
  · simp only [if_neg hcount, ← told_with]
    rfl

/-- A command that substitutes in all places of all records leads to the command after it. -/
lemma run_step_ofAll {p : Program} {index : ℕ} {place : Location} {e' : Editor}
    (hc : p.commands[index]? = some (.substituteEverywhere re template place))
    (hrun : (substitute (.substituteEverywhere re template place) (.ofAll re template)).run e =
      (.ok (), e')) :
    (step p (.running index)).run e = (.ok (.running (index + 1)), e') := by
  rw [step_of_some hc]
  change ((substitute (.substituteEverywhere re template place) (.ofAll re template) >>= fun _ =>
    pure (Flow.goOn (index + 1))) >>= follow).run e = _
  rw [bind_assoc]
  exact run_bind_of_ok hrun

end Editor

namespace Quoted

/-- The script that substitutes one text for another in all places. -/
def substitution (extended : Bool) (old new : Text) : Text :=
  Parser.substitutionScript (pattern extended old) (replacement new)

lemma maxGroup_compile_scanned (t : Text) :
    (Template.compile (scannedReplacement t)).maxGroup = 0 := by
  rw [compile_scanned]
  split <;> rfl

lemma apply_compile_scanned (t : Text) (group : ℕ → Text) :
    (Template.compile (scannedReplacement t)).apply group = t := by
  rw [compile_scanned]
  by_cases ht : t = []
  · rw [if_pos ht, ht]
    rfl
  · rw [if_neg ht]
    exact List.append_nil t

end Quoted

/-- The script that substitutes one text for another is one command, and that replaces all
occurrences in the pattern space; it tells the test whether there were any. Otherwise only what
is remembered as the expression used last changes, and the trace if one is kept. -/
theorem Editor.parse_quoted_replaces {library : Regex.Library}
    (hlibrary : library.MatchesLetters) (o : Options) {old : Text} (hold : old ≠ []) (new : Text) :
    ∃ p, Program.parse (.ofText (Quoted.substitution o.extended old new)) o = .ok p ∧
      p.commands.length = 1 ∧
      ∀ e, ∃ regex environment, (e.options.debug = false → environment = e.environment) ∧
        (step p (.running 0)).run e = (.ok (.running 1),
          { e with
            pattern := Text.replaceAll old new e.pattern
            substituted := decide (old <:+: e.pattern) || e.substituted
            lastRegex := some regex
            environment }) := by
  obtain ⟨re, hcompile, hgroups, hmatches⟩ := Quoted.exists_compile hlibrary o.extended hold
  have hknown : (Template.compile (Quoted.scannedReplacement new)).maxGroup < re.groupCount := by
    rw [Quoted.maxGroup_compile_scanned, hgroups]
    exact Nat.one_pos
  obtain ⟨p, place, hparse, hcommands⟩ := Program.parse_substitution (o := o)
    (Quoted.readUntil_pattern o.extended old) (Quoted.readUntil_replacement new)
    (Quoted.scannedPattern_ne_nil hold) hcompile hknown
  refine ⟨p, hparse, by rw [hcommands]; rfl, fun e => ?_⟩
  obtain ⟨count, hreplace, hcount⟩ := Regex.replace_everywhere hold
    (Quoted.apply_compile_scanned new) (hmatches e.pattern)
  have hc : p.commands[0]? = some (.substituteEverywhere re
      (.compile (Quoted.scannedReplacement new)) place) := by rw [hcommands]; rfl
  have hrun := run_step_ofAll hc (run_substitute_ofAll hknown hreplace)
  by_cases hoccurs : old <:+: e.pattern
  · rw [if_neg fun h => hcount.1 h hoccurs] at hrun
    refine ⟨re, (told (.substituted count) e).environment, fun hdebug => ?_, hrun.trans ?_⟩
    · rw [told, hdebug]
      rfl
    · rw [decide_eq_true hoccurs]
      rfl
  · rw [if_pos (hcount.2 hoccurs)] at hrun
    refine ⟨re, e.environment, fun _ => rfl, hrun.trans ?_⟩
    rw [decide_eq_false hoccurs, Text.replaceAll_of_not_infix new hoccurs]
    rfl

/-- A text with signs, a slash and a newline, for which an expression is needed. -/
theorem Editor.parse_quoted_replaces_signs :
    Regex.Library.letters.MatchesLetters ∧
      ∃ p, @Program.parse Regex.Library.letters
          (.ofText (Text.ofString "s/\\.\\n]\\//\\&\\\n\\\\/g")) .standard = .ok p ∧
        ∀ e, e.pattern = Text.ofString "a.\n]/.\n]/\n]." → ∃ e',
          (step p (.running 0)).run e = (.ok (.running 1), e') ∧
            e'.pattern = Text.ofString "a&\n\\&\n\\\n]." ∧ e'.substituted = true := by
  obtain ⟨p, hparse, -, hrun⟩ := Editor.parse_quoted_replaces
    Regex.Library.matchesLetters_letters .standard (List.cons_ne_nil '.' (Text.ofString "\n]/"))
    (Text.ofString "&\n\\")
  refine ⟨Regex.Library.matchesLetters_letters, p, hparse, fun e he => ?_⟩
  obtain ⟨regex, environment, -, hstep⟩ := hrun e
  refine ⟨_, hstep, ?_, ?_⟩
  · rw [he]
    rfl
  · rw [he]
    rfl

end StreamEditor
