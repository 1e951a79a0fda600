import StreamEditor.Proofs.Regex.Ordered
import StreamEditor.Proofs.Regex.Plain
import StreamEditor.Proofs.Text.Boundaries

/-!
Plain text looked for in the bytes of a text.

* `Leftmost`: the places at which a list occurs in another, taken from the left, none overlapping
  another. They are those of plain text (`Literal.leftmost_occurrences`), and in the bytes of a text
  they are the offsets of those in the text (`Leftmost.utf8`).
* `Literal.ordered_literalMatches`: the matches of plain text are in order.
* `Match.Ordered.rewriteBytes?_eq`: replacing matches in bytes cuts no character.
* `Literal.byteStarts_leftmost`: so plain text is found in bytes where it is found in characters.
-/

namespace StreamEditor

/-- The places from `start` on at which a list occurs in another, each the first that does not
overlap the one before. -/
inductive Leftmost {α : Type} (needle text : List α) : ℕ → List ℕ → Prop
  | nil {start : ℕ} (h : ∀ i, start ≤ i → ¬needle <+: text.drop i) : Leftmost needle text start []
  | cons {start place : ℕ} {places : List ℕ}
      (hplace : IsLeast {i | start ≤ i ∧ needle <+: text.drop i} place)
      (hrest : Leftmost needle text (place + needle.length) places) :
      Leftmost needle text start (place :: places)

namespace Leftmost

section

variable {α : Type} {needle text : List α} {start : ℕ} {places places' : List ℕ}

lemma unique (h : Leftmost needle text start places) (h' : Leftmost needle text start places') :
    places = places' := by
  induction h generalizing places' with
  | nil hnone =>
      cases h' with
      | nil _ => rfl
      | cons hplace _ => exact absurd hplace.1.2 (hnone _ hplace.1.1)
  | cons hplace _ ih =>
      cases h' with
      | nil hnone => exact absurd hplace.1.2 (hnone _ hplace.1.1)
      | cons hplace' hrest' =>
          obtain rfl := hplace.unique hplace'
          rw [ih hrest']

/-- Where nothing occurs at a place, it may be passed over. -/
lemma of_succ (hnot : ¬needle <+: text.drop start)
    (h : Leftmost needle text (start + 1) places) : Leftmost needle text start places := by
  have hlater {i : ℕ} (hi : start ≤ i) (hoccurs : needle <+: text.drop i) : start + 1 ≤ i := by
    refine Nat.lt_of_le_of_ne hi fun heq => hnot ?_
    rwa [heq]
  cases h with
  | nil hnone => exact .nil fun i hi hoccurs => hnone i (hlater hi hoccurs) hoccurs
  | cons hplace hrest =>
      exact .cons ⟨⟨(Nat.le_succ _).trans hplace.1.1, hplace.1.2⟩, fun i hi =>
        hplace.2 ⟨hlater hi.1 hi.2, hi.2⟩⟩ hrest

lemma end_le (hneedle : needle ≠ []) {i : ℕ} (h : needle <+: text.drop i) :
    i + needle.length ≤ text.length := by
  have hlength := h.length_le
  have hpos := List.length_pos_iff.2 hneedle
  rw [List.length_drop] at hlength
  omega

lemma prefix_of_mem (h : Leftmost needle text start places) {place : ℕ} (hplace : place ∈ places) :
    needle <+: text.drop place := by
  induction h with
  | nil _ => cases hplace
  | cons hfirst _ ih =>
      obtain rfl | hplace := List.mem_cons.1 hplace
      · exact hfirst.1.2
      · exact ih hplace

/-- The same places are found if each element is replaced by another one of its own. -/
lemma of_map {β : Type} {f : α → β} (hf : Function.Injective f)
    (h : Leftmost (needle.map f) (text.map f) start places) :
      Leftmost needle text start places := by
  have hoccurs (i : ℕ) : needle.map f <+: (text.map f).drop i ↔ needle <+: text.drop i := by
    rw [← List.map_drop, List.prefix_map_iff_of_injective hf]
  generalize hm : needle.map f = needle' at h
  induction h with
  | nil hnone =>
      subst hm
      exact .nil fun i hi => by
        rw [← hoccurs]
        exact hnone i hi
  | cons hplace hrest ih =>
      subst hm
      rw [List.length_map] at ih
      simp only [hoccurs] at hplace
      exact .cons hplace ih

end

variable {needle t : Text} {start : ℕ} {places : List ℕ}

/-- The places in the bytes of a text are the offsets of those in the text. -/
lemma utf8 (hneedle : needle ≠ []) (hstart : start ≤ t.length)
    (h : Leftmost needle t start places) :
    Leftmost (Text.utf8 needle) (Text.utf8 t) (t.offset start) (places.map t.offset) := by
  -- An occurrence behind an offset is one behind the character there.
  have hbehind {start i : ℕ} (hstart : start ≤ t.length) (hi : t.offset start ≤ i)
      (hoccurs : Text.utf8 needle <+: (Text.utf8 t).drop i) :
      ∃ n, start ≤ n ∧ i = t.offset n ∧ needle <+: t.drop n := by
    obtain ⟨n, rfl, hn⟩ := Text.exists_of_prefix_drop hneedle hoccurs
    refine ⟨n, ?_, rfl, hn⟩
    by_contra hlt
    have := t.offset_lt (not_le.1 hlt) hstart
    omega
  induction h with
  | nil hnone =>
      refine .nil fun i hi hoccurs => ?_
      obtain ⟨n, hn, -, hoccurs⟩ := hbehind hstart hi hoccurs
      exact hnone n hn hoccurs
  | @cons start place places hplace hrest ih =>
      have hend := end_le hneedle hplace.1.2
      obtain ⟨later, hlater⟩ := hplace.1.2
      have hlength : t.offset (place + needle.length) =
          t.offset place + (Text.utf8 needle).length := by
        rw [Text.offset_add, Text.offset_eq_length (List.drop place t), ← hlater, List.take_left]
      have hrest := ih hend
      rw [hlength] at hrest
      refine .cons ⟨⟨t.offset_mono hplace.1.1, ?_⟩, ?_⟩ hrest
      · rw [Text.drop_offset, Text.utf8_prefix_iff]
        exact hplace.1.2
      · rintro i ⟨hi, hbytes⟩
        obtain ⟨n, hn, rfl, hoccurs⟩ := hbehind hstart hi hbytes
        exact t.offset_mono (hplace.2 ⟨hn, hoccurs⟩)

end Leftmost

/-! ### Searches -/

/-- Bytes are found at the leftmost places that do not overlap. -/
def ByteSearch.FindsLeftmost (search : ByteSearch) : Prop :=
  ∀ bytes needle : Bytes, needle ≠ [] → Leftmost needle bytes 0 (search.places bytes needle)

namespace Regex

namespace Literal

/-- The occurrences of plain text are its leftmost places. -/
lemma leftmost_occurrences {needle : Text} (hneedle : needle ≠ []) (skipped t : Text) :
    Leftmost needle (skipped ++ t) skipped.length (occurrences needle 0 skipped.length t) := by
  induction hn : t.length using Nat.strong_induction_on generalizing skipped t with
  | _ n ih =>
      by_cases h : needle <+: t
      · obtain ⟨rest, rfl⟩ := h
        have hpos := List.length_pos_iff.2 hneedle
        have hrest := ih rest.length (by rw [← hn, List.length_append]; omega) (skipped ++ needle)
          rest rfl
        rw [List.append_assoc, List.length_append] at hrest
        rw [occurrences_append hneedle]
        refine .cons ⟨⟨le_rfl, ?_⟩, fun i hi => hi.1⟩ hrest
        rw [List.drop_left]
        exact List.prefix_append _ _
      · refine .of_succ (by rwa [List.drop_left]) ?_
        cases t with
        | nil =>
            refine .nil fun i hi hoccurs => hneedle (List.prefix_nil.1 ?_)
            rwa [List.append_nil, List.drop_eq_nil_of_le (by omega)] at hoccurs
        | cons c t =>
            have hrest := ih t.length (by rw [← hn]; exact Nat.lt_succ_self _)
                (skipped ++ [c]) t rfl
            rw [List.append_assoc, List.length_append] at hrest
            rw [occurrences_cons h]
            exact hrest

/-- The search that compares the bytes at one place after the other, each byte taken for a character
of its own. -/
def simpleSearch : ByteSearch where
  first? bytes needle := findFrom (needle.map Char.ofUInt8) 0 (bytes.map Char.ofUInt8)
  places bytes needle := occurrences (needle.map Char.ofUInt8) 0 0 (bytes.map Char.ofUInt8)

lemma findsLeftmost_simpleSearch : simpleSearch.FindsLeftmost := fun bytes needle hneedle => by
  have hinjective : Function.Injective Char.ofUInt8 := fun b b' h => by
    rw [← UInt8.toUInt32_inj]
    exact congrArg Char.val h
  exact .of_map hinjective (leftmost_occurrences (by simpa using hneedle) [] _)

/-! ### Matches -/

/-- A match of plain text has no other group than the whole. -/
lemma span?_matchAt {l : Literal} {place n start stop : ℕ}
    (h : (l.matchAt place).span? n = some (start, stop)) :
    start = place ∧ stop = place + l.needle.length := by
  cases n with
  | zero =>
      obtain ⟨rfl, rfl⟩ := Prod.mk.inj (Option.some.inj h)
      exact ⟨rfl, rfl⟩
  | succ n => cases h

/-- Matches at the leftmost places are in order. -/
lemma ordered_matchAt {l : Literal} (hneedle : l.needle ≠ []) {t : Text} {start : ℕ}
    (hstart : start ≤ t.length) {places : List ℕ} (h : Leftmost l.needle t start places) :
    Match.Ordered t.length start (places.map l.matchAt) := by
  induction h with
  | nil _ => exact .nil hstart
  | @cons start place places hplace hrest ih =>
      have hordered := ih (Leftmost.end_le hneedle hplace.1.2)
      have hpos := List.length_pos_iff.2 hneedle
      refine .cons hplace.1.1 (Nat.le_add_right _ _) rfl (fun m hm => ?_) hordered
      have hbehind := hordered.within m hm
      obtain ⟨next, -, rfl⟩ := List.mem_map.1 hm
      simp only [matchAt] at hbehind ⊢
      omega

/-- The matches of plain text are in order. -/
lemma ordered_literalMatches (l : Literal) (t : Text) :
    Match.Ordered t.length 0 (literalMatches l t) := by
  have hmatches : literalMatches l t = (l.starts t).map l.matchAt := rfl
  rw [hmatches, starts]
  split
  · rename_i hfree
    have hneedle : l.needle ≠ [] := by simp_all
    exact ordered_matchAt hneedle (Nat.zero_le _) (leftmost_occurrences hneedle [] t)
  · cases hfind : l.find? t with
    | none => exact .nil (Nat.zero_le _)
    | some start =>
        obtain ⟨skipped, later, rfl, rfl, hfits⟩ :=
          of_firstFit ((find?_eq_firstFit l t).symm.trans hfind)
        have hlength := (prefix_of_fits hfits).length_le
        refine .cons (Nat.zero_le _) (Nat.le_add_right _ _) rfl (by simp) (.nil ?_)
        simp only [matchAt, List.length_append]
        omega

end Literal

/-! ### Replacing in bytes -/

/-- A match with its places counted in bytes. -/
def Match.inBytes (t : Text) (m : Match) : Match where
  start := t.offset m.start
  stop := t.offset m.stop
  groups := m.groups.map (Option.map fun span => (t.offset span.1, t.offset span.2))

lemma Match.span?_inBytes (t : Text) (m : Match) (n : ℕ) :
    (m.inBytes t).span? n = (m.span? n).map fun span => (t.offset span.1, t.offset span.2) := by
  rw [span?, span?, inBytes, List.getElem?_map]
  cases m.groups[n]? <;> rfl

/-- What a group matched is sliced out of the bytes if it begins and ends in the text. -/
lemma Match.groupBytes?_inBytes {t : Text} {m : Match} {n : ℕ}
    (h : ∀ start stop, m.span? n = some (start, stop) → start ≤ stop ∧ stop ≤ t.length) :
    (m.inBytes t).groupBytes? (Text.utf8 t) n = some (Text.utf8 (m.text t n)) := by
  rw [groupBytes?, span?_inBytes, text, groupText]
  cases hspan : m.span? n with
  | none => rfl
  | some span =>
      obtain ⟨hle, hstop⟩ := h span.1 span.2 hspan
      exact t.slice?_utf8 hle hstop

/-- The bytes of a replacement are those of its text. -/
lemma applyBytes?_eq (template : Template) {group? : ℕ → Option Bytes} {group : ℕ → Text}
    (h : ∀ n, group? n = some (Text.utf8 (group n))) :
    template.applyBytes? group? = some (Text.utf8 (template.apply group)) := by
  obtain ⟨parts⟩ := template
  rw [Template.applyBytes?, Template.apply]
  dsimp only
  induction parts with
  | nil => rfl
  | cons part parts ih =>
      obtain ⟨pieces, hpieces, hflatten⟩ := Option.map_eq_some_iff.1 ih
      have hpart : part.bytes? group? = some (Text.utf8 (Template.apply ⟨[part]⟩ group)) := by
        cases part with
        | literal text => simp [Template.Part.bytes?, Template.apply]
        | whole | group => simp [Template.Part.bytes?, Template.apply, h]
      rw [List.mapM_cons, hpart, hpieces, List.flatMap_cons, Text.utf8_append, ← hflatten]
      simp [Template.apply]

/-- Replacing matches in the bytes of a text cuts no character, and makes of them the bytes of what
replacing makes of the text. -/
lemma Match.Ordered.rewriteBytes?_eq (template : Template) {t : Text} {position : ℕ}
    {ms : List Match} (h : Match.Ordered t.length position ms)
    (hgroups : ∀ m ∈ ms, ∀ n start stop, m.span? n = some (start, stop) →
      start ≤ stop ∧ stop ≤ t.length) :
    rewriteBytes? template (Text.utf8 t) (t.offset position) (ms.map (·.inBytes t)) =
      some (Text.utf8 (rewrite template t position (t.drop position) ms)) := by
  induction h with
  | @nil position h =>
      rw [List.map_nil, rewriteBytes?, ← Text.offset_length, t.slice?_utf8 h le_rfl,
        ← List.length_drop, List.take_length]
      rfl
  | @cons position m ms hstart hstop hwhole hbehind hrest ih =>
      obtain ⟨hm, hms⟩ := List.forall_mem_cons.1 hgroups
      have hkept := t.slice?_utf8 hstart (hstop.trans hrest.le)
      have hnew := applyBytes?_eq template fun n => m.groupBytes?_inBytes (n := n) (hm n)
      have hrest := ih hms
      rw [List.map_cons, rewriteBytes?, rewrite, List.drop_drop,
        Nat.add_sub_cancel' (hstart.trans hstop), Text.utf8_append, Text.utf8_append]
      change (Bytes.slice? _ (t.offset position) (t.offset m.start)).bind _ = _
      rw [hkept, Option.bind_some]
      change (template.applyBytes? _).bind _ = _
      rw [hnew, Option.bind_some]
      change (rewriteBytes? _ _ (t.offset m.stop) _).bind _ = _
      rw [hrest]
      rfl

namespace Literal

/-- Plain text without anchors is found at its leftmost places. -/
lemma leftmost_starts {l : Literal} (hstart : l.atStart = false) (hend : l.atEnd = false)
    (hneedle : l.needle ≠ []) (t : Text) : Leftmost l.needle t 0 (l.starts t) := by
  rw [starts, if_pos (by simp [hstart, hend, hneedle])]
  exact leftmost_occurrences hneedle [] t

/-- The matches in bytes are those of the text, if the search finds the leftmost places. -/
lemma byteMatches_eq {search : ByteSearch} (hsearch : search.FindsLeftmost) {l : Literal}
    (hstart : l.atStart = false) (hend : l.atEnd = false) (hneedle : l.needle ≠ []) (t : Text) :
    l.byteStarts search (Text.utf8 t) = (l.starts t).map t.offset ∧
      l.byteMatches search (Text.utf8 t) = (literalMatches l t).map (·.inBytes t) := by
  have hfree : (!l.atStart && !l.atEnd && !l.needle.isEmpty) = true := by
    simp [hstart, hend, hneedle]
  have hplaces := leftmost_starts hstart hend hneedle t
  have hstarts : l.byteStarts search (Text.utf8 t) = (l.starts t).map t.offset := by
    rw [byteStarts, if_pos hfree]
    exact (hsearch _ _ (Text.utf8_ne_nil hneedle)).unique (hplaces.utf8 hneedle (Nat.zero_le _))
  refine ⟨hstarts, ?_⟩
  rw [byteMatches, hstarts, literalMatches, List.map_map, List.map_map]
  refine List.map_congr_left fun place hplace => ?_
  obtain ⟨later, hlater⟩ := hplaces.prefix_of_mem hplace
  have hlength : t.offset (place + l.needle.length) =
      t.offset place + (Text.utf8 l.needle).length := by
    rw [Text.offset_add, Text.offset_eq_length (List.drop place t), ← hlater, List.take_left]
  simp [Match.inBytes, hlength]

/-- The groups of the matches begin and end within the text. -/
lemma groups_literalMatches (l : Literal) (t : Text) :
    ∀ m ∈ literalMatches l t, ∀ n start stop, m.span? n = some (start, stop) →
      start ≤ stop ∧ stop ≤ t.length := fun m hm n start stop hspan => by
  obtain ⟨-, hwithin⟩ := (ordered_literalMatches l t).within m hm
  obtain ⟨place, -, rfl⟩ := List.mem_map.1 hm
  obtain ⟨rfl, rfl⟩ := span?_matchAt hspan
  exact hwithin

/-- Where the matches in bytes are those of the text, replacing them in bytes makes the bytes of
what replacing them in the text makes. -/
lemma replaceBytes?_eq {search : ByteSearch} {l : Literal} {t : Text}
    (hmatches : l.byteMatches search (Text.utf8 t) = (literalMatches l t).map (·.inBytes t))
    (source : Text) (template : Template) (occurrence : ℕ) (everywhere : Bool) :
    ∃ result count,
      (⟨source, .literal l⟩ : Regex).replace template occurrence everywhere t =
        .ok (result, count) ∧
      l.replaceBytes? search template occurrence everywhere (Text.utf8 t) =
        some (Text.utf8 result, count) := by
  set found := if everywhere then literalMatches l t
    else (literalMatches l t).take (max occurrence 1) with hfound
  have hordered : Match.Ordered t.length 0 found ∧ found ⊆ literalMatches l t := by
    have hall := ordered_literalMatches l t
    rw [hfound]
    split
    · exact ⟨hall, List.Subset.refl _⟩
    · exact ⟨hall.take _, List.take_subset _ _⟩
  have hbytes : (if everywhere then l.byteMatches search (Text.utf8 t)
        else (l.byteMatches search (Text.utf8 t)).take (max occurrence 1)).drop (occurrence - 1) =
      (found.drop (occurrence - 1)).map (·.inBytes t) := by
    rw [hfound, hmatches, List.map_drop]
    cases everywhere with
    | true => rfl
    | false => exact congrArg (List.drop _) List.map_take.symm
  have hreplace : (⟨source, .literal l⟩ : Regex).replace template occurrence everywhere t =
      .ok (rewrite template t 0 t (found.drop (occurrence - 1)),
        (found.drop (occurrence - 1)).length) := by
    cases everywhere <;> simp [replace, allMatches, Engine.captures, hfound]
  refine ⟨_, _, hreplace, ?_⟩
  rw [replaceBytes?, hbytes, List.isEmpty_map, List.length_map]
  cases hnone : (found.drop (occurrence - 1)).isEmpty with
  | true =>
      rw [List.isEmpty_iff.1 hnone]
      rfl
  | false =>
      have hrewrite := (hordered.1.drop (occurrence - 1)).rewriteBytes?_eq template fun m hm =>
        groups_literalMatches l t m (hordered.2 (List.drop_subset _ _ hm))
      rw [if_neg Bool.false_ne_true]
      exact congrArg (Option.map fun result => (result, _)) hrewrite

/-- Plain text is found in the bytes of a text at the offsets of its leftmost places in the text,
none overlapping another. A character begins at both ends of each match, so no slice of a match or
between matches is refused, and what is replaced are the bytes of the text in which it is
replaced. -/
theorem byteStarts_leftmost {search : ByteSearch} (hsearch : search.FindsLeftmost) {l : Literal}
    (hstart : l.atStart = false) (hend : l.atEnd = false) (hneedle : l.needle ≠ []) (t : Text) :
    Leftmost l.needle t 0 (l.starts t) ∧
    l.byteStarts search (Text.utf8 t) = (l.starts t).map t.offset ∧
    (∀ m ∈ l.byteMatches search (Text.utf8 t), m.start < m.stop ∧
      (Text.utf8 t).isBoundary m.start = true ∧ (Text.utf8 t).isBoundary m.stop = true) ∧
    (l.byteMatches search (Text.utf8 t)).Pairwise (fun m m' => m.stop ≤ m'.start) ∧
    (∀ m ∈ l.byteMatches search (Text.utf8 t), ∀ n, (m.groupBytes? (Text.utf8 t) n).isSome) ∧
    ∀ (source : Text) (template : Template) (occurrence : ℕ) (everywhere : Bool),
      ∃ result count,
        (⟨source, .literal l⟩ : Regex).replace template occurrence everywhere t =
          .ok (result, count) ∧
        l.replaceBytes? search template occurrence everywhere (Text.utf8 t) =
          some (Text.utf8 result, count) := by
  have hleftmost := leftmost_starts hstart hend hneedle t
  obtain ⟨hstarts, hmatches⟩ := byteMatches_eq hsearch hstart hend hneedle t
  have hordered := ordered_literalMatches l t
  refine ⟨hleftmost, hstarts, ?_, ?_, ?_, replaceBytes?_eq hmatches⟩
  · rw [hmatches, List.forall_mem_map]
    intro m hm
    obtain ⟨-, hle, hlength⟩ := hordered.within m hm
    have hlt : m.start < m.stop := by
      obtain ⟨place, -, rfl⟩ := List.mem_map.1 hm
      exact Nat.lt_add_of_pos_right (List.length_pos_iff.2 hneedle)
    exact ⟨t.offset_lt hlt hlength, (t.isBoundary_iff _).2 ⟨m.start, hle.trans hlength, rfl⟩,
      (t.isBoundary_iff _).2 ⟨m.stop, hlength, rfl⟩⟩
  · rw [hmatches, List.pairwise_map]
    exact hordered.pairwise.imp fun h => t.offset_mono h.1
  · rw [hmatches, List.forall_mem_map]
    intro m hm n
    rw [m.groupBytes?_inBytes (groups_literalMatches l t m hm n)]
    rfl

/-- A letter is not found where another one ends with its last byte. -/
theorem byteStarts_leftmost_accented :
    simpleSearch.FindsLeftmost ∧ ['é'] ≠ ([] : Text) ∧
    byteStarts simpleSearch ⟨['é'], false, false⟩ (Text.utf8 ['©', 'é', 'x', 'é']) = [2, 5] := by
  have hneedle : ['é'] ≠ ([] : Text) := List.cons_ne_nil _ _
  obtain ⟨-, hstarts, -⟩ := byteStarts_leftmost findsLeftmost_simpleSearch
    (l := ⟨['é'], false, false⟩) rfl rfl hneedle ['©', 'é', 'x', 'é']
  exact ⟨findsLeftmost_simpleSearch, hneedle, hstarts.trans (by decide)⟩

end Literal

end Regex

end StreamEditor
