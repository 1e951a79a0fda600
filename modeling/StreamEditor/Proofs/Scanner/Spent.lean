import StreamEditor.Proofs.Scanner.Behind

/-!
The end of the script.

* `Scanner.Spent`: nothing is left for a scanner; `Spent.next` says that from there on every token
  is the end of the script, and `spent_next` that it is so behind the first such token.
* `Scanner.ends`: each scanner comes to the end of the script, after no more tokens than are left.
* `Scanner.next?`: the next token if no character is read beyond the end of the text; `next?_eq`
  says that none ever is.
-/

namespace StreamEditor.Scanner

open Token (Kind)

/-- Nothing is left, neither ahead nor waiting, and no text is to be read. -/
structure Spent (s : Scanner) : Prop where
  pending : s.pending = []
  ahead : s.cursor.ahead = []
  mode : s.mode.readsText = false

/-- Behind the end of the script nothing is left. -/
def Spends (r : Token × Scanner) : Prop := r.1.kind = .eof → r.2.Spent

section Spends

variable {s : Scanner}

lemma spends_of_kind {r : Token × Scanner} (h : r.1.kind ≠ .eof) : Spends r :=
  fun heof => absurd heof h

lemma spends_single {kind : Kind} (c : Char) (h : kind ≠ .eof) : Spends (s.single kind c) :=
  spends_of_kind h

lemma spends_comment : Spends s.comment := spends_of_kind (by simp [comment])

lemma spends_pattern (delimiter : Char) : Spends (s.pattern delimiter) :=
  spends_of_kind (by simp [pattern])

lemma spends_end (hpending : s.pending = []) (hmode : s.mode.readsText = false)
    (hpeek : s.cursor.peek = none) : Spends (.endOfScript, s) :=
  fun _ => ⟨hpending, List.head?_eq_none_iff.1 hpeek, hmode⟩

lemma spends_ending (hpending : s.pending = []) (hmode : s.mode.readsText = false) :
    Spends s.ending := by
  rw [ending]
  dsimp only
  split
  case h_1 hpeek => exact spends_end hpending hmode hpeek
  case h_5 => exact spends_comment
  all_goals exact spends_single _ (by decide)

lemma spends_fields (hpending : s.pending = []) (after : Mode) : Spends (s.fields after) := by
  cases hpeek : s.cursor.peek with
  | none =>
      rw [fields_of_peek_none hpeek]
      exact spends_end hpending rfl hpeek
  | some delimiter =>
      by_cases hd : delimiter = '\n' ∨ delimiter = '\\'
      · rw [fields_of_illegal hpeek hd]
        exact spends_single _ (by decide)
      · rw [fields_of_peek hpeek hd]
        exact spends_of_kind (Kind.noConfusion ·)

lemma spends_flags (hpending : s.pending = []) (hmode : s.mode.readsText = false) :
    Spends s.flags := by
  rw [flags]
  split
  · rename_i hpeek
    exact spends_end hpending hmode hpeek
  · exact spends_single _ (by decide)
  · split
    · exact spends_single _ (by decide)
    split
    · exact spends_of_kind (by simp [run])
    split
    · exact spends_ending hpending rfl
    · exact spends_single _ (by decide)

lemma spends_wordOrEnding (hpending : s.pending = []) (p : Char → Bool) :
    Spends (s.wordOrEnding p) := by
  rw [wordOrEnding]
  dsimp only
  split
  · exact spends_ending hpending rfl
  · exact spends_of_kind (by simp [run])

lemma spends_numberOrEnding (hpending : s.pending = []) : Spends s.numberOrEnding := by
  rw [numberOrEnding]
  dsimp only
  split
  · exact spends_ending hpending rfl
  · exact spends_of_kind (by simp [run])

lemma spends_text : Spends s.text := by
  rw [text]
  split
  · exact spends_single _ (by decide)
  · exact spends_of_kind (by simp [textBody])

lemma spends_command (hpending : s.pending = []) (hmode : s.mode.readsText = false) :
    Spends s.command := by
  rw [command]
  dsimp only
  split
  case h_1 hpeek => exact spends_end hpending hmode hpeek
  case h_4 => exact spends_comment
  case h_9 => split <;> exact spends_single _ (by decide)
  case h_11 => exact spends_pattern _
  case h_12 =>
    split
    case h_4 => exact spends_pattern _
    all_goals exact spends_single _ (by decide)
  case h_13 =>
    split
    · exact spends_of_kind (by simp [run])
    split
    · exact spends_single _ (by decide)
    split
    · exact spends_single _ (by decide)
    split
    · exact spends_single _ (by decide)
    split <;> exact spends_single _ (by decide)
  all_goals exact spends_single _ (by decide)

lemma spends_scan (hpending : s.pending = []) : Spends s.scan := by
  rw [scan]
  cases hmode : s.mode with
  | command => exact spends_command hpending (by rw [hmode]; rfl)
  | substitution | transliteration => exact spends_fields hpending _
  | flags => exact spends_flags hpending (by rw [hmode]; rfl)
  | fileName | label => exact spends_wordOrEnding hpending _
  | text => exact spends_text
  | textBody => exact spends_of_kind (by simp [textBody])
  | number => exact spends_numberOrEnding hpending
  | ending => exact spends_ending hpending (by rw [hmode]; rfl)

/-- Behind the end of the script nothing is left. -/
lemma spent_next (hkinds : ∀ t ∈ s.pending, t.kind ∈ waitingKinds) (heof : s.next.1.kind = .eof) :
    s.next.2.Spent := by
  cases hpending : s.pending with
  | nil =>
      rw [next_of_pending_nil hpending] at heof ⊢
      obtain ⟨hpending, hahead, hmode⟩ := spends_scan hpending heof
      exact ⟨hpending, hahead, hmode⟩
  | cons t pending =>
      rw [next, hpending] at heof
      rw [hpending, List.forall_mem_cons, show t.kind = .eof from heof] at hkinds
      exact absurd hkinds.1 (by decide)

/-- Where nothing is left, the next token is the end of the script, and so on. -/
lemma Spent.next (h : s.Spent) : s.next.1 = .endOfScript ∧ s.next.2.Spent := by
  obtain ⟨⟨passed, ahead⟩, mode, pending, addresses, previous, afterPattern, tokenStart⟩ := s
  obtain ⟨hpending, hahead, hmode⟩ := h
  obtain rfl : pending = [] := hpending
  obtain rfl : ahead = [] := hahead
  cases mode
  case text | textBody => cases hmode
  all_goals exact ⟨rfl, rfl, rfl, rfl⟩

end Spends

/-! ### All tokens -/

/-- The token with this number, counted from zero. -/
def nth (s : Scanner) : ℕ → Token
  | 0 => s.next.1
  | i + 1 => s.next.2.nth i

section All

variable {s : Scanner}

lemma Spent.nth (h : s.Spent) (i : ℕ) : s.nth i = .endOfScript := by
  induction i generalizing s with
  | zero => exact h.next.1
  | succ i ih => exact ih h.next.2

/-- Each token before the end uses up some of what is left, and behind the end there is no more. -/
lemma ends (hkinds : ∀ t ∈ s.pending, t.kind ∈ waitingKinds) (hwaits : Waits s.Unclosed s.pending) :
    ∃ k ≤ s.size, ∀ i, (s.nth i).kind = .eof ↔ k ≤ i := by
  induction hn : s.size using Nat.strong_induction_on generalizing s with
  | _ n ih =>
    subst hn
    by_cases heof : s.next.1.kind = .eof
    · refine ⟨0, Nat.zero_le _, fun i => iff_of_true ?_ (Nat.zero_le i)⟩
      cases i with
      | zero => exact heof
      | succ i => exact congrArg Token.kind ((spent_next hkinds heof).nth i)
    · have hlt : s.next.2.size < s.size := s.shrinks_next.lt heof
      have hbehind : Behind s.next.1 s.next.2 := behind_next hkinds hwaits
      obtain ⟨k, hk, hend⟩ := ih _ hlt hbehind.kinds hbehind.waits.tail rfl
      refine ⟨k + 1, hk.trans_lt hlt, fun i => ?_⟩
      cases i with
      | zero => exact iff_of_false heof (Nat.not_succ_le_zero k)
      | succ i => exact (hend i).trans Nat.succ_le_succ_iff.symm

/-- A script of `n` characters has no more than `2 * n` tokens before its end. -/
lemma start_ends (script : Text) :
    ∃ k ≤ 2 * script.length, ∀ i, ((start script).nth i).kind = .eof ↔ k ≤ i :=
  ends (s := start script) (fun _ ht => absurd ht List.not_mem_nil) trivial

end All

/-! ### Reading at the end of the text -/

/-- An address between two occurrences of the character ahead; none if there is no character. -/
def pattern? (s : Scanner) : Option (Token × Scanner) := s.cursor.peek.map s.pattern

/-- The token that `command` reads, with the delimiter of a pattern taken from the text. -/
def command? (s : Scanner) : Option (Token × Scanner) :=
  let ready := ({ s with afterPattern := false } : Scanner).beginToken
  match ready.cursor.peek with
  | some '/' => ready.pattern?
  | some '\\' =>
      match ready.cursor.peekNext with
      | none | some '\n' | some '\\' => some s.command
      | some _ => ({ ready with cursor := ready.cursor.advance } : Scanner).pattern?
  | _ => some s.command

/-- The next token; none if a character is read beyond the end of the text. -/
def next? (s : Scanner) : Option (Token × Scanner) :=
  if s.pending = [] ∧ s.mode = .command then
    s.command?.map fun (token, after) => (token, { after with previous := some token.kind })
  else some s.next

lemma command?_eq (s : Scanner) : s.command? = some s.command := by
  rw [command?, command]
  dsimp only
  generalize ({ s with afterPattern := false } : Scanner).beginToken = ready
  split
  · rename_i hpeek
    rw [pattern?, hpeek]
    rfl
  · rename_i hpeek
    rw [hpeek]
    split
    · rfl
    · rfl
    · rfl
    · rename_i hnext
      rw [pattern?]
      dsimp only
      rw [Cursor.peek_advance, hnext]
      simp
  · rfl

/-- No character is read beyond the end of the text. -/
lemma next?_eq (s : Scanner) : s.next? = some s.next := by
  rw [next?]
  split
  · rename_i h
    rw [command?_eq, next_of_pending_nil h.1, scan, h.2]
    rfl
  · rfl

end StreamEditor.Scanner
