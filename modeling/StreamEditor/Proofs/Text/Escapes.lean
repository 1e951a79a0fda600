import Mathlib.Tactic
import StreamEditor.Template

/-!
Escapes as a cursor passes them.

* `Walk`: a reader that moves a cursor and fails if it takes a character at the end of the text.
* `Walk.escape`, `Walk.text`, `Walk.set`, `Walk.pattern`, `Walk.replacement`: what is behind a
  backslash, read one character after the other; digits are passed before it is known whether they
  write a character.
* `Walk.Finds`: a reader never fails, and finds what a function says of the text ahead.
* `Walk.Walks`: the loop over the characters of a text; `walks_expand` says that it ends.
* `escapes_read`: escapes are passed as a whole or not at all, and all texts are read to their end.
-/

namespace StreamEditor

/-! ### Moving forth and back -/

namespace Cursor

lemma advanceBy_eq (n : ℕ) (c : Cursor) :
    c.advanceBy n = ⟨(c.ahead.take n).reverse ++ c.passed, c.ahead.drop n⟩ := by
  induction n generalizing c with
  | zero => rfl
  | succ n ih =>
      obtain ⟨passed, ahead⟩ := c
      rw [advanceBy, ih]
      cases ahead with
      | nil => simp [advance]
      | cons x ahead => simp [advance]

lemma position_advanceBy {n : ℕ} {c : Cursor} (h : n ≤ c.ahead.length) :
    (c.advanceBy n).position = c.position + n := by
  rw [advanceBy_eq, position, position, List.length_append, List.length_reverse,
    List.length_take_of_le h, Nat.add_comm]

lemma retreat_append (t : Text) (passed ahead : Text) :
    retreat t.length ⟨t.reverse ++ passed, ahead⟩ = ⟨passed, t ++ ahead⟩ := by
  induction t using List.reverseRecOn generalizing ahead with
  | nil => rfl
  | append_singleton t x ih => simp [retreat, stepBack, ih]

/-- To go back as far as one went leaves the cursor where it was. -/
lemma retreat_advanceBy {n : ℕ} {c : Cursor} (h : n ≤ c.ahead.length) :
    (c.advanceBy n).retreat n = c := by
  have hback := retreat_append (c.ahead.take n) c.passed (c.ahead.drop n)
  rwa [List.length_take_of_le h, List.take_append_drop, ← advanceBy_eq] at hback

lemma length_text (c : Cursor) : c.text.length = c.position + c.ahead.length := by
  rw [text, List.length_append, List.length_reverse, position]

end Cursor

/-! ### Readers -/

/-- A reader that moves a cursor; it fails if it takes a character where none is ahead. -/
abbrev Walk (α : Type) := StateT Cursor Option α

namespace Walk

open Escape (digit? ofCode? letter? control?)

/-- The character ahead, if there is one. -/
def peek : Walk (Option Char) := return (← get).peek

/-- The character ahead, which has to be there. -/
def current : Walk Char := do (← get).peek

def position : Walk ℕ := return (← get).position

def advance : Walk Unit := modify Cursor.advance

def retreat (n : ℕ) : Walk Unit := modify (Cursor.retreat n)

/-- Passes up to `limit` digits, and adds them to a value and to their number. -/
def digits (radix : ℕ) : ℕ → ℕ → ℕ → Walk (ℕ × ℕ)
  | 0, value, count => return (value, count)
  | limit + 1, value, count => do
      match (← peek).bind (digit? radix) with
      | some d =>
          advance
          digits radix limit (value * radix + d) (count + 1)
      | none => return (value, count)

/-- The character that digits write. If they write none, goes back over them. -/
def coded (radix limit : ℕ) : Walk (Option Char) := do
  let start ← position
  let (value, count) ← digits radix limit 0 0
  match if count = 0 then none else ofCode? value with
  | some decoded => return some decoded
  | none =>
      retreat ((← position) - start)
      return none

/-- The character that digits after the letter ahead write, or else the letter. -/
def numeric (radix limit : ℕ) : Walk (Option Char) := do
  let letter ← current
  advance
  return some ((← coded radix limit).getD letter)

/-- Passes the letter ahead and the key behind it, if this writes a control character. -/
def control : Walk (Option Char) := do
  advance
  match (← peek).bind control? with
  | some decoded =>
      advance
      return some decoded
  | none => return some 'c'

/-- Passes the character escape ahead, if there is one. -/
def escape : Walk (Option Char) := do
  match ← peek with
  | none => return none
  | some letter =>
      match letter? letter with
      | some decoded =>
          advance
          return some decoded
      | none =>
          match letter with
          | 'c' => control
          | 'd' => numeric 10 3
          | 'o' => numeric 8 3
          | 'x' => numeric 16 2
          | _ => return none

/-- Inserted text behind a backslash. -/
def text (plain : Bool) : Walk Text := do
  match ← if plain then pure none else escape with
  | some decoded => return [decoded]
  | none =>
      match ← peek with
      | some next =>
          advance
          return [next]
      | none => return []

/-- A set of characters behind a backslash. -/
def set : Walk Text := do
  match ← peek with
  | some '\\' =>
      advance
      return ['\\']
  | some _ =>
      match ← escape with
      | some decoded => return [decoded]
      | none => return ['\\']
  | none => return ['\\']

/-- A regular expression behind a backslash. -/
def pattern : Walk Text := do
  match ← peek with
  | some 'n' =>
      advance
      return ['\n']
  | some 't' =>
      advance
      return ['\t']
  | some next =>
      advance
      return ['\\', next]
  | none => return ['\\']

/-- A replacement behind a backslash. -/
def part : Walk Template.Part := do
  match ← peek with
  | none => return .literal ['\\']
  | some c =>
      if c.isDigit then
        advance
        return if c = '0' then .whole else .group (c.toNat - '0'.toNat)
      else if c = '\\' || c = '&' || c = '\n' then
        advance
        return .literal [c]
      else
        match ← escape with
        | some decoded => return .literal [decoded]
        | none =>
            let c ← current
            advance
            return .literal [c]

/-- A character and what belongs to it, where a backslash is read with what is behind it. -/
def behind (unescape : Walk Text) (c : Char) : Walk Text :=
  if c = '\\' then unescape else return [c]

/-- A character of a replacement and what belongs to it. -/
def replacement (c : Char) : Walk (List Template.Part) := do
  if c = '&' then return [.whole]
  else if c = '\\' then return [← part]
  else return [.literal [c]]

/-! ### What readers find -/

/-- The reader never fails; what it finds, and how many characters it passes, is what a function
says of the text ahead. -/
def Finds {α : Type} (m : Walk α) (f : Text → α × ℕ) : Prop :=
  ∀ c, m.run c = some ((f c.ahead).1, c.advanceBy (f c.ahead).2)

section Finds

variable {α β : Type} {m : Walk α} {f : Text → α × ℕ} {k : α → Walk β} {c : Cursor}

lemma run_bind_of_some {a : α} {c' : Cursor} (h : m.run c = some (a, c')) :
    (m >>= k).run c = (k a).run c' := by
  rw [StateT.run_bind, h]
  rfl

/-- Digits are passed as long as there are some. -/
lemma finds_digits (radix limit value count : ℕ) : Finds (digits radix limit value count)
    fun t =>
      let (result, used) := Escape.digits radix limit value t
      ((result, count + used), used) := by
  induction limit generalizing value count with
  | zero => exact fun c => rfl
  | succ limit ih =>
      rintro ⟨passed, ahead⟩
      cases ahead with
      | nil => rfl
      | cons x ahead =>
          rw [digits, run_bind_of_some (a := some x) rfl, Option.bind_some]
          cases hdigit : digit? radix x with
          | none => simp [Escape.digits, hdigit, Cursor.advanceBy]
          | some d =>
              rw [run_bind_of_some (a := ⟨⟩) rfl]
              refine (ih _ _ _).trans ?_
              simp only [Escape.digits, hdigit]
              rw [Nat.add_right_comm]
              rfl

lemma length_digits (radix limit value : ℕ) (t : Text) :
    (Escape.digits radix limit value t).2 ≤ t.length := by
  induction limit generalizing value t with
  | zero => exact Nat.zero_le _
  | succ limit ih =>
      cases t with
      | nil => exact Nat.zero_le _
      | cons x t =>
          rw [Escape.digits]
          split
          · exact Nat.succ_le_succ (ih _ t)
          · exact Nat.zero_le _

/-- The character that digits at the front of a text write, and their number; if they write none,
they do not count. -/
def codedAhead (radix limit : ℕ) (t : Text) : Option Char × ℕ :=
  let (value, count) := Escape.digits radix limit 0 t
  match if count = 0 then none else ofCode? value with
  | some decoded => (some decoded, count)
  | none => (none, 0)

lemma numeric_eq (radix limit : ℕ) (letter : Char) (t : Text) :
    Escape.numeric radix limit letter t =
      ((codedAhead radix limit t).1.getD letter, (codedAhead radix limit t).2 + 1) := by
  rw [Escape.numeric, codedAhead]
  rcases Escape.digits radix limit 0 t with ⟨value, _ | count⟩
  · rfl
  · cases hcode : ofCode? value <;> simp [hcode]

lemma length_codedAhead (radix limit : ℕ) (t : Text) : (codedAhead radix limit t).2 ≤ t.length := by
  have hle := length_digits radix limit 0 t
  rw [codedAhead]
  dsimp only
  split
  · exact hle
  · exact Nat.zero_le _

lemma finds_coded (radix limit : ℕ) : Finds (coded radix limit) (codedAhead radix limit) := by
  intro c
  have hle := length_digits radix limit 0 c.ahead
  have hrun := finds_digits radix limit 0 0 c
  dsimp only at hrun
  rw [Nat.zero_add] at hrun
  rw [coded, run_bind_of_some (a := c.position) rfl, run_bind_of_some hrun, codedAhead]
  dsimp only
  split
  · rfl
  · -- the digits were passed for nothing
    rw [run_bind_of_some (a := (c.advanceBy (Escape.digits radix limit 0 c.ahead).2).position) rfl,
      Cursor.position_advanceBy hle, Nat.add_sub_cancel_left]
    exact congrArg (fun c' => some (none, c')) (Cursor.retreat_advanceBy hle)

/-- The letter is there. -/
lemma run_numeric (radix limit : ℕ) (passed rest : Text) (letter : Char) :
    (numeric radix limit).run ⟨passed, letter :: rest⟩ =
      some (some (Escape.numeric radix limit letter rest).1,
        Cursor.advanceBy (Escape.numeric radix limit letter rest).2 ⟨passed, letter :: rest⟩) := by
  rw [numeric, run_bind_of_some (a := letter) rfl, run_bind_of_some (a := ⟨⟩) rfl,
    run_bind_of_some (finds_coded radix limit _), numeric_eq]
  rfl

/-- What a text begins with as an escape, and how many characters write it; none if it does not. -/
def escapeAhead (t : Text) : Option Char × ℕ :=
  match escape? t with
  | some (decoded, used) => (some decoded, used)
  | none => (none, 0)

lemma run_control (passed rest : Text) : control.run ⟨passed, 'c' :: rest⟩ =
    some ((escapeAhead ('c' :: rest)).1,
      Cursor.advanceBy (escapeAhead ('c' :: rest)).2 ⟨passed, 'c' :: rest⟩) := by
  rw [control, run_bind_of_some (a := ⟨⟩) rfl, run_bind_of_some (a := rest.head?) rfl]
  rw [escapeAhead, escape?]
  cases rest.head?.bind control? <;> rfl

lemma finds_escape : Finds escape escapeAhead := by
  rintro ⟨passed, ahead⟩
  cases ahead with
  | nil => rfl
  | cons letter rest =>
      rw [escape, run_bind_of_some (a := some letter) rfl]
      dsimp only
      by_cases hc : letter = 'c'
      · subst hc
        exact run_control passed rest
      by_cases hd : letter = 'd'
      · subst hd
        exact run_numeric 10 3 passed rest 'd'
      by_cases ho : letter = 'o'
      · subst ho
        exact run_numeric 8 3 passed rest 'o'
      by_cases hx : letter = 'x'
      · subst hx
        exact run_numeric 16 2 passed rest 'x'
      have hescape : escape? (letter :: rest) = (letter? letter).map (·, 1) := by
        rw [escape?]
        all_goals assumption
      rw [escapeAhead, hescape]
      cases letter? letter with
      | none =>
          dsimp only
          split
          all_goals first
            | contradiction
            | rfl
      | some decoded => rfl

/-- An escape is written by at least one character. -/
lemma used_of_escape? {t : Text} {decoded : Char} {used : ℕ}
    (h : escape? t = some (decoded, used)) : 0 < used ∧ used ≤ t.length := by
  have hnumeric (radix limit : ℕ) (letter : Char) (rest : Text) :
      0 < (Escape.numeric radix limit letter rest).2 ∧
        (Escape.numeric radix limit letter rest).2 ≤ (letter :: rest).length := by
    rw [numeric_eq]
    exact ⟨Nat.succ_pos _, Nat.succ_le_succ (length_codedAhead radix limit rest)⟩
  unfold escape? at h
  split at h
  · cases h
  · rename_i rest
    split at h
    · rename_i hcontrol
      cases h
      cases rest with
      | nil => cases hcontrol
      | cons x rest => simp
    · cases h
      simp
  · have hused := hnumeric 10 3 'd' ‹Text›
    rwa [Option.some.inj h] at hused
  · have hused := hnumeric 8 3 'o' ‹Text›
    rwa [Option.some.inj h] at hused
  · have hused := hnumeric 16 2 'x' ‹Text›
    rwa [Option.some.inj h] at hused
  · obtain ⟨_, -, hused⟩ := Option.map_eq_some_iff.1 h
    cases hused
    simp

/-! ### Behind a backslash -/

lemma run_escape_bind (passed ahead : Text) (k : Option Char → Walk β) :
    (escape >>= k).run ⟨passed, ahead⟩ =
      match escape? ahead with
      | some (decoded, used) => (k (some decoded)).run (Cursor.advanceBy used ⟨passed, ahead⟩)
      | none => (k none).run ⟨passed, ahead⟩ := by
  rw [run_bind_of_some (finds_escape ⟨passed, ahead⟩), escapeAhead]
  dsimp only
  cases escape? ahead <;> rfl

lemma finds_text (plain : Bool) : Finds (text plain) fun rest =>
    match (if plain then none else escape? rest), rest with
    | some (c, used), _ => ([c], used)
    | none, c :: _ => ([c], 1)
    | none, [] => ([], 0) := by
  rintro ⟨passed, ahead⟩
  cases plain with
  | true => cases ahead <;> rfl
  | false =>
      refine (run_escape_bind passed ahead _).trans ?_
      dsimp only
      rw [if_neg Bool.false_ne_true]
      cases escape? ahead with
      | some found => rfl
      | none => cases ahead <;> rfl

lemma finds_set : Finds set fun rest =>
    match rest with
    | '\\' :: _ => (['\\'], 1)
    | _ =>
        match escape? rest with
        | some (c, used) => ([c], used)
        | none => (['\\'], 0) := by
  rintro ⟨passed, ahead⟩
  cases ahead with
  | nil => rfl
  | cons x rest =>
      rw [set, run_bind_of_some (a := some x) rfl]
      dsimp only
      split
      · rename_i hx
        cases hx
        rfl
      · rename_i y hbackslash hy
        cases hy
        have hne : ∀ tail, x :: rest ≠ '\\' :: tail := by
          rintro tail ⟨⟩
          exact hbackslash rfl
        rw [run_escape_bind]
        cases escape? (x :: rest)
        all_goals
          dsimp only
          split
          · exact absurd ‹_› (hne _)
          · rfl
      · rename_i hnone
        cases hnone

lemma finds_pattern : Finds pattern fun rest =>
    match rest with
    | 'n' :: _ => (['\n'], 1)
    | 't' :: _ => (['\t'], 1)
    | c :: _ => (['\\', c], 1)
    | [] => (['\\'], 0) := by
  rintro ⟨passed, ahead⟩
  cases ahead with
  | nil => rfl
  | cons x rest =>
      rw [pattern, run_bind_of_some (a := some x) rfl]
      dsimp only
      split
      · rename_i hx
        cases hx
        rfl
      · rename_i hx
        cases hx
        rfl
      · rename_i y hn ht hy
        cases hy
        split
        · rename_i hx
          cases hx
          exact absurd rfl hn
        · rename_i hx
          cases hx
          exact absurd rfl ht
        · rename_i hx
          cases hx
          rfl
        · rename_i hnil
          cases hnil
      · rename_i hnone
        cases hnone

lemma finds_part : Finds part Template.Part.ofEscape := by
  rintro ⟨passed, ahead⟩
  cases ahead with
  | nil => rfl
  | cons x rest =>
      rw [part, run_bind_of_some (a := some x) rfl]
      dsimp only
      rw [Template.Part.ofEscape]
      by_cases hzero : x = '0'
      · subst hzero
        rfl
      rw [if_neg hzero]
      split
      · rfl
      split
      · rfl
      rw [run_escape_bind]
      cases escape? (x :: rest) <;> rfl

lemma finds_behind {unescape : Walk Text} {f : Text → Text × ℕ} (h : Finds unescape f) (x : Char) :
    Finds (behind unescape x) fun rest => if x = '\\' then f rest else ([x], 0) := by
  intro c
  rw [behind]
  dsimp only
  split
  · exact h c
  · rfl

lemma finds_replacement (x : Char) : Finds (replacement x) fun rest =>
    if x = '&' then ([.whole], 0)
    else if x = '\\' then
      let (part, used) := Template.Part.ofEscape rest
      ([part], used)
    else ([.literal [x]], 0) := by
  intro c
  rw [replacement]
  dsimp only
  split
  · rfl
  split
  · exact run_bind_of_some (finds_part c)
  · rfl

end Finds

/-! ### Whole texts -/

/-- The loop over the characters from a cursor on: how many turns it takes, and what it gives. -/
inductive Walks {β : Type} (turn : Char → Walk (List β)) : ℕ → Cursor → List β → Prop
  | done {c : Cursor} (hpeek : c.peek = none) : Walks turn 0 c []
  | turned {c c' : Cursor} {x : Char} {out rest : List β} {n : ℕ} (hpeek : c.peek = some x)
      (hturn : (turn x).run c.advance = some (out, c')) (hrest : Walks turn n c' rest) :
      Walks turn (n + 1) c (out ++ rest)

/-- Each turn passes a character, so that the loop ends. -/
lemma walks_expand {β : Type} {turn : Char → Walk (List β)} {f : Char → Text → List β × ℕ}
    (h : ∀ x, Finds (turn x) (f x)) (c : Cursor) :
    ∃ n ≤ c.ahead.length, Walks turn n c (expand f 0 c.ahead) := by
  induction hlength : c.ahead.length using Nat.strong_induction_on generalizing c with
  | _ length ih =>
    subst hlength
    obtain ⟨passed, ahead⟩ := c
    cases ahead with
    | nil => exact ⟨0, le_rfl, .done rfl⟩
    | cons x rest =>
        have hturn := h x ⟨x :: passed, rest⟩
        dsimp only at hturn
        have hahead : (Cursor.advanceBy (f x rest).2 ⟨x :: passed, rest⟩).ahead =
            rest.drop (f x rest).2 := by rw [Cursor.advanceBy_eq]
        have hle : (rest.drop (f x rest).2).length ≤ rest.length := by
          rw [List.length_drop]
          exact Nat.sub_le _ _
        obtain ⟨n, hn, hrest⟩ := ih _ (hahead ▸ Nat.lt_succ_of_le hle) _ rfl
        rw [hahead] at hn hrest
        refine ⟨n + 1, Nat.succ_le_succ (hn.trans hle), ?_⟩
        dsimp only
        rw [expand, expand_eq_drop]
        exact .turned rfl hturn hrest

lemma walks_unescapeWith {unescape : Walk Text} {f : Text → Text × ℕ} (h : Finds unescape f)
    (t : Text) : ∃ n ≤ t.length, Walks (behind unescape) n (.start t) (unescapeWith f t) :=
  walks_expand (finds_behind h) (.start t)

end Walk

/-! ### What is passed -/

/-- Nothing is passed unless a character is found; then at least one is, and none beyond the end. -/
structure Cursor.Consumes (c : Cursor) (found : Option Char) (c' : Cursor) : Prop where
  text : c'.text = c.text
  unmoved : found = none → c' = c
  moved : found ≠ none → c.position < c'.position ∧ c'.position ≤ c.text.length

namespace Cursor

open Escape (digit? ofCode?)

lemma run_escape (c : Cursor) : Walk.escape.run c = some c.escape? := by
  rw [Walk.finds_escape c, Walk.escapeAhead, escape?]
  cases StreamEditor.escape? c.ahead <;> rfl

lemma consumes_escape? (c : Cursor) : c.Consumes c.escape?.1 c.escape?.2 := by
  rw [escape?]
  split
  · rename_i decoded used hescape
    obtain ⟨hpos, hle⟩ := Walk.used_of_escape? hescape
    refine ⟨text_advanceBy used c, nofun, fun _ => ?_⟩
    dsimp only
    rw [position_advanceBy hle, length_text]
    exact ⟨Nat.lt_add_of_pos_right hpos, Nat.add_le_add_left hle _⟩
  · exact ⟨rfl, fun _ => rfl, fun h => absurd rfl h⟩

/-- The letter of a numeric escape, the radix of its digits and how many there may be. -/
def IsNumeric (letter : Char) (radix limit : ℕ) : Prop :=
  (letter, radix, limit) ∈ [('d', 10, 3), ('o', 8, 3), ('x', 16, 2)]

/-- Without digits, or without a character that they write, only the letter is passed. -/
lemma escape?_of_numeric {c : Cursor} {letter : Char} {radix limit : ℕ} {rest : Text}
    (hnumeric : IsNumeric letter radix limit) (hahead : c.ahead = letter :: rest)
    (h : (∀ x ∈ rest.head?, digit? radix x = none) ∨
      ofCode? (Escape.digits radix limit 0 rest).1 = none) :
    c.escape? = (some letter, c.advance) := by
  have hescape : StreamEditor.escape? c.ahead = some (Escape.numeric radix limit letter rest) := by
    rw [hahead]
    simp only [IsNumeric, List.mem_cons, Prod.mk.injEq, List.not_mem_nil, or_false] at hnumeric
    rcases hnumeric with ⟨rfl, rfl, rfl⟩ | ⟨rfl, rfl, rfl⟩ | ⟨rfl, rfl, rfl⟩ <;> rfl
  have hcoded : Walk.codedAhead radix limit rest = (none, 0) := by
    rw [Walk.codedAhead]
    dsimp only
    rcases h with hdigit | hcode
    · have hcount : (Escape.digits radix limit 0 rest).2 = 0 := by
        cases limit with
        | zero => rfl
        | succ limit =>
            cases rest with
            | nil => rfl
            | cons x rest => simp [Escape.digits, hdigit x rfl]
      rw [if_pos hcount]
    · rw [hcode, ite_self]
  rw [escape?, hescape, Walk.numeric_eq, hcoded]
  rfl

end Cursor

namespace Template

lemma pieces_of_not_mem {t : Text} (hbackslash : '\\' ∉ t) (hand : '&' ∉ t) :
    pieces t = t.map fun x => .literal [x] := by
  induction t with
  | nil => rfl
  | cons x t ih =>
      rw [List.mem_cons, not_or] at hbackslash hand
      rw [pieces, expand, if_neg (Ne.symm hand.1), if_neg (Ne.symm hbackslash.1)]
      exact congrArg _ (ih hbackslash.2 hand.2)

/-- A text without backslashes and without `&` is a replacement that stands for itself. -/
lemma compile_of_not_mem {t : Text} (hbackslash : '\\' ∉ t) (hand : '&' ∉ t) :
    compile t = ⟨if t = [] then [] else [.literal t]⟩ := by
  rw [compile, pieces_of_not_mem hbackslash hand]
  clear hbackslash hand
  refine congrArg Template.mk ?_
  induction t with
  | nil => rfl
  | cons x t ih =>
      rw [List.map_cons, List.foldr_cons, ih]
      cases t <;> rfl

end Template

open Escape (digit? ofCode?) in
/-- Escapes are consumed safely at each place of each text: a reader that would fail at the end of
the text never does, it passes nothing unless it finds a character, and digits that write no
character are left behind their letter. So inserted texts, sets, regular expressions and
replacements are read to their end, with a turn for each character at most, and those without
backslashes stand for themselves. -/
theorem escapes_read (c : Cursor) (t : Text) :
    (Walk.escape.run c = some c.escape? ∧ c.Consumes c.escape?.1 c.escape?.2 ∧
      ∀ letter radix limit rest, Cursor.IsNumeric letter radix limit → c.ahead = letter :: rest →
        ((∀ x ∈ rest.head?, digit? radix x = none) ∨
          ofCode? (Escape.digits radix limit 0 rest).1 = none) →
        c.escape? = (some letter, c.advance)) ∧
    (∀ plain, ∃ n ≤ t.length,
      Walk.Walks (Walk.behind (Walk.text plain)) n (.start t) (unescapeText plain t)) ∧
    (∃ n ≤ t.length, Walk.Walks (Walk.behind Walk.set) n (.start t) (unescapeSet t)) ∧
    (∃ n ≤ t.length, Walk.Walks (Walk.behind Walk.pattern) n (.start t) (unescapePattern t)) ∧
    (∃ n ≤ t.length, Walk.Walks Walk.replacement n (.start t) (Template.pieces t)) ∧
    ('\\' ∉ t → (∀ plain, unescapeText plain t = t) ∧ unescapeSet t = t ∧ unescapePattern t = t ∧
      ('&' ∉ t → Template.compile t = ⟨if t = [] then [] else [.literal t]⟩)) := by
  refine ⟨⟨c.run_escape, c.consumes_escape?, ?_⟩, ?_, ?_, ?_, ?_, ?_⟩
  · exact fun letter radix limit rest hnumeric hahead h =>
      Cursor.escape?_of_numeric hnumeric hahead h
  · exact fun plain => Walk.walks_unescapeWith (Walk.finds_text plain) t
  · exact Walk.walks_unescapeWith Walk.finds_set t
  · exact Walk.walks_unescapeWith Walk.finds_pattern t
  · exact Walk.walks_expand Walk.finds_replacement (.start t)
  · exact fun hbackslash => ⟨fun plain => unescapeWith_of_not_mem hbackslash,
      unescapeWith_of_not_mem hbackslash, unescapeWith_of_not_mem hbackslash,
      fun hand => Template.compile_of_not_mem hbackslash hand⟩

end StreamEditor
