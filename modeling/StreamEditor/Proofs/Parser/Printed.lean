import StreamEditor.Proofs.Parser.Settled
import StreamEditor.Proofs.Scanner.Printed

/-!
Reading the addresses and the file names of a printed program.

* `reads_address`, `Parser.Leads`, `leads_selection`: addresses are read back from their tokens,
  each range under its number.
* `Parser.Named`, `Parser.Fetches`: the output files of which the names have been read;
  `fetches_target`: a file name is read back as its target.
-/

namespace StreamEditor.Parser

variable {library : Regex.Library}

open Token (Kind lineEnd startKinds)
open Scanner (Feeds fieldTokens Behind Word isNameChar)

variable {α β : Type} {p : Parser} {t : Token} {ts us : List Token}

/-- Each token that is passed uses up some of what is left. -/
lemma left_iterate_advanced (ts : List Token) (h : Ahead p (ts ++ us))
    (heof : ∀ t ∈ ts, t.kind ≠ .eof) : (advanced^[ts.length] p).left + ts.length ≤ p.left := by
  induction ts generalizing p with
  | nil => exact le_rfl
  | cons t ts ih =>
      rw [List.forall_mem_cons] at heof
      have hrest := ih h.advanced heof.2
      have hlt := left_advanced (p := p) (by rw [h.1]; exact heof.1)
      rw [List.length_cons, Function.iterate_succ_apply]
      omega

/-- Each token ahead but the end of the script is a part of what is left. -/
lemma length_le_left (h : Ahead p (ts ++ us)) (heof : ∀ t ∈ ts, t.kind ≠ .eof) :
    ts.length ≤ p.left :=
  (Nat.le_add_left _ _).trans (left_iterate_advanced ts h heof)

/-! ### Addresses -/

lemma reads_number {n : ℕ} (hn : n < numberLimit)
    (h : Ahead p (⟨.number, Text.decimal n⟩ :: ts)) :
    Reads number p n (⟨.number, Text.decimal n⟩ :: ts) := by
  refine reads_get ?_
  rw [h.1]
  simp only [Text.readDecimal_decimal, if_pos hn]
  exact .pure h

lemma reads_numberAfter {n : ℕ} (hn : n < numberLimit)
    (h : Ahead p (t :: ⟨.number, Text.decimal n⟩ :: ts)) : Reads numberAfter p n ts := by
  refine (reads_advance h).bind fun q _ h => (reads_isAt .number h).bind fun q _ h => ?_
  rw [decide_eq_true rfl, if_pos rfl]
  exact (reads_number hn h).bind fun q _ h => (reads_advance h).bind fun q _ h => .pure h

/-- A pattern reads back as the expression that it is the source of. -/
lemma reads_compileSource {regex : Option Regex} {extended : Bool}
    (hwritable : ∀ re ∈ regex, re.Writable) (hflags : ∀ re ∈ regex, re.Unflagged extended)
    (h : Ahead p ts) :
    Reads (compilePattern ((regex.map (·.source)).getD []) ⟨extended, false, false⟩) p regex
      ts := by
  cases regex with
  | none => exact .pure h
  | some re =>
      have hre := hwritable re rfl
      refine reads_compilePattern hre.ne_nil ?_ h
      rw [Option.map_some, Option.getD_some, hre.spelled.unescapePattern_eq]
      exact hflags re rfl

lemma reads_patternAddress {regex : Option Regex} (hwritable : ∀ re ∈ regex, re.Writable)
    (hflags : ∀ re ∈ regex, re.Unflagged p.options.extended) (ht : t.kind ≠ .word)
    (h : Ahead p ((Address.pattern regex).tokens ++ t :: ts)) :
    Reads patternAddress p (.pattern regex) (t :: ts) := by
  rw [Address.tokens, List.cons_append, List.append_assoc, List.singleton_append] at h
  refine (reads_advance h).bind fun q₁ h₁ h => ?_
  obtain ⟨found, hfound, hreads⟩ := reads_literalText h (by decide)
  refine hreads.bind fun q₂ h₂ h => (reads_isAt .slash h).bind fun q₃ h₃ h => ?_
  rw [decide_eq_true rfl, if_pos rfl]
  refine (reads_advance h).bind fun q₄ h₄ h => reads_get ?_
  have hoptions : q₄.options = p.options := (((h₁.trans h₂).trans h₃).trans h₄).options
  have hnoflags : Reads (patternFlags q₄.bound ⟨q₄.options.extended, false, false⟩) q₄
      ⟨q₄.options.extended, false, false⟩ (t :: ts) :=
    ⟨q₄, Setting.patternFlags_of_ne _ _ (by rw [h.1]; exact ht), .refl q₄, h⟩
  refine hnoflags.bind fun q₅ h₅ h => ?_
  rw [hfound, hoptions]
  exact (reads_compileSource hwritable hflags h).bind fun q _ h => .pure h

/-- The kinds of tokens that go on with an address. -/
def addressTails : List Kind := [.word, .tilde]

lemma reads_numberAddress {n : ℕ} (hn : n < numberLimit) (ht : t.kind ≠ .tilde)
    (h : Ahead p (⟨.number, Text.decimal n⟩ :: t :: ts)) :
    Reads numberAddress p (if n = 0 then .zero else .line n) (t :: ts) := by
  refine (reads_number hn h).bind fun q _ h => (reads_advance h).bind fun q _ h => ?_
  refine (reads_isAt .tilde h).bind fun q _ h => ?_
  rw [decide_eq_false ht, if_neg Bool.false_ne_true]
  exact .pure h

lemma reads_stepAddress {first every : ℕ} (hfirst : first < numberLimit)
    (hevery : every < numberLimit) (h : Ahead p ((Address.step first every).tokens ++ ts)) :
    Reads numberAddress p (.step first every) ts := by
  refine (reads_number hfirst h).bind fun q _ h => (reads_advance h).bind fun q _ h => ?_
  refine (reads_isAt .tilde h).bind fun q _ h => ?_
  rw [decide_eq_true rfl, if_pos rfl]
  exact (reads_numberAfter hevery h).bind fun q _ h => .pure h

/-- An address is read back from its tokens. -/
lemma reads_address {a : Address} (ha : a.Writable)
    (hflags : ∀ re ∈ a.regex?, re.Unflagged p.options.extended) (ht : t.kind ∉ addressTails)
    (h : Ahead p (a.tokens ++ t :: ts)) : Reads address p a (t :: ts) := by
  have hword : t.kind ≠ .word := fun he => ht (by rw [he]; decide)
  have htilde : t.kind ≠ .tilde := fun he => ht (by rw [he]; decide)
  refine reads_get ?_
  cases a with
  | line n =>
      have hread := reads_numberAddress ha.2 htilde h
      rw [if_neg ha.1.ne'] at hread
      rw [h.1]
      exact hread
  | last =>
      rw [h.1]
      exact (reads_advance h).bind fun q _ h => .pure h
  | pattern regex =>
      have hread := reads_patternAddress ha hflags hword h
      rw [h.1]
      exact hread
  | step first every =>
      have hread := reads_stepAddress ha.1 ha.2 h
      rw [h.1]
      exact hread
  | zero =>
      have hread := reads_numberAddress (n := 0) (by decide) htilde h
      rw [h.1]
      exact hread

lemma reads_rangeEnd {stop : RangeEnd} (hstop : stop.Writable)
    (hflags : ∀ re ∈ stop.regex?, re.Unflagged p.options.extended) (ht : t.kind ∉ addressTails)
    (h : Ahead p (stop.tokens ++ t :: ts)) : Reads rangeEnd p stop (t :: ts) := by
  refine reads_get ?_
  cases stop with
  | following | multiple =>
      rw [h.1]
      exact (reads_numberAfter hstop h).bind fun q _ h => .pure h
  | address a =>
      have hread : Reads (address >>= fun a => return RangeEnd.address a) p (.address a)
          (t :: ts) :=
        (reads_address hstop hflags ht h).bind fun q _ h => .pure h
      cases a <;>
        · rw [h.1]
          exact hread

/-- A part succeeds with a result, and leaves a draft and the tokens that are then ahead. -/
def Leads (m : Parse α) (p : Parser) (a : α) (d : Draft) (ts : List Token) : Prop :=
  ∃ q, m.run p = .ok (a, q) ∧ q.draft = d ∧ q.options = p.options ∧ Ahead q ts

section Leads

variable {m : Parse α} {f : α → Parse β} {a : α} {b : β} {d d' : Draft}

lemma Reads.leads (h : Reads m p a ts) : Leads m p a p.draft ts := by
  obtain ⟨q, hrun, honward, hahead⟩ := h
  exact ⟨q, hrun, honward.draft, honward.options, hahead⟩

lemma Leads.pure (hd : p.draft = d) (h : Ahead p ts) : Leads (Pure.pure a) p a d ts :=
  ⟨p, rfl, hd, rfl, h⟩

lemma Leads.bind (hm : Leads m p a d ts)
    (hf : ∀ q, q.draft = d → q.options = p.options → Ahead q ts → Leads (f a) q b d' us) :
    Leads (m >>= f) p b d' us := by
  obtain ⟨q, hrun, hdraft, hoptions, hahead⟩ := hm
  obtain ⟨r, hrun', hdraft', hoptions', hahead'⟩ := hf q hdraft hoptions hahead
  exact ⟨r, (run_bind_of_ok hrun).trans hrun', hdraft', hoptions'.trans hoptions, hahead'⟩

lemma leads_get {f : Parser → Parse β} (h : Leads (f p) p b d us) :
    Leads (MonadState.get >>= f) p b d us := h

end Leads

/-- A range takes its number back. -/
lemma leads_range {first : Address} {stop : RangeEnd} {slot ranges : ℕ}
    (hcounted : Counted p.rangeCount (.range first stop slot) ranges) (h : Ahead p ts) :
    Leads (do
      let slot := (← MonadState.get).rangeCount
      modify fun p : Parser => { p with rangeCount := slot + 1 }
      return Selection.range first stop slot) p (.range first stop slot)
      { p.draft with rangeCount := ranges } ts := by
  obtain ⟨hslot, -⟩ | ⟨hslot, rfl⟩ := hcounted
  · cases hslot
  · cases hslot
    exact ⟨_, rfl, rfl, rfl, h⟩

lemma zeroAllowed_of_zeroPlaced {first : Address} {stop : RangeEnd} {slot : ℕ}
    (h : (Selection.range first stop slot).ZeroPlaced) : zeroAllowed first stop = true := by
  obtain ⟨hstop, hfirst⟩ := h
  cases first with
  | zero =>
      obtain ⟨regex, rfl⟩ := hfirst rfl
      rfl
  | _ =>
      cases stop with
      | address a =>
          cases a with
          | zero => exact absurd rfl hstop
          | _ => rfl
      | _ => rfl

/-- The kinds of tokens that come behind a selection. -/
def selectionEnds : List Kind := .bang :: startKinds

lemma kind_of_address {a : Address} (h : Ahead p (a.tokens ++ us)) :
    p.token.kind = .number ∨ p.token.kind = .dollar ∨ p.token.kind = .slash := by
  cases a with
  | last => exact .inr (.inl (by rw [h.1]))
  | pattern regex => exact .inr (.inr (by rw [h.1]))
  | _ => exact .inl (by rw [h.1])

/-- A selection is read back from its tokens. -/
lemma leads_selection {s : Selection} {ranges : ℕ} (hs : s.Writable) (hzero : s.ZeroPlaced)
    (hflags : ∀ re ∈ s.expressions, re.Unflagged p.options.extended)
    (hcounted : Counted p.rangeCount s ranges) (ht : t.kind ∈ selectionEnds)
    (h : Ahead p (s.tokens ++ t :: ts)) :
    Leads selection p s { p.draft with rangeCount := ranges } (t :: ts) := by
  have hkinds : ∀ kind ∉ selectionEnds, t.kind ≠ kind := fun kind hkind he => hkind (he ▸ ht)
  have htail : t.kind ∉ addressTails := by
    simp only [addressTails, List.mem_cons, List.not_mem_nil, or_false, not_or]
    exact ⟨hkinds _ (by decide), hkinds _ (by decide)⟩
  have hsame : s.slot? = none → ({ p.draft with rangeCount := ranges } : Draft) = p.draft := by
    intro hnone
    obtain ⟨-, rfl⟩ | ⟨hslot, -⟩ := hcounted
    · rfl
    · rw [hnone] at hslot
      cases hslot
  refine leads_get ?_
  cases s with
  | all =>
      rw [hsame rfl]
      have htoken : p.token.kind = t.kind := by rw [h.1]
      split
      · exact absurd (htoken.symm.trans ‹_›) (hkinds _ (by decide))
      · exact absurd (htoken.symm.trans ‹_›) (hkinds _ (by decide))
      · exact absurd (htoken.symm.trans ‹_›) (hkinds _ (by decide))
      · exact .pure rfl h
  | single a =>
      rw [hsame rfl]
      have hkind := kind_of_address h
      have haddress := reads_address hs (fun re hre => hflags re (Option.mem_toList.2 hre)) htail h
      split
      case h_4 hnumber hdollar hslash =>
        exact (hkind.elim hnumber fun hkind => hkind.elim hdollar hslash).elim
      all_goals
        refine haddress.leads.bind fun q₁ h₁ _ hnext =>
          (reads_isAt .comma hnext).leads.bind fun q₂ h₂ _ hnext => ?_
        rw [decide_eq_false (hkinds _ (by decide)), if_neg Bool.false_ne_true]
        cases a with
        | zero => exact absurd rfl hzero
        | _ => exact .pure (h₂.trans h₁) hnext
  | range start stop slot =>
      rw [Selection.tokens, List.append_assoc] at h
      simp only [Selection.expressions, List.mem_append, Option.mem_toList] at hflags
      have hkind := kind_of_address h
      have haddress := reads_address hs.1 (fun re hre => hflags re (.inl hre))
        (t := ⟨.comma, [',']⟩) (by decide) h
      split
      case h_4 hnumber hdollar hslash =>
        exact (hkind.elim hnumber fun hkind => hkind.elim hdollar hslash).elim
      all_goals
        refine haddress.leads.bind fun q₁ h₁ ho₁ h =>
          (reads_isAt .comma h).leads.bind fun q₂ h₂ ho₂ h => ?_
        rw [decide_eq_true rfl, if_pos rfl]
        refine (reads_advance h).leads.bind fun q₃ h₃ ho₃ h => ?_
        have hoptions : q₃.options = p.options := (ho₃.trans ho₂).trans ho₁
        refine (reads_rangeEnd hs.2 (fun re hre => ?_) htail h).leads.bind fun q₄ h₄ _ h => ?_
        · rw [hoptions]
          exact hflags re (.inr hre)
        · have hdraft : q₄.draft = p.draft := ((h₄.trans h₃).trans h₂).trans h₁
          rw [if_pos (zeroAllowed_of_zeroPlaced hzero), ← hdraft]
          refine leads_range ?_ h
          rwa [show q₄.rangeCount = p.rangeCount from congrArg Draft.rangeCount hdraft]

lemma reads_negation {negated : Bool} (ht : t.kind ∈ startKinds)
    (h : Ahead p ((if negated then [⟨.bang, ['!']⟩] else []) ++ t :: ts)) :
    Reads negation p negated (t :: ts) := by
  have hbang : t.kind ≠ .bang := fun he => absurd ht (by rw [he]; decide)
  cases negated with
  | false =>
      refine (reads_isAt .bang h).bind fun q _ h => ?_
      rw [decide_eq_false hbang, if_neg Bool.false_ne_true]
      exact .pure h
  | true =>
      refine (reads_isAt .bang h).bind fun q _ h => ?_
      rw [decide_eq_true rfl, if_pos rfl]
      refine (reads_advance h).bind fun q _ h => (reads_isAt .bang h).bind fun q _ h => ?_
      rw [decide_eq_false hbang, if_neg Bool.false_ne_true]
      exact .pure h

/-! ### Output files -/

/-- The output files of a program can be named, and no path occurs twice. -/
structure Filed (files : List OutputFile) : Prop where
  writable : ∀ f ∈ files, f.Writable
  nodup : (files.map (Path.key ·.name)).Nodup

/-- A target is one of the first `k` files, or the next one. -/
def Takes (k : ℕ) (target : Option Target) (k' : ℕ) : Prop :=
  (k' = k ∧ ∀ i, target = some (.file i) → i < k) ∨ (k' = k + 1 ∧ target = some (.file k))

section Files

variable {files : List OutputFile} {k k' : ℕ}

/-- The names of the first `k` files have been read. -/
def Named (files : List OutputFile) (k : ℕ) (p : Parser) : Prop :=
  p.outputFiles.map (·.name) = (files.take k).map (·.name)

/-- A file is looked for among the first ones by its path. -/
lemma Named.findIdx? (h : Named files k p) (path : Path) :
    p.outputFiles.findIdx? (fun f => Path.key f.name = path) =
      (files.take k).findIdx? (fun f => Path.key f.name = path) := by
  have hmap := congrArg (List.findIdx? fun name => decide (Path.key name = path)) h
  rwa [List.findIdx?_map, List.findIdx?_map] at hmap

lemma Named.length (h : Named files k p) (hk : k ≤ files.length) : p.outputFiles.length = k := by
  have hlength := congrArg List.length h
  rwa [List.length_map, List.length_map, List.length_take_of_le hk] at hlength

lemma Filed.key_ne (h : Filed files) {i j : ℕ} (hij : j < i) (hi : i < files.length) :
    Path.key files[j].name ≠ Path.key files[i].name := by
  intro he
  have hi' : i < (files.map (Path.key ·.name)).length := by simpa using hi
  have hkeys : (files.map (Path.key ·.name))[j] = (files.map (Path.key ·.name))[i] := by
    simpa using he
  exact hij.ne (h.nodup.getElem_inj_iff.1 hkeys)

/-- A part succeeds with a result, the names of `k` files have then been read, and nothing else of
the draft is changed. -/
def Fetches (files : List OutputFile) (k : ℕ) (m : Parse α) (p : Parser) (a : α) (ts : List Token) :
    Prop :=
  ∃ q, m.run p = .ok (a, q) ∧ Named files k q ∧
    q.draft = { p.draft with outputFiles := q.outputFiles } ∧ q.options = p.options ∧ Ahead q ts

section Fetches

variable {m : Parse α} {f : α → Parse β} {a : α} {b : β}

/-- A part that passes tokens only reads no names. -/
lemma Reads.fetches (h : Reads m p a ts) (hnamed : Named files k p) : Fetches files k m p a ts := by
  obtain ⟨q, hrun, honward, hahead⟩ := h
  have hfiles : q.outputFiles = p.outputFiles := congrArg Draft.outputFiles honward.draft
  refine ⟨q, hrun, by rwa [Named, hfiles], ?_, honward.options, hahead⟩
  rw [honward.draft, hfiles]
  rfl

lemma Fetches.pure (hnamed : Named files k p) (h : Ahead p ts) :
    Fetches files k (Pure.pure a) p a ts := (Reads.pure h).fetches hnamed

lemma Fetches.bind (hm : Fetches files k m p a ts)
    (hf : ∀ q, q.options = p.options → Named files k q → Ahead q ts →
      Fetches files k' (f a) q b us) : Fetches files k' (m >>= f) p b us := by
  obtain ⟨q, hrun, hnamed, hdraft, hoptions, hahead⟩ := hm
  obtain ⟨r, hrun', hnamed', hdraft', hoptions', hahead'⟩ := hf q hoptions hnamed hahead
  refine ⟨r, (run_bind_of_ok hrun).trans hrun', hnamed', ?_, hoptions'.trans hoptions, hahead'⟩
  rw [hdraft', hdraft]

/-- The state is looked at. -/
lemma fetches_get {f : Parser → Parse β} (h : Fetches files k (f p) p b us) :
    Fetches files k (MonadState.get >>= f) p b us := h

end Fetches

/-- A file name is read as the target that it was printed for. -/
lemma fetches_target (hfiled : Filed files) (hnamed : Named files k p) (hk : k' ≤ files.length)
    {target : Target} (htakes : Takes k (some target) k') (place : Location) (h : Ahead p ts) :
    Fetches files k' (Parser.target (target.name files) place) p target ts := by
  cases target with
  | output | errors =>
      obtain ⟨rfl, -⟩ | ⟨-, he⟩ := htakes
      · exact ⟨p, rfl, hnamed, rfl, rfl, h⟩
      · cases he
  | file i =>
      have hi : i < files.length := by
        obtain ⟨rfl, hlt⟩ | ⟨rfl, he⟩ := htakes
        · exact (hlt i rfl).trans_le hk
        · cases he
          exact hk
      have hname : (Target.file i).name files = files[i].name := by
        rw [Target.name, List.getElem?_eq_getElem hi]
        rfl
      have hwritable := hfiled.writable _ (List.getElem_mem hi)
      rw [hname, Parser.target, if_neg hwritable.ne_output, if_neg hwritable.ne_errors]
      refine fetches_get ?_
      dsimp only
      rw [hnamed.findIdx?]
      obtain ⟨rfl, hlt⟩ | ⟨rfl, he⟩ := htakes
      · have hfound : (files.take k').findIdx? (fun f => Path.key f.name = Path.key files[i].name) =
            some i := by
          rw [List.findIdx?_eq_some_iff_getElem]
          refine ⟨by simpa using ⟨hlt i rfl, hi⟩, by simp, fun j hj => ?_⟩
          simpa using hfiled.key_ne hj hi
        rw [hfound]
        exact .pure hnamed h
      · cases he
        have hnone : (files.take k).findIdx? (fun f => Path.key f.name = Path.key files[k].name) =
            none := by
          rw [List.findIdx?_eq_none_iff]
          intro f hf
          obtain ⟨j, hj, rfl⟩ := List.mem_take_iff_getElem.1 hf
          simpa using hfiled.key_ne (lt_of_lt_of_le hj (min_le_left _ _)) hi
        rw [hnone, ← congrArg Target.file (hnamed.length hi.le)]
        refine ⟨{ p with outputFiles := p.outputFiles ++ [⟨files[k].name, place⟩] }, rfl, ?_, rfl,
          rfl, h⟩
        have htake : files.take (k + 1) = files.take k ++ [files[k]] := by
          rw [List.take_add_one, List.getElem?_eq_getElem hi]
          rfl
        rw [Named, htake, List.map_append, List.map_append, hnamed]
        rfl

end Files

end StreamEditor.Parser
