import StreamEditor.Proofs.Editor.Stays
import StreamEditor.Proofs.Editor.Waiting
import StreamEditor.Proofs.Input.Lookahead
import StreamEditor.Regex.Builtin

/-!
What waits is released at the end of its segment.

* `Editor.Settles`: in a segment things are printed and begin to wait, and then all that waits is
  released, in order.
* `Editor.Joins`: what a step adds to the segment that has begun; so it is with every step
  (`Editor.joins_step`).
* `Editor.Segmented`: acts that are cut into segments of this kind. Those of a run are
  (`Editor.segmented_advance`).
* `Editor.queue_released`: of what begins to wait nothing is lost, unless a run is quit without
  ending its last cycle.
-/

namespace StreamEditor.Editor

/-! ### Segments -/

/-- Something is printed, or begins to wait. -/
def Act.Busy : Act → Prop
  | printed _ | queued _ => True
  | released _ _ | cut => False

/-- First things are printed and begin to wait. Then all that waits is released, in order: what has
waited before, and what has begun to wait since. -/
def Settles (queue : List Queued) (acts : List Act) : Prop :=
  ∃ busy files, (∀ a ∈ busy, a.Busy) ∧
    acts = busy ++ queueActs files (queue ++ busy.filterMap Act.queued?)

section Settles

variable {queue : List Queued} {acts front : List Act}

lemma busy_printed {prints : List Print} : ∀ a ∈ printed prints, a.Busy := by
  intro a ha
  obtain ⟨p, -, rfl⟩ := List.mem_map.1 ha
  trivial

lemma requeue_of_busy (h : ∀ a ∈ acts, a.Busy) (queue : List Queued) :
    acts.foldl Act.requeue queue = queue ++ acts.filterMap Act.queued? := by
  induction acts generalizing queue with
  | nil => exact (List.append_nil _).symm
  | cons a acts ih =>
      rw [List.forall_mem_cons] at h
      rw [List.foldl_cons, ih h.2]
      cases a with
      | printed w => rfl
      | queued q => exact List.append_assoc ..
      | released | cut => exact h.1.elim

/-- Nothing waits at the end. -/
lemma Settles.requeue (h : Settles queue acts) : acts.foldl Act.requeue queue = [] := by
  obtain ⟨busy, files, hbusy, rfl⟩ := h
  rw [List.foldl_append, requeue_of_busy hbusy, requeue_queueActs]

/-- More may be printed and begin to wait before. -/
lemma Settles.prepend (hfront : ∀ a ∈ front, a.Busy)
    (h : Settles (queue ++ front.filterMap Act.queued?) acts) : Settles queue (front ++ acts) := by
  obtain ⟨busy, files, hbusy, rfl⟩ := h
  refine ⟨front ++ busy, files, List.forall_mem_append.2 ⟨hfront, hbusy⟩, ?_⟩
  rw [List.filterMap_append, List.append_assoc, List.append_assoc]

lemma settles_releaseActs (e : Editor) : Settles e.queue (releaseActs e) :=
  ⟨[], e.environment.storage, nofun, by rw [List.filterMap_nil, List.append_nil]; rfl⟩

lemma settles_endActs (autoprint : Bool) (e : Editor) : Settles e.queue (endActs autoprint e) := by
  rw [endActs]
  split
  · refine Settles.prepend (List.forall_mem_singleton.2 trivial) ?_
    rw [show List.filterMap Act.queued? [.printed _] = [] from rfl, List.append_nil]
    exact settles_releaseActs e
  · exact settles_releaseActs e

end Settles

/-! ### Commands -/

section Commands

variable {c : Command} {following : ℕ} {e e' : Editor} {flow : Flow}

/-- A command that does not read on prints, or lets something wait. -/
lemma busy_actionActs (hnext : c.action ≠ .next) (happend : c.action ≠ .appendNext) (e : Editor) :
    ∀ a ∈ actionActs c e c.action, a.Busy := by
  cases hc : c.action with
  | next => exact absurd hc hnext
  | appendNext => exact absurd hc happend
  | append | appendFile => exact List.forall_mem_singleton.2 trivial
  | appendFileLine name =>
      rw [actionActs, sequel]
      rcases (readLineOf name).run e with ⟨_ | _ | line, _⟩
      · exact List.forall_mem_nil _
      · exact List.forall_mem_nil _
      · exact List.forall_mem_singleton.2 trivial
  | _ => exact busy_printed

/-- Of the commands that do not read on, one alone quits without ending the cycle. -/
lemma returns_quit (hnext : c.action ≠ .next) (happend : c.action ≠ .appendNext) :
    Returns (perform c following) fun flow =>
      ∀ code, flow = .quit false code → c.action = .quit code false := by
  have hgo {α : Type} {m : Edit α} (a : Action) :
      Returns (m >>= fun _ => pure (Flow.goOn following))
      fun flow => ∀ code, flow = .quit false code → a = .quit code false :=
    Returns.after fun _ => Returns.pure nofun
  refine Returns.after fun e => ?_
  cases hc : c.action with
  | next => exact absurd hc hnext
  | appendNext => exact absurd hc happend
  | quit exitCode autoprint =>
      refine Returns.pure fun code hquit => ?_
      cases hquit
      rfl
  | branch condition label target =>
      refine Returns.after fun _ => Returns.ite (Returns.after fun _ => Returns.pure ?_)
        (Returns.pure nofun)
      cases target <;> exact nofun
  | deleteFirstLine =>
      dsimp only
      split
      · exact Returns.after fun _ => Returns.pure nofun
      · exact Returns.pure nofun
  | change text =>
      exact Returns.ite (Returns.after fun _ => Returns.pure nofun) (Returns.pure nofun)
  | appendFileLine name =>
      refine Returns.after fun line => ?_
      cases line with
      | none => exact Returns.pure nofun
      | some line => exact hgo _
  | printFirstLine =>
      dsimp only
      split <;> exact hgo _
  | block | blockEnd | label | delete => exact Returns.pure nofun
  | _ => exact hgo _

/-- A record that was found is read after something else that leaves the input as it is. -/
lemma readRecord_of_found {m : Edit Unit} {e₁ e₂ : Editor} {x : Unit}
    (hnext : hasNext.run e = (.ok true, e₁)) (hm : m.run e₁ = (.ok x, e₂))
    (hinput : e₂.input = e₁.input) :
    ∃ record e₃, readRecord.run e₂ = (.ok (some record), e₃) := by
  rw [run_hasNext] at hnext
  obtain ⟨hfound, rfl⟩ := Prod.mk.inj hnext
  have hlooked : Input.Looked true e₂.input := by
    have hlooked := Input.looked_hasNextFrom e.input e.environment e.input.pending
    rw [hinput, ← Except.ok.inj hfound]
    exact hlooked
  obtain ⟨record, hrecord⟩ := hlooked.read e₂.environment
  exact ⟨record, _, by rw [run_readRecord, hrecord]⟩

/-- Reading on at the end of the input does nothing but quit. Before it, what is done settles the
segment, and a record is read with which the next one begins. -/
lemma parts_readOn {m : Edit Unit} {acts : Editor → List Act} {f : Option Record → Edit Flow}
    (hm : ∀ e x e', m.run e = (.ok x, e') → e'.input = e.input)
    (hsettles : ∀ e, Settles e.queue (acts e))
    (hf : ∀ record, Returns (f (some record)) (· = .goOn following))
    (hjoined : e.options.separate = false)
    (h : (atEnd >>= fun ended =>
      if ended then pure (.quit true 0) else m >>= fun _ => readRecord >>= f).run e =
        (.ok flow, e'))
    {all : List Act} (hall : all = sequel atEnd (fun ended e =>
      if ended then []
      else acts e ++ sequel (m >>= fun _ => readRecord) (fun found _ => readActs found) e) e) :
    (all = [] ∧ flow = .quit true 0) ∨
      ∃ settled, all = settled ++ [.cut] ∧ Settles e.queue settled ∧ flow = .goOn following := by
  obtain ⟨ended, e₁, hasked, hrest⟩ := run_bind_eq_ok h
  obtain ⟨found, e₀, hnext, hpure⟩ := run_bind_eq_ok hasked
  obtain rfl : e₀ = e₁ := congrArg Prod.snd hpure
  have hsame : e₀.queue = e.queue ∧ e₀.options = e.options := by
    rw [run_hasNext] at hnext
    obtain ⟨-, rfl⟩ := Prod.mk.inj hnext
    exact ⟨rfl, rfl⟩
  -- Files that are one stream end where nothing is found ahead.
  have hended : ended = !found := by
    rw [run_atEnd hnext, hsame.2, hjoined, Bool.not_false, Bool.and_true] at hasked
    exact (Except.ok.inj (congrArg Prod.fst hasked)).symm
  subst hended
  rw [sequel, hasked] at hall
  cases found with
  | false =>
      cases hrest
      exact .inl ⟨hall, rfl⟩
  | true =>
      obtain ⟨x, e₂, hdone, hread⟩ := run_bind_eq_ok hrest
      obtain ⟨record, e₃, hrecord⟩ := readRecord_of_found hnext hdone (hm _ _ _ hdone)
      rw [run_bind_of_ok hrecord] at hread
      have hfound : (m >>= fun _ => readRecord).run e₀ = (.ok (some record), e₃) := by
        rw [run_bind_of_ok hdone, hrecord]
      refine .inr ⟨acts e₀, ?_, hsame.1 ▸ hsettles e₀, hf record _ _ _ hread⟩
      have hlast : sequel (m >>= fun _ => readRecord) (fun found _ => readActs found) e₀ =
          [.cut] := by
        rw [sequel, hfound]
        rfl
      rw [hall]
      exact congrArg _ hlast

/-- A command either prints and lets things wait, or it settles the segment and begins the next one.
Without ending the cycle only one command quits. -/
lemma parts_perform (hjoined : e.options.separate = false)
    (h : (perform c following).run e = (.ok flow, e')) :
    ((∀ a ∈ actionActs c e c.action, a.Busy) ∧
        ∀ code, flow = .quit false code → c.action = .quit code false) ∨
      ∃ settled, actionActs c e c.action = settled ++ [.cut] ∧ Settles e.queue settled ∧
        flow = .goOn following := by
  have hquits (hend : actionActs c e c.action = [] ∧ flow = .quit true 0) :
      (∀ a ∈ actionActs c e c.action, a.Busy) ∧
        ∀ code, flow = Flow.quit false code → c.action = .quit code false := by
    rw [hend.1, hend.2]
    exact ⟨nofun, nofun⟩
  have hgoes {m : Edit Unit} : Returns (m >>= fun _ => pure (Flow.goOn following))
      (· = .goOn following) := Returns.after fun _ => Returns.pure rfl
  by_cases hnext : c.action = .next
  · rw [perform, run_get_bind, hnext] at h
    have hparts := parts_readOn (m := endCycle true) (fun e _ e' hend => (endCycle_spec hend).1)
      (settles_endActs true) (fun record => hgoes) hjoined h rfl
    exact Or.imp_left hquits (by rwa [hnext, actionActs])
  by_cases happend : c.action = .appendNext
  · rw [perform, run_get_bind, happend] at h
    have hinput (e : Editor) (x : Unit) (e' : Editor) (hrelease : release.run e = (.ok x, e')) :
        e'.input = e.input := by
      have hspec := (release_spec e).1
      rwa [hrelease] at hspec
    have hparts := parts_readOn (m := release) hinput settles_releaseActs
      (fun record => Returns.after fun _ => hgoes) hjoined h rfl
    exact Or.imp_left hquits (by rwa [happend, actionActs])
  exact .inl ⟨busy_actionActs hnext happend e, returns_quit hnext happend _ _ _ h⟩

end Commands

/-! ### Steps -/

/-- The command that comes next is selected. It quits with this code, and does not end its
cycle. -/
def Drops (p : Program) (code : ℕ) (stage : Stage) (e : Editor) : Prop :=
  ∃ index c, stage = .running index ∧ p.commands[index]? = some c ∧ c.action = .quit code false ∧
    ((applies c).run e).1 = .ok true

/-- What a step adds to the segment that has begun, in which `queue` waits, and the stage to which
it leads. The codes with which it can quit within a cycle are those of which `quits` holds. -/
inductive Joins (quits : ℕ → Prop) (queue : List Queued) (acts : List Act) : Stage → Prop
  | goesOn (next : ℕ) (h : ∀ a ∈ acts, a.Busy) : Joins quits queue acts (.running next)
  | cuts {settled : List Act} {stage' : Stage} (hcut : acts = settled ++ [.cut])
      (h : Settles queue settled) (hgoes : ∀ r, stage' ≠ .finished r) :
      Joins quits queue acts stage'
  | ends (code : ℕ) (h : Settles queue acts) : Joins quits queue acts (.finished (.ok code))
  | drops (code : ℕ) (h : ∀ a ∈ acts, a.Busy) (hquits : quits code) :
      Joins quits queue acts (.finished (.ok code))

section Steps

lemma running_ne_finished (index : ℕ) (r : Except Failure ℕ) : Stage.running index ≠ .finished r :=
  nofun

variable {p : Program} {stage stage' : Stage} {queue : List Queued} {e e' e'' : Editor}

/-- Going on as a command asks, after things were printed and began to wait. -/
lemma joins_follow {quits : ℕ → Prop} {flow : Flow} {front : List Act}
    (hfront : ∀ a ∈ front, a.Busy) (hqueue : e.queue = queue ++ front.filterMap Act.queued?)
    (hquits : ∀ code, flow = .quit false code → quits code)
    (h : (follow flow).run e = (.ok stage', e')) :
    Joins quits queue (front ++ flowActs flow e) stage' := by
  have hsettles (autoprint : Bool) : Settles queue (front ++ endActs autoprint e) :=
    Settles.prepend hfront (hqueue ▸ settles_endActs autoprint e)
  have hcut (autoprint : Bool) : front ++ (endActs autoprint e ++ [.cut]) =
      front ++ endActs autoprint e ++ [.cut] := (List.append_assoc ..).symm
  cases flow with
  | goOn next =>
      cases h
      exact .goesOn next (by rwa [flowActs, List.append_nil])
  | endCycle autoprint =>
      obtain ⟨_, e₁, -, hpure⟩ := run_bind_eq_ok h
      cases hpure
      exact .cuts (hcut autoprint) (hsettles autoprint) nofun
  | restart =>
      obtain ⟨_, e₁, -, hbegin⟩ := run_bind_eq_ok h
      cases hbegin
      exact .cuts (hcut false) (hsettles false) nofun
  | quit autoprint code =>
      cases autoprint with
      | false =>
          cases h
          refine .drops code ?_ (hquits code rfl)
          rwa [flowActs, if_neg Bool.false_ne_true, List.append_nil]
      | true =>
          rw [run_quit] at h
          obtain ⟨_, e₁, -, hpure⟩ := run_bind_eq_ok h
          cases hpure
          exact .ends code (hsettles true)

/-- What a selected command does, and going on as it asks. -/
lemma joins_perform {index : ℕ} {c : Command} {e₁ : Editor} {flow : Flow}
    (hjoined : e.options.separate = false) (hc : p.commands[index]? = some c)
    (hselected : ((applies c).run e₁).1 = .ok true)
    (hperform : (perform c (index + 1)).run e = (.ok flow, e'))
    (hfollow : (follow flow).run e' = (.ok stage', e'')) :
    Joins (Drops p · (.running index) e₁) e.queue (actionActs c e c.action ++ flowActs flow e')
      stage' := by
  -- Only a command that reads on by itself ends a segment before its flow is followed.
  obtain ⟨hbusy, hquits⟩ | ⟨settled, hcut, hsettles, rfl⟩ := parts_perform hjoined hperform
  · have hqueue := (does_perform c _ e flow e' hperform).queue
    rw [requeue_of_busy hbusy] at hqueue
    exact joins_follow hbusy hqueue
      (fun code hflow => ⟨index, c, rfl, hc, hquits code hflow, hselected⟩) hfollow
  · cases hfollow
    rw [hcut]
    exact .cuts (List.append_nil _) hsettles (running_ne_finished _)

/-- With every step things go on, or the segment is settled, or the run is quit within it. -/
lemma joins_step (hjoined : e.options.separate = false) (hstage : ∀ r, stage ≠ .finished r)
    (hqueue : stage = .reading → e.queue = []) (h : (step p stage).run e = (.ok stage', e')) :
    Joins (Drops p · stage e) e.queue (stepActs p stage e) stage' := by
  cases stage with
  | finished r => exact absurd rfl (hstage r)
  | reading =>
      obtain ⟨found, e₁, -, hrest⟩ := run_bind_eq_ok h
      cases found with
      | none =>
          cases hrest
          rw [hqueue rfl]
          exact .ends 0 ⟨[], e.environment.storage, List.forall_mem_nil _, rfl⟩
      | some record =>
          obtain ⟨_, e₂, -, hbegin⟩ := run_bind_eq_ok hrest
          cases hbegin
          exact .goesOn 0 (List.forall_mem_nil _)
  | running index =>
      rw [stepActs]
      cases hc : p.commands[index]? with
      | none =>
          rw [step_of_none hc] at h
          have hquits (code : ℕ) (hquit : Flow.endCycle true = .quit false code) :
              Drops p code (.running index) e := Flow.noConfusion hquit
          have hfront : ∀ a ∈ ([] : List Act), a.Busy := List.forall_mem_nil _
          exact joins_follow hfront (List.append_nil _).symm hquits h
      | some c =>
          rw [step_of_some hc] at h
          obtain ⟨selected, e₁, hselected, hrest⟩ := run_bind_eq_ok h
          have hqueue₁ := (Does.of_moves (still_enacts.applies c) e selected e₁ hselected).queue
          have hoptions := (moves_applies c e).options
          rw [hselected] at hoptions
          change e₁.queue = e.queue at hqueue₁
          dsimp only
          rw [sequel, hselected]
          cases selected with
          | false =>
              cases hrest
              exact .goesOn _ (List.forall_mem_nil _)
          | true =>
              obtain ⟨flow, e₂, hperform, hfollow⟩ := run_bind_eq_ok hrest
              have hflow : sequel (perform c (index + 1)) flowActs e₁ = flowActs flow e₂ := by
                rw [sequel, hperform]
              dsimp only
              rw [if_pos rfl, hflow, ← hqueue₁]
              exact joins_perform (hoptions ▸ hjoined) hc (by rw [hselected]) hperform hfollow

end Steps

/-! ### Runs -/

/-- Acts that are cut into segments, in the first of which `queue` waits. All are settled but the
last one, if it was quit. -/
inductive Segmented (quits : Prop) : List Queued → List Act → Prop
  | settled {queue acts} (h : Settles queue acts) : Segmented quits queue acts
  | dropped {queue acts} (hquits : quits) (h : ∀ a ∈ acts, a.Busy) : Segmented quits queue acts
  | cut {queue acts rest} (h : Settles queue acts) (hrest : Segmented quits [] rest) :
      Segmented quits queue (acts ++ [.cut] ++ rest)

section Segmented

variable {quits quits' : Prop} {queue : List Queued} {acts front : List Act}

lemma Segmented.mono (h : Segmented quits queue acts) (hquits : quits → quits') :
    Segmented quits' queue acts := by
  induction h with
  | settled h => exact .settled h
  | dropped hq h => exact .dropped (hquits hq) h
  | cut h _ ih => exact .cut h ih

/-- What comes before belongs to the first segment. -/
lemma Segmented.prepend (hfront : ∀ a ∈ front, a.Busy)
    (h : Segmented quits (queue ++ front.filterMap Act.queued?) acts) :
    Segmented quits queue (front ++ acts) := by
  cases h with
  | settled h => exact .settled (h.prepend hfront)
  | dropped hq h => exact .dropped hq (List.forall_mem_append.2 ⟨hfront, h⟩)
  | cut h hrest =>
      rw [← List.append_assoc, ← List.append_assoc]
      exact .cut (h.prepend hfront) hrest

/-- The segments one by one, and what waits in the end. -/
lemma Segmented.split (h : Segmented quits [] acts) :
    ∃ (segments : List (List Act)) (last : List Act),
      acts = (segments.map (· ++ [.cut])).flatten ++ last ∧
      (∀ segment ∈ segments, Settles [] segment) ∧
      (Settles [] last ∧ acts.foldl Act.requeue [] = [] ∨
        quits ∧ (∀ a ∈ last, a.Busy) ∧ acts.foldl Act.requeue [] = last.filterMap Act.queued?) := by
  generalize hqueue : ([] : List Queued) = queue at h
  induction h with
  | @settled queue acts h =>
      subst hqueue
      exact ⟨[], acts, rfl, nofun, .inl ⟨h, h.requeue⟩⟩
  | @dropped queue acts hq h =>
      subst hqueue
      exact ⟨[], acts, rfl, nofun, .inr ⟨hq, h, requeue_of_busy h []⟩⟩
  | @cut queue acts rest h _ ih =>
      subst hqueue
      obtain ⟨segments, last, rfl, hsegments, hlast⟩ := ih rfl
      refine ⟨acts :: segments, last, ?_, List.forall_mem_cons.2 ⟨h, hsegments⟩, ?_⟩
      · rw [List.map_cons, List.flatten_cons]
        exact (List.append_assoc ..).symm
      · have hrequeue : (acts ++ [Act.cut]).foldl Act.requeue [] = [] := by
          rw [List.foldl_append, h.requeue]
          rfl
        rwa [List.foldl_append, hrequeue]

end Segmented

variable {p : Program} {stage : Stage} {e e' : Editor} {k code : ℕ}

/-- Once a run has ended it does nothing more. -/
lemma runActs_finished (p : Program) (k : ℕ) (r : Except Failure ℕ) (e : Editor) :
    runActs p k (.finished r) e = [] := by
  induction k with
  | zero => rfl
  | succ k ih =>
      rw [runActs, stepActs, List.nil_append]
      exact ih

/-- A run that ends without a failure is cut into segments. The last of them is settled unless the
last step of the run quits without ending its cycle. -/
lemma segmented_advance (hjoined : e.options.separate = false) (hstage : ∀ r, stage ≠ .finished r)
    (hqueue : stage = .reading → e.queue = [])
    (h : advance p k stage e = (.finished (.ok code), e')) :
    Segmented (∃ j < k, Drops p code (advance p j stage e).1 (advance p j stage e).2 ∧
      advance p (j + 1) stage e = (.finished (.ok code), e')) e.queue (runActs p k stage e) := by
  induction k generalizing stage e with
  | zero => exact absurd (congrArg Prod.fst h) (hstage _)
  | succ k ih =>
      rw [advance_succ] at h
      rcases hrun : (step p stage).run e with ⟨failure | stage₁, e₁⟩ <;> rw [hrun] at h
      · cases h
      have hacts : runActs p (k + 1) stage e = stepActs p stage e ++ runActs p k stage₁ e₁ := by
        rw [runActs, sequel, hrun]
      have hdone := (does_step p stage e stage₁ e₁ hrun).queue
      have hoptions := (moves_step p stage e).options
      rw [hrun] at hoptions
      -- What is found out about the rest of the run is about a later time of the whole run.
      have hlater : (∃ j < k, Drops p code (advance p j stage₁ e₁).1 (advance p j stage₁ e₁).2 ∧
            advance p (j + 1) stage₁ e₁ = (.finished (.ok code), e')) →
          ∃ j < k + 1, Drops p code (advance p j stage e).1 (advance p j stage e).2 ∧
            advance p (j + 1) stage e = (.finished (.ok code), e') := by
        rintro ⟨j, hj, hdrops⟩
        refine ⟨j + 1, Nat.succ_lt_succ hj, ?_⟩
        rwa [advance_succ p (j + 1), advance_succ, hrun]
      have hrest := fun hgoes hreading =>
        (@ih stage₁ e₁ (hoptions ▸ hjoined) hgoes hreading h).mono hlater
      rw [hacts]
      cases joins_step hjoined hstage hqueue hrun with
      | goesOn next hbusy =>
          rw [requeue_of_busy hbusy] at hdone
          exact Segmented.prepend hbusy
            (hdone ▸ hrest (running_ne_finished next) fun hreading => Stage.noConfusion hreading)
      | cuts hcut hsettles hgoes =>
          rw [hcut, List.foldl_append, hsettles.requeue] at hdone
          change e₁.queue = [] at hdone
          rw [hcut]
          exact .cut hsettles (hdone ▸ hrest hgoes fun _ => hdone)
      | ends code' hsettles =>
          rw [runActs_finished, List.append_nil]
          exact .settled hsettles
      | drops code' hbusy hdrops =>
          rw [goOnWith, advance_finished] at h
          cases h
          rw [runActs_finished, List.append_nil]
          have hlast : advance p 1 stage e = (.finished (.ok code), e') := by
            rw [advance_succ, hrun]
            rfl
          exact .dropped ⟨0, Nat.succ_pos k, hdrops, hlast⟩ hbusy

/-- What begins to wait in a segment of a run is output at the end of the segment, exactly once and
in order, after all that is printed in it. A segment ends with a cycle, where one begins again, and
where the next record is read within it. Nothing waits in the end, unless the last step of the run
is that of a command which quits without ending its cycle: then what has begun to wait in the last
segment is left. At any time the output and what waits are what the acts of the run make of them,
whatever the output takes, as long as the run does not fail. -/
theorem queue_released {o : Options} {input : Input} {sink : Sink} {env : Environment}
    {e₀ e₁ : Editor}
    (hstart : (start? p o input sink env).1 = .ok e₀) (hjoined : o.separate = false)
    (hrun : advance p k .reading e₀ = (.finished (.ok code), e₁)) :
    (∀ j, Enacts (runActs p j .reading e₀) e₀ (advance p j .reading e₀).2) ∧
    ∃ (segments : List (List Act)) (last : List Act),
      runActs p k .reading e₀ = (segments.map (· ++ [.cut])).flatten ++ last ∧
      (∀ segment ∈ segments, Settles [] segment) ∧
      (Settles [] last ∧ e₁.queue = [] ∨
        (∃ j < k, Drops p code (advance p j .reading e₀).1 (advance p j .reading e₀).2 ∧
            advance p (j + 1) .reading e₀ = (.finished (.ok code), e₁)) ∧
          (∀ a ∈ last, a.Busy) ∧ e₁.queue = last.filterMap Act.queued?) := by
  obtain ⟨writers, storage, -, he₀⟩ := start?_eq_ok hstart
  have hseparate : e₀.options.separate = false := by
    rw [he₀]
    exact hjoined
  have hqueue : e₀.queue = [] := by rw [he₀]
  have hfine (j : ℕ) (failure : Failure) :
      (advance p j .reading e₀).1 ≠ .finished (.error failure) := by
    intro hfailed
    have hlater := advance_finished p k (.error failure) (advance p j .reading e₀).2
    rw [← hfailed, ← advance_add, Nat.add_comm, advance_add, hrun, advance_finished] at hlater
    exact absurd (hfailed ▸ congrArg Prod.fst hlater) nofun
  have henacts (j : ℕ) := enacts_advance p j (Prod.mk.eta (p := advance p j .reading e₀)).symm
      (hfine j)
  have hreading : ∀ r, Stage.reading ≠ .finished r := nofun
  have hsegmented := segmented_advance hseparate hreading (fun _ => hqueue) hrun
  have hleft := (henacts k).queue
  rw [hrun, hqueue] at hleft
  rw [hqueue] at hsegmented
  obtain ⟨segments, last, hacts, hsegments, hlast⟩ := hsegmented.split
  rw [← hleft] at hlast
  exact ⟨henacts, segments, last, hacts, hsegments, hlast⟩

/-- A line of a file waits and is output before the next record is read. The text that waits then is
not, for the run is quit. -/
theorem queue_released_quit :
    ∃ p e₀ e₁,
      Program.parse (.ofText (Text.ofString "R g\nN\na x\nQ")) .standard = .ok p ∧
      (start? p .standard (.ofFiles [['f']] 10 false) .unlimited
        (.start ⟨[([['f']], [97, 10, 98]), ([['g']], [121])], [], []⟩)).1 = .ok e₀ ∧
      advance p 9 .reading e₀ = (.finished (.ok 0), e₁) ∧
      (runActs p 9 .reading e₀).filterMap Act.queued? = [.text ['y'], .text ['x']] ∧
      e₁.output.written = [121, 10] ∧ e₁.queue = [.text ['x']] := by
  have hall : ending? (fun _ _ => ())
      (Program.parse (.ofText (Text.ofString "R g\nN\na x\nQ")) .standard) .standard [['f']]
      ⟨[([['f']], [97, 10, 98]), ([['g']], [121])], [], []⟩ 9 = some (.ok 0, ()) := by
    decide +kernel
  have hseen : started? (fun p e₀ => ((runActs p 9 .reading e₀).filterMap Act.queued?,
        (e₀.output.after ((runActs p 9 .reading e₀).flatMap Act.writes)).written,
        (runActs p 9 .reading e₀).foldl Act.requeue e₀.queue))
      (Program.parse (.ofText (Text.ofString "R g\nN\na x\nQ")) .standard) .standard [['f']]
      ⟨[([['f']], [97, 10, 98]), ([['g']], [121])], [], []⟩ =
      some ([.text ['y'], .text ['x']], [121, 10], [.text ['x']]) := by
    decide +kernel
  obtain ⟨p, e₀, e₁, hp, hstart, hrun, -⟩ := advance_of_ending? hall
  obtain ⟨p', e₀', hp', hstart', hacts⟩ := start_of_started? hseen
  obtain rfl : p = p' := Except.ok.inj (hp.symm.trans hp')
  obtain rfl : e₀ = e₀' := Except.ok.inj (hstart.symm.trans hstart')
  obtain ⟨hqueued, hrest⟩ := Prod.mk.inj hacts
  obtain ⟨hwritten, hleft⟩ := Prod.mk.inj hrest
  obtain ⟨henacts, -⟩ := queue_released hstart rfl hrun
  have hend := henacts 9
  rw [hrun] at hend
  exact ⟨p, e₀, e₁, hp, hstart, hrun, hqueued, by rw [hend.output, hwritten],
    hend.queue.trans hleft⟩

end StreamEditor.Editor
