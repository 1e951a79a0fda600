import StreamEditor.Editor.Selection

/-!
Running a program.

* `Flow`: how a run goes on after a command; `Editor.perform` does what a command says.
* `Stage`: what a run does next; `Editor.step` does it.
* `Editor.advance`: a number of steps. A finished run stays as it is, so more steps change
  nothing once it has ended.
* `Editor.conclude`: delivers all output, also after a failure, which the result then reports.
-/

namespace StreamEditor

/-- How a run goes on after a command. -/
inductive Flow where
  /-- With the command of this number. -/
  | goOn (next : Nat)
  | endCycle (autoprint : Bool)
  /-- With a new cycle on the pattern space as it is. -/
  | restart
  | quit (autoprint : Bool) (exitCode : Nat)
  deriving DecidableEq, Repr, Inhabited

/-- What a run does next. -/
inductive Stage where
  /-- Begins a cycle with the next record. -/
  | reading
  /-- Comes to the command of this number. -/
  | running (next : Nat)
  | finished (result : Except Failure Nat)
  deriving Inhabited

namespace Editor

/-! ### Commands -/

/-- Changes the pattern space. -/
def edit (f : Text → Text) : Edit Unit := modify fun e => { e with pattern := f e.pattern }

/-- The reason why a template refers to a group that there is not. -/
def invalidReference (group : Nat) : Text :=
  Text.ofString "invalid reference \\" ++ Text.decimal group
    ++ Text.ofString " on `s' command's RHS"

/-- Substitutes in the pattern space. -/
def substitute (c : Command) (s : Substitution) : Edit Unit := do
  let regex ← resolve c s.regex
  if regex.groupCount ≤ s.template.maxGroup then fail c (invalidReference s.template.maxGroup)
  let e ← get
  let (result, count) ←
    searched c (regex.replace s.template s.occurrence s.everywhere e.pattern)
  if count = 0 then return ()
  tell (.substituted count)
  modify fun e => { e with pattern := result, substituted := true }
  if s.print then printPattern
  match s.write with
  | some target => writeTo target result e.terminated
  | none => return ()

/-- Whether a branch is taken. A test forgets the substitutions before it. -/
def test (condition : Condition) : Edit Bool :=
  modifyGet fun e =>
    match condition with
    | .always => (true, e)
    | .ifSubstituted => (e.substituted, { e with substituted := false })
    | .ifNotSubstituted => (!e.substituted, { e with substituted := false })

/-- Whether the input ends after the current record, so that no command can read on. If the
files are separate streams it is not looked beyond the end of one. -/
def atEnd : Edit Bool := return !(← hasNext) && !(← get).options.separate

/-- Prints the pattern space and makes the next record the pattern space. -/
def next (following : Nat) : Edit Flow := do
  if ← atEnd then return .quit true 0
  endCycle true
  match ← readRecord with
  | none => return .quit false 0
  | some record =>
      load record record.content
      return .goOn following

/-- Appends the next record to the pattern space. -/
def appendNext (following : Nat) : Edit Flow := do
  if ← atEnd then return .quit true 0
  release
  match ← readRecord with
  | none => return .quit true 0
  | some record =>
      load record ((← get).pattern ++ '\n' :: record.content)
      return .goOn following

/-- Does what a command says; `following` is the number of the command after it. -/
def perform (c : Command) (following : Nat) : Edit Flow := do
  let e ← get
  match c.action with
  | .block _ | .blockEnd | .label _ => return .goOn following
  | .branch condition _ target =>
      if ← test condition then
        tell (.branch target)
        return target.elim (.endCycle true) .goOn
      else return .goOn following
  | .delete => return .endCycle false
  | .deleteFirstLine =>
      match Text.splitLine e.pattern with
      | (_, some rest) =>
          edit fun _ => rest
          return .restart
      | (_, none) => return .endCycle false
  | .change text =>
      if c.negated || rangeEnded c e then printText text
      return .endCycle false
  | .next => next following
  | .appendNext => appendNext following
  | .quit exitCode autoprint => return .quit autoprint exitCode
  | .substitute s =>
      substitute c s
      return .goOn following
  | .transliterate y =>
      edit y.apply
      return .goOn following
  | .insert text =>
      printText text
      return .goOn following
  | .append text =>
      enqueue (.text text)
      return .goOn following
  | .appendFile name =>
      enqueue (.file name)
      return .goOn following
  | .appendFileLine name =>
      match ← readLineOf name with
      | some line => enqueue (.text line)
      | none => pure ()
      return .goOn following
  | .print =>
      printPattern
      return .goOn following
  | .printFirstLine =>
      match Text.splitLine e.pattern with
      | (first, some _) => printRecord first true
      | (_, none) => printPattern
      return .goOn following
  | .write target =>
      writeTo target e.pattern e.terminated
      return .goOn following
  | .writeFirstLine target =>
      writeTo target (Text.splitLine e.pattern).1 true
      return .goOn following
  | .hold =>
      set { e with hold := e.pattern }
      return .goOn following
  | .holdAppend =>
      set { e with hold := e.hold ++ '\n' :: e.pattern }
      return .goOn following
  | .get =>
      set { e with pattern := e.hold }
      return .goOn following
  | .getAppend =>
      set { e with pattern := e.pattern ++ '\n' :: e.hold }
      return .goOn following
  | .exchange =>
      set { e with pattern := e.hold, hold := e.pattern }
      return .goOn following
  | .lineNumber =>
      printText (Text.decimal e.lineNumber)
      return .goOn following
  | .list width =>
      printText (Listing.render e.pattern (width.getD e.options.lineWrap))
      return .goOn following
  | .zap =>
      edit fun _ => []
      return .goOn following
  | .fileName =>
      printText e.input.recordName
      return .goOn following

/-! ### Cycles -/

/-- The number of the command after one that does not apply: a block is skipped. -/
def skip (c : Command) (following : Nat) : Nat :=
  match c.action with
  | .block stop => stop
  | _ => following

/-- Begins a cycle on the pattern space. -/
def beginCycle : Edit Stage := do
  let e ← get
  tell (.cycle e.lineNumber e.pattern)
  return .running 0

/-- Goes on as a command asks. -/
def follow : Flow → Edit Stage
  | .goOn next => return .running next
  | .endCycle autoprint => do
      endCycle autoprint
      return .reading
  | .restart => do
      endCycle false
      beginCycle
  | .quit autoprint exitCode => do
      tell (.quit (← get).lineNumber exitCode)
      if autoprint then endCycle true
      return .finished (.ok exitCode)

/-- One step of a run. -/
def step (p : Program) : Stage → Edit Stage
  | .reading => do
      match ← readRecord with
      | none => return .finished (.ok 0)
      | some record =>
          load record record.content
          beginCycle
  | .running index =>
      match p.commands[index]? with
      | none => follow (.endCycle true)
      | some c => do
          if ← applies c then follow (← perform c (index + 1))
          else return .running (skip c (index + 1))
  | .finished result => return .finished result

/-- A number of steps, fewer if the run ends before. A failure ends it. -/
def advance (p : Program) : Nat → Stage → Editor → Stage × Editor
  | 0, stage, e => (stage, e)
  | _, .finished result, e => (.finished result, e)
  | count + 1, stage, e =>
      match (step p stage).run e with
      | (.ok stage, e) => advance p count stage e
      | (.error failure, e) => (.finished (.error failure), e)

/-- A finished run stays as it is. -/
@[simp] theorem advance_finished (p : Program) (count : Nat) (result : Except Failure Nat)
    (e : Editor) : advance p count (.finished result) e = (.finished result, e) := by
  cases count <;> rfl

/-- Steps can be taken in two goes. -/
theorem advance_add (p : Program) (m n : Nat) (stage : Stage) (e : Editor) :
    advance p (m + n) stage e
      = advance p n (advance p m stage e).1 (advance p m stage e).2 := by
  induction m generalizing stage e with
  | zero => rw [Nat.zero_add]; rfl
  | succ m ih =>
    rw [Nat.succ_add]
    cases stage with
    | finished result => simp
    | reading =>
      rw [advance, advance]
      · split
        · exact ih _ _
        · simp
      all_goals simp
    | running next =>
      rw [advance, advance]
      · split
        · exact ih _ _
        · simp
      all_goals simp

/-! ### The whole run -/

/-- Tells that a program begins to run. -/
def announce (p : Program) : Edit Unit := do
  tell (.started p.commands.length (← get).options.quiet)

/-- Delivers all output at the end of a run. A failure of the run counts before one to
deliver. -/
def conclude (result : Except Failure Nat) (e : Editor) : Except Failure Nat × Editor :=
  match flush.run e with
  | (.ok _, e) => (result, e)
  | (.error failure, e) => (result.bind fun _ => .error failure, e)

end Editor

end StreamEditor
