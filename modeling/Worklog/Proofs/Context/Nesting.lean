import Worklog.Proofs.Context.Isolation
import Worklog.Proofs.Lifecycle.Session

/-!
# Programs whose blocks nest

A program that makes things current only for the extent of a block can be read without regard to
what is current: who the parent of an activity is can be seen from the blocks around its start. A
guard that is held for the extent of a block, a scope and a future each stand for an activity, and
another thread stands for none.

* `Block` — such programs, and `Block.steps`, the steps that they take.
* `Block.read` — what they lead to when parents are read off the blocks.
* `runAll_steps` — what they lead to is what is read.
* `nested` — which parents are reported.
-/

namespace Worklog.Script

/-! ## Programs -/

inductive Block where
  /-- Starts an activity, without saying which parent it has. -/
  | start (name : String) (given : Start)
  /-- Looks at what is current. -/
  | look
  /-- Holds a guard while the body is run. -/
  | push (id : Ref) (body : List Block)
  | scope (id : Ref) (body : List Block)
  | future (id : Ref) (body : List Block)
  | thread (body : List Block)
deriving Inhabited

/-- The name of a guard, by how many guards are held around it. -/
def guardName (depth : Nat) : String := String.ofList (List.replicate depth 'g')

/-- Guards at different depths have different names. -/
theorem guardName_injective : Function.Injective guardName := by
  intro m n h
  have hlength := congrArg (fun name => name.toList.length) h
  simpa [guardName] using hlength

mutual

/-- The steps of a block inside as many guards. -/
def Block.steps (depth : Nat) : Block → List Step
  | .start name given => [.command (.start name { given with parent := none })]
  | .look => [.command .current]
  | .push id body =>
    .command (.push (guardName depth) id)
      :: (stepsAll (depth + 1) body ++ [.command (.release (guardName depth))])
  | .scope id body => [.scope id (stepsAll depth body)]
  | .future id body => [.future id (stepsAll depth body)]
  | .thread body => [.thread (stepsAll depth body)]

def Block.stepsAll (depth : Nat) : List Block → List Step
  | [] => []
  | block :: blocks => block.steps depth ++ stepsAll depth blocks

end

/-! ## Reading -/

/-- What a program leads to, as it is read. -/
structure Reading where
  outcomes : List Outcome
  /-- The starts that are reported. -/
  reports : List Call
  session : Session

/-- How the start of an activity is reported, if there is a sink for it. -/
def Session.startReports (session : Session) (start : Start) (parent : UInt64) : List Call :=
  match session.sink? start.sink with
  | none => []
  | some _ =>
    [.start session.book.nextId.1 start.level start.kind start.text start.fields parent]

mutual

/-- Reads a block that has this parent around it. What is current is never asked for. -/
def Block.read (parent : UInt64) : Block → Session → Reading
  | .start name given, session =>
    let (answer, after) := session.startActivity name { given with parent := some (.id parent) }
    ⟨[(answer, after.effectsSince session)], session.startReports given parent, after⟩
  | .look, session => ⟨[(.id parent, [])], [], session⟩
  | .push ref body, session =>
    match session.id? ref with
    | none =>
      -- There is no such activity, so the one around counts.
      let inside := readAll parent body session
      { inside with outcomes := (.unknownName, []) :: (inside.outcomes ++ [(.unknownName, [])]) }
    | some id =>
      let inside := readAll id body session
      { inside with outcomes := (.id id, []) :: (inside.outcomes ++ [(.id parent, [])]) }
  | .scope ref body, session =>
    match session.id? ref with
    | none => ⟨[(.unknownName, [])], [], session⟩
    | some id =>
      let inside := readAll id body session
      { inside with outcomes := [(.block inside.outcomes, [])] }
  | .future ref body, session =>
    match session.id? ref with
    | none => ⟨[(.unknownName, [])], [], session⟩
    | some id =>
      let inside := readAll id body session
      { inside with
        outcomes :=
          [(.future inside.outcomes (List.replicate inside.outcomes.length parent), [])] }
  | .thread body, session =>
    let inside := readAll 0 body session
    { inside with outcomes := [(.block inside.outcomes, [])] }

def Block.readAll (parent : UInt64) : List Block → Session → Reading
  | [], session => ⟨[], [], session⟩
  | block :: blocks, session =>
    let first := block.read parent session
    let others := readAll parent blocks first.session
    ⟨first.outcomes ++ others.outcomes, first.reports ++ others.reports, others.session⟩

end

/-! ## What a reading does not look at -/

/-- The same session in another context and with other guards. -/
def Session.placed (context : Context) (guards : List (String × Guard)) (session : Session) :
    Session :=
  { session with context, guards }

/-- The same reading, of a session in another context and with other guards. -/
def Reading.placed (context : Context) (guards : List (String × Guard)) (reading : Reading) :
    Reading :=
  { reading with session := reading.session.placed context guards }

variable {context : Context} {guards : List (String × Guard)}

@[simp] theorem Session.id?_placed (session : Session) (ref : Ref) :
    (session.placed context guards).id? ref = session.id? ref := by
  cases ref <;> rfl

/-- What is planned of an activity that names its parent. -/
theorem planOf_under (session : Session) (given : Start) (parent : UInt64) :
    session.planOf { given with parent := some (.id parent) }
      = (session.sink? given.sink).map fun sink =>
        ⟨given.kind, given.level, given.text, given.fields, some parent, some sink⟩ := by
  cases hsink : session.sink? given.sink <;> simp [Session.planOf, hsink, Session.id?]

/-- An activity that names its parent starts in the same way in every context. -/
theorem startActivity_placed (session : Session) (name : String) (given : Start)
    (parent : UInt64) :
    (session.placed context guards).startActivity name { given with parent := some (.id parent) }
      = let (answer, after) :=
          session.startActivity name { given with parent := some (.id parent) }
        (answer, after.placed context guards) := by
  have hplan : (session.placed context guards).planOf { given with parent := some (.id parent) }
      = session.planOf { given with parent := some (.id parent) } := rfl
  simp only [Session.startActivity, hplan, planOf_under]
  cases session.sink? given.sink with
  | none => rfl
  | some sink =>
    have hbook : (session.placed context guards).book = session.book := rfl
    simp only [Option.map_some, Activity.ofPlan, Option.getD_some, hbook]
    split <;> rfl

mutual

/-- A reading does not look at the context or at the guards. -/
theorem read_placed (parent : UInt64) (block : Block) (session : Session) :
    block.read parent (session.placed context guards)
      = (block.read parent session).placed context guards := by
  cases block with
  | start name given =>
    simp only [Block.read, startActivity_placed]
    rfl
  | look =>
    simp only [Block.read]
    rfl
  | push ref body =>
    simp only [Block.read, Session.id?_placed]
    cases session.id? ref with
    | none => simp only [readAll_placed parent body session]; rfl
    | some id => simp only [readAll_placed id body session]; rfl
  | scope ref body =>
    simp only [Block.read, Session.id?_placed]
    cases session.id? ref with
    | none => rfl
    | some id => simp only [readAll_placed id body session]; rfl
  | future ref body =>
    simp only [Block.read, Session.id?_placed]
    cases session.id? ref with
    | none => rfl
    | some id => simp only [readAll_placed id body session]; rfl
  | thread body =>
    simp only [Block.read, readAll_placed 0 body session]
    rfl

theorem readAll_placed (parent : UInt64) (blocks : List Block) (session : Session) :
    Block.readAll parent blocks (session.placed context guards)
      = (Block.readAll parent blocks session).placed context guards := by
  cases blocks with
  | nil =>
    simp only [Block.readAll]
    rfl
  | cons block blocks =>
    simp only [Block.readAll, read_placed parent block session, Reading.placed,
      readAll_placed parent blocks]

end

/-- A reading never touches what is current, or the guards. -/
theorem read_session_eq (parent : UInt64) (block : Block) (session : Session) :
    (block.read parent session).session.placed session.context session.guards
      = (block.read parent session).session :=
  congrArg Reading.session (read_placed parent block session).symm

theorem readAll_session_eq (parent : UInt64) (blocks : List Block) (session : Session) :
    (Block.readAll parent blocks session).session.placed session.context session.guards
      = (Block.readAll parent blocks session).session :=
  congrArg Reading.session (readAll_placed parent blocks session).symm

/-! ## Running -/

theorem runAll_append (steps others : List Step) (session : Session) :
    runAll (steps ++ others) session
      = let (outcomes, after) := runAll steps session
        let (others, last) := runAll others after
        (outcomes ++ others, last) := by
  induction steps generalizing session with
  | nil => rfl
  | cons step steps ih =>
    simp only [List.cons_append, runAll, ih]

theorem length_runAll (steps : List Step) (session : Session) :
    (runAll steps session).1.length = steps.length := by
  induction steps generalizing session with
  | nil => rfl
  | cons step steps ih => simp only [runAll, List.length_cons, ih]

/-- An activity that names no parent starts as one that names the current activity. -/
theorem startActivity_current (session : Session) (name : String) (given : Start) :
    session.startActivity name { given with parent := none }
      = session.startActivity name { given with parent := some (.id session.context.current) } := by
  simp only [Session.startActivity, planOf_under]
  cases hsink : session.sink? given.sink <;>
    simp [Session.planOf, hsink, Activity.ofPlan]

/-- No guard is held under the names that the blocks use from this depth on. -/
def Session.Unguarded (depth : Nat) (session : Session) : Prop :=
  ∀ n, depth ≤ n → session.guards.lookup (guardName n) = none

section

variable {session : Session} {depth : Nat}

/-- The guards, and the one of a block. -/
abbrev Session.guarded (depth : Nat) (session : Session) : List (String × Guard) :=
  withEntry (guardName depth) ⟨session.context.current⟩ session.guards

/-- A guard in use leaves the deeper ones free. -/
theorem Session.Unguarded.placed (h : session.Unguarded depth) (context : Context) :
    (session.placed context (session.guarded depth)).Unguarded (depth + 1) := by
  intro n hn
  have hname : guardName n ≠ guardName depth := fun hsame => by
    have hdepth : n = depth := guardName_injective hsame
    omega
  have hfree : session.guards.lookup (guardName n) = none := h n (by omega)
  rw [List.lookup_eq_none_iff] at hfree ⊢
  intro entry hentry
  rcases List.mem_cons.mp hentry with rfl | hentry
  · simpa using hname
  · exact hfree entry (List.mem_of_mem_filter hentry)

/-- Entering an id whose guard is not in use puts it under the name of that guard. -/
theorem perform_push (h : session.Unguarded depth) {ref : Ref} {id : UInt64}
    (hid : session.id? ref = some id) :
    session.perform (.push (guardName depth) ref)
      = (.id id, session.placed (session.context.set id) (session.guarded depth)) := by
  have hfree : session.guards.lookup (guardName depth) = none := h depth (Nat.le_refl depth)
  simp only [Session.perform, hid, Session.push, Guard.push, hfree, Context.current_set]
  rfl

/-- Whatever has become of the rest of the session, the guard brings back what it found. -/
theorem perform_release (h : session.Unguarded depth) (id : UInt64) (after : Session) :
    (after.placed (session.context.set id) (session.guarded depth)).perform
        (.release (guardName depth))
      = (.id session.context.current, after.placed session.context session.guards) := by
  have hfree : session.guards.lookup (guardName depth) = none := h depth (Nat.le_refl depth)
  have hheld : (session.guarded depth).lookup (guardName depth)
      = some ⟨session.context.current⟩ := by
    rw [Session.guarded, Session.withEntry, List.lookup_cons_self]
  have hothers : Session.without (guardName depth) (session.guarded depth) = session.guards := by
    rw [Session.guarded, Session.withEntry, Session.without, List.filter_cons_of_neg (by simp)]
    show Session.without _ (Session.without _ session.guards) = _
    rw [Session.without_of_lookup_eq_none hfree, Session.without_of_lookup_eq_none hfree]
  have hback : (⟨session.context.current⟩ : Guard).release (session.context.set id)
      = session.context := Guard.release_push session.context id
  simp only [Session.perform, Session.release, Session.placed, hheld, hothers, hback]

/-- Where there is no guard, letting go of it changes nothing. -/
theorem perform_release_none (h : session.Unguarded depth) :
    session.perform (.release (guardName depth)) = (.unknownName, session) := by
  have hfree : session.guards.lookup (guardName depth) = none := h depth (Nat.le_refl depth)
  simp only [Session.perform, Session.release, hfree]

end

theorem Session.Unguarded.mono {session : Session} {depth depth' : Nat}
    (h : session.Unguarded depth) (hle : depth ≤ depth') : session.Unguarded depth' :=
  fun n hn => h n (Nat.le_trans hle hn)

/-- A reading leaves the names free that it found free. -/
theorem Session.Unguarded.read {session : Session} {depth : Nat} (h : session.Unguarded depth)
    (parent : UInt64) (block : Block) : (block.read parent session).session.Unguarded depth := by
  rw [← read_session_eq]
  exact h

/-- What is read of a body is what it does in a context of its own, if that is so of the body. -/
theorem body_eq {depth : Nat} {body : List Block} (session : Session) (context : Context)
    (h : runAll (Block.stepsAll depth body) (session.placed context session.guards)
      = let reading := Block.readAll context.current body (session.placed context session.guards)
        (reading.outcomes, reading.session)) :
    (runAll (Block.stepsAll depth body) { session with context }).1
        = (Block.readAll context.current body session).outcomes
      ∧ { (runAll (Block.stepsAll depth body) { session with context }).2 with
          context := session.context } = (Block.readAll context.current body session).session := by
  have hrun : runAll (Block.stepsAll depth body) { session with context }
      = ((Block.readAll context.current body session).outcomes,
        (Block.readAll context.current body session).session.placed context session.guards) := by
    rw [readAll_placed] at h
    exact h
  rw [hrun]
  exact ⟨rfl, readAll_session_eq context.current body session⟩

mutual

/-- **What a block does is what is read.** -/
theorem runAll_steps {session : Session} {depth : Nat} (h : session.Unguarded depth)
    (block : Block) :
    runAll (block.steps depth) session
      = let reading := block.read session.context.current session
        (reading.outcomes, reading.session) := by
  cases block with
  | start name given =>
    simp only [Block.steps, Block.read, runAll, run, Session.perform, startActivity_current]
  | look =>
    simp only [Block.steps, Block.read, runAll, run_current]
  | push ref body =>
    simp only [Block.steps, Block.read, runAll]
    cases hid : session.id? ref with
    | none =>
      -- There is nothing to push, and so no guard to release after the body.
      have hpush : session.perform (.push (guardName depth) ref) = (.unknownName, session) := by
        simp only [Session.perform, hid]
      have hafter : (Block.readAll session.context.current body session).session.Unguarded depth := by
        rw [← readAll_session_eq]
        exact h
      rw [run_command hpush rfl, runAll_append, runAll_stepsAll (h.mono (Nat.le_succ depth)) body]
      simp only [runAll, run_command (perform_release_none hafter) rfl]
    | some id =>
      -- The body finds the guard of this block in the table, and leaves it there.
      have hbody := runAll_stepsAll (h.placed (session.context.set id)) body
      have hcurrent : (session.placed (session.context.set id) (session.guarded depth)).context.current
          = id := Context.current_set _ _
      rw [hcurrent, readAll_placed] at hbody
      have hrelease := perform_release h id (Block.readAll id body session).session
      rw [readAll_session_eq] at hrelease
      rw [run_command (perform_push h hid) rfl, runAll_append, hbody]
      simp only [runAll, Reading.placed, run_command hrelease rfl]
  | scope ref body =>
    simp only [Block.steps, Block.read, runAll]
    cases hid : session.id? ref with
    | none => simp only [run, hid]
    | some id =>
      have hinside : (session.placed (session.context.enter id) session.guards).Unguarded depth := h
      obtain ⟨houtcomes, hafter⟩ := body_eq session _ (runAll_stepsAll hinside body)
      simp only [run_scope hid, houtcomes, hafter, Context.current_enter]
  | future ref body =>
    simp only [Block.steps, Block.read, runAll]
    cases hid : session.id? ref with
    | none => simp only [run, hid]
    | some id =>
      have hinside : (session.placed (session.context.enter id) session.guards).Unguarded depth := h
      obtain ⟨houtcomes, hafter⟩ := body_eq session _ (runAll_stepsAll hinside body)
      have hlength := length_runAll (Block.stepsAll depth body)
        { session with context := session.context.enter id }
      rw [houtcomes] at hlength
      rw [Context.current_enter] at hlength hafter houtcomes
      simp only [run_future hid, houtcomes, hafter, hlength]
  | thread body =>
    have hinside : (session.placed {} session.guards).Unguarded depth := h
    obtain ⟨houtcomes, hafter⟩ := body_eq session _ (runAll_stepsAll hinside body)
    simp only [Block.steps, Block.read, runAll, run, houtcomes, hafter]
    rfl

/-- Blocks in a row run as they are read, one after the other. -/
theorem runAll_stepsAll {session : Session} {depth : Nat} (h : session.Unguarded depth)
    (blocks : List Block) :
    runAll (Block.stepsAll depth blocks) session
      = let reading := Block.readAll session.context.current blocks session
        (reading.outcomes, reading.session) := by
  cases blocks with
  | nil => simp only [Block.stepsAll, Block.readAll, runAll]
  | cons block blocks =>
    have hothers := runAll_stepsAll (h.read session.context.current block) blocks
    have hcurrent : (block.read session.context.current session).session.context = session.context :=
      (congrArg Session.context (read_session_eq session.context.current block session)).symm
    rw [hcurrent] at hothers
    simp only [Block.stepsAll, Block.readAll, runAll_append, runAll_steps h block, hothers]

end

/-! ## Reports -/

/-- The start that a handle reports. -/
def Entry.start? : Entry → Option Call
  | .call .handle _ (.start id level kind text fields parent) _ =>
    some (.start id level kind text fields parent)
  | _ => none

theorem Entry.IsPassedOn.start? {entry : Entry} {sink : Sink} (h : entry.IsPassedOn sink) :
    Entry.start? entry = none := by
  cases h with
  | @line issuer behind text result behinds => cases issuer <;> rfl
  | text output text => rfl
  | note note => rfl

/-- From one book to the next, handles report these starts, in this order. -/
def Reports (before after : Logbook) (calls : List Call) : Prop :=
  ∃ added, after.entries = before.entries ++ added ∧ added.filterMap Entry.start? = calls

theorem reports_nothing (book : Logbook) : Reports book book [] := ⟨[], by simp, rfl⟩

theorem Reports.trans {a b c : Logbook} {calls more : List Call} (h : Reports a b calls)
    (h' : Reports b c more) : Reports a c (calls ++ more) := by
  obtain ⟨added, hentries, hcalls⟩ := h
  obtain ⟨others, hothers, hmore⟩ := h'
  refine ⟨added ++ others, ?_, ?_⟩
  · rw [hothers, hentries, List.append_assoc]
  · rw [List.filterMap_append, hcalls, hmore]

/-- A start is told once, under the next number and below its parent. -/
theorem reports_start (sink : Sink) (level : Level) (kind : ActivityKind) (text : String)
    (fields : List Field) (parent : UInt64) (book : Logbook) :
    Reports book (Activity.start sink level kind text fields parent book).2
      [.start book.nextId.1 level kind text fields parent] := by
  obtain ⟨added, hentries, htold⟩ := told_emit .handle sink
    (.start book.nextId.1 level kind text fields parent) book.nextId.2
  rw [Logbook.nextId_entries] at hentries
  have hstart : added.filterMap Entry.start?
      = [.start book.nextId.1 level kind text fields parent] :=
    htold.filterMap fun _ hpassed => Entry.IsPassedOn.start? hpassed
  simp only [Activity.start]
  split
  next failure after hemit =>
    rw [hemit] at hentries
    exact ⟨added, hentries, hstart⟩
  next after hemit =>
    rw [hemit] at hentries
    refine ⟨added ++ [.note (.activityStarted book.nextId.1 parent kind)], ?_, ?_⟩
    · rw [Logbook.addNote_entries, hentries, List.append_assoc]
    · rw [List.filterMap_append, hstart]
      rfl

theorem reports_stop (activity : Activity) (book : Logbook) :
    Reports book (activity.stop book) [] := by
  obtain ⟨added, result, hentries, htold⟩ := told_stop activity book
  exact ⟨added, hentries, htold.filterMap fun _ hpassed => Entry.IsPassedOn.start? hpassed⟩

theorem reports_startActivity (session : Session) (name : String) (given : Start)
    (parent : UInt64) :
    Reports session.book
      (session.startActivity name { given with parent := some (.id parent) }).2.book
      (session.startReports given parent) := by
  simp only [Session.startReports, Session.startActivity, planOf_under]
  cases session.sink? given.sink with
  | none => exact reports_nothing session.book
  | some sink =>
    have hstart := reports_start sink given.level given.kind given.text given.fields parent
      session.book
    simp only [Option.map_some, Activity.ofPlan, Option.getD_some]
    split
    next failure book hfailed =>
      rw [hfailed] at hstart
      exact hstart
    next activity book hstarted =>
      rw [hstarted] at hstart
      -- An activity that had the name so far is stopped, and that is no start.
      cases session.activities.lookup name with
      | none => exact hstart
      | some old => exact hstart.trans (reports_stop old book)

mutual

/-- What a block reports to the sinks is what was read off from it. -/
theorem reports_read (parent : UInt64) (block : Block) (session : Session) :
    Reports session.book (block.read parent session).session.book
      (block.read parent session).reports := by
  cases block with
  | start name given =>
    simp only [Block.read]
    exact reports_startActivity session name given parent
  | look =>
    simp only [Block.read]
    exact reports_nothing session.book
  | push ref body =>
    simp only [Block.read]
    cases session.id? ref with
    | none => exact reports_readAll parent body session
    | some id => exact reports_readAll id body session
  | scope ref body =>
    simp only [Block.read]
    cases session.id? ref with
    | none => exact reports_nothing session.book
    | some id => exact reports_readAll id body session
  | future ref body =>
    simp only [Block.read]
    cases session.id? ref with
    | none => exact reports_nothing session.book
    | some id => exact reports_readAll id body session
  | thread body =>
    simp only [Block.read]
    exact reports_readAll 0 body session

theorem reports_readAll (parent : UInt64) (blocks : List Block) (session : Session) :
    Reports session.book (Block.readAll parent blocks session).session.book
      (Block.readAll parent blocks session).reports := by
  cases blocks with
  | nil =>
    simp only [Block.readAll]
    exact reports_nothing session.book
  | cons block blocks =>
    simp only [Block.readAll]
    exact (reports_read parent block session).trans (reports_readAll parent blocks _)

end

/--
**What is current follows the blocks.**

A program starts activities without saying which parents they have, and makes others current only
for the extent of blocks, which may nest in any way: it holds guards, opens scopes, and runs futures
and other threads. All that it does is what is read off its text: the parent of an activity that is
started is the activity of the innermost block around it that stands for one, not further out than
the innermost thread; and if there is none, it is `0` on another thread, and otherwise what was current
at the beginning. It is reported with this parent. Whoever looks at what is current finds the same,
also after a block has ended, and at each suspension of a future around it.
-/
theorem nested {session : Session} {depth : Nat} (h : session.Unguarded depth)
    (blocks : List Block) :
    let reading := Block.readAll session.context.current blocks session
    runAll (Block.stepsAll depth blocks) session = (reading.outcomes, reading.session)
      ∧ reading.session.context = session.context
      ∧ Reports session.book reading.session.book reading.reports :=
  ⟨runAll_stepsAll h blocks,
    (congrArg Session.context (readAll_session_eq session.context.current blocks session)).symm,
    reports_readAll session.context.current blocks session⟩

/-- A build that fetches something in a future, which runs a thread and holds a guard. -/
def fetchingBuild : List Block :=
  [.start "build" { kind := .build },
    .push (.activity "build") [.start "fetch" { kind := .fileTransfer },
      .future (.activity "fetch") [.thread [.start "stray" { kind := .copyPath }],
        .push (.id 7) [.start "check" { kind := .copyPath }], .look]],
    .start "next" { kind := .build }]

theorem nested_fetchingBuild :
    let after := (runAll (Block.stepsAll 0 fetchingBuild) {}).2
    after.context.current = 0
      ∧ Reports {} after.book
        [.start 0x100000000 .normal .build "" [] 0,
          .start 0x100000001 .normal .fileTransfer "" [] 0x100000000,
          .start 0x100000002 .normal .copyPath "" [] 0,
          .start 0x100000003 .normal .copyPath "" [] 7,
          .start 0x100000004 .normal .build "" [] 0] := by
  have hunguarded : Session.Unguarded 0 {} := fun _ _ => rfl
  obtain ⟨hrun, hcontext, hreports⟩ := nested hunguarded fetchingBuild
  rw [hrun]
  refine ⟨by rw [hcontext]; rfl, ?_⟩
  have hcalls : (Block.readAll 0 fetchingBuild {}).reports
      = [.start 0x100000000 .normal .build "" [] 0,
          .start 0x100000001 .normal .fileTransfer "" [] 0x100000000,
          .start 0x100000002 .normal .copyPath "" [] 0,
          .start 0x100000003 .normal .copyPath "" [] 7,
          .start 0x100000004 .normal .build "" [] 0] := by
    decide +kernel
  rw [← hcalls]
  exact hreports

end Worklog.Script
