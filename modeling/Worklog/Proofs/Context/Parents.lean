import Worklog.Proofs.Context.Known
import Worklog.Proofs.Lifecycle.Run

/-!
# Parents come before their children

Threads take turns, and futures are suspended and taken up again on any thread: at each moment there
is the context in which commands are given, the contexts of the other threads, and what is current in
the futures that are suspended. Guards are released wherever one likes, and channels are told any
lines. As long as the program itself gives no other numbers than those of activities that have
started, no activity starts under another parent.

* `Shift` — what can happen in such a program.
* `becomes_runAll` — what a script does is done by shifts.
* `parents_first` — whatever happens, parents come first.
-/

namespace Worklog.Script

open Logbook

/-! ## Programs with many threads -/

structure Program where
  session : Session
  /-- The contexts of the threads that wait. -/
  parked : List Context := []
  /-- What is current in the futures that are suspended. -/
  suspended : List UInt64 := []

namespace Program

/-- What can happen next. Numbers that are given must be known. -/
inductive Shift (now : Program) : Program → Prop where
  | command {command : Command} (heeds : command.heeds now.session = true) :
      Shift now { now with session := (now.session.perform command).2 }
  /-- A scope is opened. -/
  | enter {id : UInt64} (known : Known now.session.book.entries id) :
      Shift now
        { now with session := { now.session with context := now.session.context.enter id } }
  /-- The innermost scope is closed. -/
  | leave :
      Shift now { now with session := { now.session with context := now.session.context.leave } }
  /-- A thread starts. -/
  | spawn :
      Shift now { now with
        session := { now.session with context := {} }
        parked := now.session.context :: now.parked }
  /-- Another thread goes on. -/
  | switch {context : Context} (waits : context ∈ now.parked) :
      Shift now { now with
        session := { now.session with context }
        parked := now.session.context :: now.parked.erase context }
  /-- A thread ends, and another one goes on. -/
  | finish {context : Context} (waits : context ∈ now.parked) :
      Shift now { now with
        session := { now.session with context }
        parked := now.parked.erase context }
  /-- A future is made. It has not begun. -/
  | prepare {id : UInt64} (known : Known now.session.book.entries id) :
      Shift now { now with suspended := id :: now.suspended }
  /-- A future goes on, in its own scope. -/
  | resume {id : UInt64} (waits : id ∈ now.suspended) :
      Shift now { now with
        session := { now.session with context := now.session.context.enter id }
        suspended := now.suspended.erase id }
  /-- A future is suspended. -/
  | suspend :
      Shift now { now with
        session := { now.session with context := now.session.context.leave }
        suspended := now.session.context.current :: now.suspended }
  /-- A future that is suspended, is given up or has ended. -/
  | abandon {id : UInt64} (waits : id ∈ now.suspended) :
      Shift now { now with suspended := now.suspended.erase id }

/-- One comes to the other, by any shifts. -/
abbrev Becomes : Program → Program → Prop := Relation.ReflTransGen Shift

/-- Everywhere in the program that parents are taken from, the numbers are known, and they were known
for all activities that have started. -/
structure Rooted (program : Program) : Prop where
  session : program.session.Grounded
  parked : ∀ context ∈ program.parked, ∀ cell ∈ context.cells,
    Known program.session.book.entries cell
  suspended : ∀ id ∈ program.suspended, Known program.session.book.entries id
  parents : ParentsFirst program.session.book.entries

variable {now later : Program}

/-- Only contexts change. -/
theorem Rooted.withContext (h : now.Rooted) {context : Context} {parked : List Context}
    {suspended : List UInt64}
    (hcontext : ∀ cell ∈ context.cells, Known now.session.book.entries cell)
    (hparked : ∀ context ∈ parked, ∀ cell ∈ context.cells, Known now.session.book.entries cell)
    (hsuspended : ∀ id ∈ suspended, Known now.session.book.entries id) :
    Rooted ⟨{ now.session with context }, parked, suspended⟩ :=
  ⟨(h.session.rears_self.context hcontext).grounded, hparked, hsuspended, h.parents⟩

/-- **Whatever happens next, all numbers stay known.** -/
theorem Rooted.shift (h : now.Rooted) (hshift : Shift now later) : later.Rooted := by
  cases hshift with
  | @command command heeds =>
    obtain ⟨hbook, hgrounded⟩ := h.session.rears_perform heeds
    refine ⟨hgrounded, ?_, ?_, ?_⟩
    · exact fun context hcontext cell hcell => hbook.known (h.parked context hcontext cell hcell)
    · exact fun id hid => hbook.known (h.suspended id hid)
    · obtain ⟨added, hentries, hadded⟩ := hbook
      show ParentsFirst (now.session.perform command).2.book.entries
      rw [hentries]
      exact h.parents.append hadded
  | enter known =>
    exact h.withContext (Context.forall_cells_enter h.session.context known) h.parked h.suspended
  | leave =>
    exact h.withContext (Context.forall_cells_leave h.session.context) h.parked h.suspended
  | spawn =>
    refine h.withContext ?_ (List.forall_mem_cons.mpr ⟨h.session.context, h.parked⟩) h.suspended
    intro cell hcell
    rw [List.mem_singleton.mp hcell]
    exact known_zero _
  | switch waits =>
    -- The context that is left joins those that wait, and the other one leaves them.
    refine h.withContext (h.parked _ waits) (List.forall_mem_cons.mpr ⟨h.session.context, ?_⟩)
      h.suspended
    exact fun context hcontext => h.parked context (List.mem_of_mem_erase hcontext)
  | finish waits =>
    exact h.withContext (h.parked _ waits)
      (fun context hcontext => h.parked context (List.mem_of_mem_erase hcontext)) h.suspended
  | prepare known =>
    exact ⟨h.session, h.parked, List.forall_mem_cons.mpr ⟨known, h.suspended⟩, h.parents⟩
  | resume waits =>
    exact h.withContext (Context.forall_cells_enter h.session.context (h.suspended _ waits))
      h.parked fun id hid => h.suspended id (List.mem_of_mem_erase hid)
  | suspend =>
    refine h.withContext (Context.forall_cells_leave h.session.context) h.parked ?_
    exact List.forall_mem_cons.mpr
      ⟨h.session.context _ (Context.current_mem_cells _), h.suspended⟩
  | abandon waits =>
    exact ⟨h.session, h.parked, fun id hid => h.suspended id (List.mem_of_mem_erase hid),
      h.parents⟩

theorem Rooted.becomes (h : now.Rooted) (hbecomes : Becomes now later) : later.Rooted := by
  induction hbecomes with
  | refl => exact h
  | tail _ hshift ih => exact ih.shift hshift

end Program

/-! ## Scripts -/

mutual

/-- A step gives known numbers only. -/
def Step.heeds : Step → Session → Bool
  | .command command, session => command.heeds session
  | .scope ref steps, session =>
    ref.isKnown session.book.entries && match session.id? ref with
      | none => true
      | some id => heedsAll steps { session with context := session.context.enter id }
  | .thread steps, session => heedsAll steps { session with context := {} }
  | .future ref steps, session =>
    ref.isKnown session.book.entries && match session.id? ref with
      | none => true
      | some id => heedsDrive steps id session

/-- Steps that are taken one after the other. -/
def heedsAll : List Step → Session → Bool
  | [], _ => true
  | step :: steps, session => step.heeds session && heedsAll steps (run step session).2

/-- The steps of a future. -/
def heedsDrive : List Step → UInt64 → Session → Bool
  | [], _, _ => true
  | step :: steps, id, session =>
    let inside := (run step { session with context := session.context.enter id }).2
    step.heeds { session with context := session.context.enter id }
      && heedsDrive steps inside.context.current
        { inside with context := inside.context.leave }

end

open Program

mutual

/-- **What a step does is done by shifts.** -/
theorem becomes_run {session : Session} {parked : List Context} {suspended : List UInt64}
    (step : Step) (h : Rooted ⟨session, parked, suspended⟩)
    (hheeds : step.heeds session = true) :
    Becomes ⟨session, parked, suspended⟩ ⟨(run step session).2, parked, suspended⟩ := by
  cases step with
  | command command => exact .single (.command hheeds)
  | scope ref steps =>
    simp only [Step.heeds, Bool.and_eq_true] at hheeds
    obtain ⟨hgiven, hsteps⟩ := hheeds
    simp only [run]
    split
    next => exact .refl
    next id hid =>
      simp only [hid] at hsteps
      have henter : Becomes ⟨session, parked, suspended⟩
          ⟨{ session with context := session.context.enter id }, parked, suspended⟩ :=
        .single (.enter (h.session.id_known hgiven hid))
      have hinside := becomes_runAll steps (h.becomes henter) hsteps
      exact (henter.trans hinside).tail .leave
  | thread steps =>
    simp only [Step.heeds] at hheeds
    simp only [run]
    have hspawn : Becomes ⟨session, parked, suspended⟩
        ⟨{ session with context := {} }, session.context :: parked, suspended⟩ := .single .spawn
    have hinside := becomes_runAll steps (h.becomes hspawn) hheeds
    have hwaits : session.context ∈ session.context :: parked := List.mem_cons_self
    have hfinish := (hspawn.trans hinside).tail (.finish hwaits)
    rwa [List.erase_cons_head] at hfinish
  | future ref steps =>
    simp only [Step.heeds, Bool.and_eq_true] at hheeds
    obtain ⟨hgiven, hsteps⟩ := hheeds
    simp only [run]
    split
    next => exact .refl
    next id hid =>
      simp only [hid] at hsteps
      have hprepare : Becomes ⟨session, parked, suspended⟩ ⟨session, parked, id :: suspended⟩ :=
        .single (.prepare (h.session.id_known hgiven hid))
      -- The future ends suspended with some id, which is then given up.
      obtain ⟨last, hdrive⟩ := becomes_drive steps (h.becomes hprepare) hsteps
      have hwaits : last ∈ last :: suspended := List.mem_cons_self
      have habandon := (hprepare.trans hdrive).tail (.abandon hwaits)
      rwa [List.erase_cons_head] at habandon

theorem becomes_runAll {session : Session} {parked : List Context} {suspended : List UInt64}
    (steps : List Step) (h : Rooted ⟨session, parked, suspended⟩)
    (hheeds : heedsAll steps session = true) :
    Becomes ⟨session, parked, suspended⟩ ⟨(runAll steps session).2, parked, suspended⟩ := by
  cases steps with
  | nil => exact .refl
  | cons step steps =>
    simp only [heedsAll, Bool.and_eq_true] at hheeds
    have hfirst := becomes_run step h hheeds.1
    exact hfirst.trans (becomes_runAll steps (h.becomes hfirst) hheeds.2)

/-- What is current in the future is kept while it is suspended. -/
theorem becomes_drive {session : Session} {parked : List Context} {suspended : List UInt64}
    {id : UInt64} (steps : List Step) (h : Rooted ⟨session, parked, id :: suspended⟩)
    (hheeds : heedsDrive steps id session = true) :
    ∃ last, Becomes ⟨session, parked, id :: suspended⟩
      ⟨(drive steps id session).2.2, parked, last :: suspended⟩ := by
  cases steps with
  | nil => exact ⟨id, .refl⟩
  | cons step steps =>
    simp only [heedsDrive, Bool.and_eq_true] at hheeds
    have hresume : Becomes ⟨session, parked, id :: suspended⟩
        ⟨{ session with context := session.context.enter id }, parked, suspended⟩ := by
      have hwaits : id ∈ (⟨session, parked, id :: suspended⟩ : Program).suspended :=
        List.mem_cons_self
      have hshift := Shift.resume hwaits
      rw [List.erase_cons_head] at hshift
      exact .single hshift
    have hstep := hresume.trans (becomes_run step (h.becomes hresume) hheeds.1)
    have hsuspend := hstep.tail .suspend
    obtain ⟨last, hothers⟩ := becomes_drive steps (h.becomes hsuspend) hheeds.2
    exact ⟨last, hsuspend.trans hothers⟩

end

/-- Nothing has happened yet, and nothing is current. -/
structure Session.Untouched (session : Session) : Prop extends session.Fresh where
  context : session.context = {}
  guards : session.guards = []

theorem Session.Untouched.rooted {start : Session} (h : start.Untouched) :
    Rooted ⟨start, [], []⟩ := by
  refine ⟨⟨?_, ?_, ?_, ?_⟩, by simp, by simp, ?_⟩
  · rw [h.context]
    intro cell hcell
    rw [List.mem_singleton.mp hcell]
    exact known_zero _
  · rw [h.guards]
    simp
  · rw [h.activities]
    simp
  · rw [h.channels]
    simp
  · show ParentsFirst start.book.entries
    rw [h.entries]
    exact parentsFirst_nil

/--
**Parents come before their children.**

A program starts with nothing. Its threads take turns in any way, and so do its futures; scopes are
opened and closed, guards are made and released in any order and in any context, sinks refuse what
they like, and channels are told any lines, trusted or not, whatever parents these name. As long as
the numbers that the program gives are `0` or those of activities that have started, each start that
is made through a handle, also by a channel, names as its parent `0` or an activity whose start was
taken before. In particular this holds of every script.
-/
theorem parents_first {start : Session} (hstart : start.Untouched) :
    (∀ now, Becomes ⟨start, [], []⟩ now → ParentsFirst now.session.book.entries)
      ∧ ∀ steps, heedsAll steps start = true →
        Becomes ⟨start, [], []⟩ ⟨(runAll steps start).2, [], []⟩
          ∧ ParentsFirst (runAll steps start).2.book.entries := by
  have hreached : ∀ now, Becomes ⟨start, [], []⟩ now → ParentsFirst now.session.book.entries :=
    fun now hnow => (hstart.rooted.becomes hnow).parents
  refine ⟨hreached, fun steps hheeds => ?_⟩
  have hrun := becomes_runAll steps hstart.rooted hheeds
  exact ⟨hrun, hreached _ hrun⟩

/-- A guard is released on another thread, and a program that is not trusted names a parent of its
own. -/
def family : List Step :=
  [.command (.makeSink "first" (.recorder fun count _ => count = 2)), .command (.install "first"),
    .command (.start "build" { kind := .build }), .command (.push "outer" (.activity "build")),
    .thread [.command (.setCurrent (.id 0x100000000)), .command (.start "copy" { kind := .copyPath }),
      .command (.start "refused" { kind := .copyPath }), .command (.release "outer"),
      .command (.start "apart" { kind := .copyPath })],
    .future (.activity "copy") [.command (.openPinned "peer" (.activity "copy") none),
      .command (.line "peer" (Wire.Record.start 7 .info .fileTransfer "fetch" 99 []).line "peer" false)],
    .command (.start "last" { kind := .build })]

theorem parents_first_family :
    ParentsFirst (runAll family {}).2.book.entries
      ∧ (runAll family {}).2.book.entries.filterMap Entry.parent?
        = [0, 0x100000000, 0x100000000, 0, 0x100000001, 0x100000000] := by
  have hstart : Session.Untouched {} := ⟨⟨rfl, rfl, rfl⟩, rfl, rfl⟩
  have hheeds : heedsAll family {} = true := by decide +kernel
  exact ⟨((parents_first hstart).2 family hheeds).2, by decide +kernel⟩

end Worklog.Script
