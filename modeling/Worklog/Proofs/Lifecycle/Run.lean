import Mathlib.Logic.Relation
import Worklog.Proofs.Lifecycle.Session
import Worklog.Script.Run

/-!
# The lives of activities

Whatever a program does, it does by commands, while contexts change. So what holds of every command
holds at every moment.

* `reaches_runAll` — what a script does is done by commands.
* `lifecycle` — at every moment all activities have lives, and stops come when handles go away.
-/

namespace Worklog.Script

open Logbook

/-! ## Runs -/

/-- What can become of a session at once: it takes a command, or another context is current. -/
inductive Move : Session → Session → Prop where
  | command (session : Session) (command : Command) : Move session (session.perform command).2
  | context (session : Session) (context : Context) : Move session { session with context }

/-- A session comes to be this one, by commands and with changing contexts. -/
abbrev Reaches : Session → Session → Prop := Relation.ReflTransGen Move

theorem reaches_context (session : Session) (context : Context) :
    Reaches session { session with context } := .single (.context session context)

mutual

/-- **What a step does is done by commands.** -/
theorem reaches_run (step : Step) (session : Session) : Reaches session (run step session).2 := by
  cases step with
  | command command => exact .single (.command session command)
  | scope ref steps =>
    simp only [run]
    split
    next => exact .refl
    next id hid =>
      exact ((reaches_context session _).trans (reaches_runAll steps _)).tail (.context _ _)
  | thread steps =>
    simp only [run]
    exact ((reaches_context session _).trans (reaches_runAll steps _)).tail (.context _ _)
  | future ref steps =>
    simp only [run]
    split
    next => exact .refl
    next id hid => exact reaches_drive steps id session

/-- The end of a block is reached from its beginning. -/
theorem reaches_runAll (steps : List Step) (session : Session) :
    Reaches session (runAll steps session).2 := by
  cases steps with
  | nil => exact .refl
  | cons step steps => exact (reaches_run step session).trans (reaches_runAll steps _)

theorem reaches_drive (steps : List Step) (id : UInt64) (session : Session) :
    Reaches session (drive steps id session).2.2 := by
  cases steps with
  | nil => exact .refl
  | cons step steps =>
    have hinside := (reaches_context session (session.context.enter id)).trans
      (reaches_run step _)
    exact (hinside.tail (.context _ _)).trans (reaches_drive steps _ _)

end

/-- No two starts that handles made have the same number. -/
def NumbersOnce (book : Logbook) : Prop := (startedIn (didIn book.entries)).Nodup

/-- A session in which nothing has happened yet. -/
structure Session.Fresh (session : Session) : Prop where
  activities : session.activities = []
  channels : session.channels = []
  entries : session.book.entries = []

theorem Session.Fresh.tidy {start : Session} (h : start.Fresh) : start.Tidy := by
  refine ⟨?_, ?_, ?_⟩
  · rw [h.activities]
    exact List.nodup_nil
  · rw [h.channels]
    exact List.nodup_nil
  · rw [h.channels]
    simp

theorem Session.Fresh.handles_eq {start : Session} (h : start.Fresh) : start.handles = 0 := by
  rw [Session.handles, h.activities, h.channels]
  rfl

/-- Whatever moves the program makes, its handles are accounted for. -/
theorem goes_move {now later : Session} (h : now.Tidy) (hmove : Move now later) :
    Session.Goes now later := by
  cases hmove with
  | command command => exact Session.goes_perform h command
  | context context => exact h.goes_of_quiet rfl rfl fun held => leads_refl held _

/-- **From a tidy session on, the handles are accounted for at every moment that is reached.** -/
theorem goes_reached {start now : Session} (h : start.Tidy) (hreached : Reaches start now) :
    Session.Goes start now := by
  induction hreached with
  | refl => exact h.goes_self
  | tail hreached hmove ih =>
    have hgoes := goes_move ih.tidy hmove
    exact ⟨ih.leads.trans hgoes.leads, hgoes.tidy⟩

/-- **All activities have lives.** -/
theorem lives_reached {start now : Session} (hstart : start.Fresh) (hreached : Reaches start now)
    (honce : NumbersOnce now.book) : Lives now.handles (didIn now.book.entries) := by
  obtain ⟨added, hentries, hacts⟩ := (goes_reached hstart.tidy hreached).leads
  rw [hstart.entries, List.nil_append] at hentries
  rw [hstart.handles_eq] at hacts
  rw [NumbersOnce, hentries] at honce
  rw [hentries]
  exact lives_acts lives_nothing hacts honce

/--
**Every activity that starts is stopped once, when its handle goes away.**

A program starts with no activities and no channels, and takes any steps; its sinks may refuse any
call. Then at every moment, as long as no number has been given out twice, each activity has one of
four lives, as seen from all calls that are made through handles: no start was made under its number;
or one start was made, which failed, and nothing else; or one start was made and taken, then updates
were given to the same sink, and its one handle is still there; or the handle is gone, and the last
call was the stop, on that sink again.

Whatever happens next, handles come and go with their calls, one at a time: among the calls is the
stop of an activity iff its handle, which was there before or came meanwhile, has gone. And a command
that lets go of a handle stops its activity.
-/
theorem lifecycle {start : Session} (hstart : start.Fresh) :
    (∀ steps, Reaches start (runAll steps start).2)
      ∧ ∀ now, Reaches start now → NumbersOnce now.book →
        Lives now.handles (didIn now.book.entries)
          ∧ (∀ later, Move now later → NumbersOnce later.book →
            ∃ added, later.book.entries = now.book.entries ++ added
              ∧ Acts now.handles (didIn added) later.handles
              ∧ ∀ activity, (activity, .stop) ∈ didIn added ↔
                (activity ∈ now.handles ∨ (activity, .start (.ok ())) ∈ didIn added)
                  ∧ activity ∉ later.handles)
          ∧ ∀ command activity, now.LetsGo command activity →
            Stops activity now.book (now.perform command).2.book := by
  refine ⟨fun steps => reaches_runAll steps start, fun now hnow honce => ?_⟩
  have hlives := lives_reached hstart hnow honce
  refine ⟨hlives, fun later hmove honce' => ?_, fun _ _ hgo => Session.stops_of_letsGo hgo⟩
  obtain ⟨added, hentries, hacts⟩ := (goes_move (goes_reached hstart.tidy hnow).tidy hmove).leads
  have hlives' := lives_reached hstart (hnow.tail hmove) honce'
  rw [hentries, didIn_append] at hlives'
  exact ⟨added, hentries, hacts, fun activity => hlives.stopped_iff hlives'⟩

/-- A build on a sink that takes no stops. Another sink becomes active, which takes nothing, and a
copy is tried on that. -/
def overtaken : List Step :=
  [.command (.makeSink "first" (.foreign true fun _ call =>
      if call.isStop then .error (.reported "too late") else .ok ())),
    .command (.makeSink "second" (.recorder fun _ _ => true)),
    .command (.install "first"), .command (.start "build" { kind := .build }),
    .thread [.command (.install "second")], .command (.start "copy" { kind := .copyPath }),
    .scope (.activity "build") [.command (.update "build" .setPhase [.text "check"])]]

/-- When it is given up, the build is stopped. -/
theorem lifecycle_overtaken :
    let now := (runAll overtaken {}).2
    let later := (now.perform (.unwind "build")).2
    ∃ activity added, now.handles = {activity} ∧ later.handles = 0
      ∧ later.book.entries = now.book.entries ++ added ∧ (activity, .stop) ∈ didIn added := by
  intro now later
  have hfresh : Session.Fresh {} := ⟨rfl, rfl, rfl⟩
  obtain ⟨hreached, hlives⟩ := lifecycle hfresh
  have honce : startedIn (didIn now.book.entries) = [4294967296, 4294967297] := by decide +kernel
  have honce' : startedIn (didIn later.book.entries) = [4294967296, 4294967297] := by
    decide +kernel
  have hone : now.handles.card = 1 := by decide +kernel
  have hnone : later.handles.card = 0 := by decide +kernel
  obtain ⟨-, hmoment, -⟩ := hlives now (hreached overtaken) (by rw [NumbersOnce, honce]; decide)
  obtain ⟨added, hentries, -, hstopped⟩ := hmoment later (.command now (.unwind "build"))
    (by rw [NumbersOnce, honce']; decide)
  obtain ⟨activity, hheld⟩ := Multiset.card_eq_one.mp hone
  have hgone := Multiset.card_eq_zero.mp hnone
  refine ⟨activity, added, hheld, hgone, hentries, (hstopped activity).mpr ⟨.inl ?_, ?_⟩⟩
  · rw [hheld]
    exact Multiset.mem_singleton_self activity
  · rw [hgone]
    exact Multiset.notMem_zero activity

end Worklog.Script
