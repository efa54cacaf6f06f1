import Worklog.Proofs.Channel.Numbers
import Worklog.Proofs.Lifecycle.Run

/-!
# The numbers of a process

The numbers that a process gives out follow one after the other, whatever it does: they are those of
its starts, also of starts that fail, and those that are asked for.

* `draws_perform` — the numbers of all starts that a command leads to.
* `numbers_of_run` — the numbers that are given out in a run.
* `number_comes_again` — one more than 2³² numbers.
-/

namespace Worklog

open Logbook

/-! ## Commands -/

namespace Script

namespace Session

theorem draws_call (session : Session) (sink : Option String) (call : Option Call) :
    Draws session.book (session.call sink call).2.book := by
  simp only [Session.call]
  split
  next sink said hsink => exact Logbook.draws_emit .user sink said session.book fun _ => rfl
  next => exact draws_refl session.book

theorem draws_startActivity (session : Session) (name : String) (start : Start) :
    Draws session.book (session.startActivity name start).2.book := by
  simp only [startActivity, Activity.ofPlan]
  split
  next => exact draws_refl session.book
  next plan hplan =>
    have hstart := Activity.draws_start (plan.sink.getD session.book.active) plan.level plan.kind
      plan.text plan.fields (plan.parent.getD session.context.current) session.book
    split
    next failure book hfailed =>
      rw [hfailed] at hstart
      exact hstart
    next activity book htaken =>
      rw [htaken] at hstart
      split
      next => exact hstart
      next old hold => exact hstart.trans (old.draws_stop book)

theorem draws_stopActivity (session : Session) (name : String) (answer : Answer) :
    Draws session.book (session.stopActivity name answer).2.book := by
  simp only [stopActivity]
  split
  next => exact draws_refl session.book
  next activity hfind => exact activity.draws_stop session.book

theorem draws_feedLines (channel : Channel) (source : String) (trusted : Bool)
    (lines : List String) (book : Logbook) :
    Draws book (feedLines channel source trusted lines book).2.2 := by
  induction lines generalizing channel book with
  | nil => exact draws_refl book
  | cons line lines ih =>
    exact (channel.draws_handleLine line source trusted book).trans (ih _ _)

/-- **Of the numbers that a command gives out, each is that of a start**, unless one is asked for. -/
theorem draws_perform (session : Session) {command : Command} (hasks : command ≠ .nextId) :
    Draws session.book (session.perform command).2.book := by
  cases command with
  | nextId => exact (hasks rfl).elim
  | start name start => exact session.draws_startActivity name start
  | stop name => exact session.draws_stopActivity name _
  | unwind name => exact session.draws_stopActivity name _
  | call sink said => exact session.draws_call sink _
  | startCall sink id level kind text fields parent => exact session.draws_call sink _
  | stopCall sink id => exact session.draws_call sink _
  | updateCall sink id kind fields => exact session.draws_call sink _
  | update name kind fields =>
    simp only [perform, updateActivity]
    split
    next => exact draws_refl session.book
    next activity hfind => exact activity.draws_update kind fields session.book
  | print style text =>
    simp only [perform, Logbook.print]
    split
    next => exact Logbook.draws_emit .user _ _ session.book fun _ => rfl
    next => exact draws_refl session.book
  | install name =>
    simp only [perform]
    split
    next => exact draws_refl session.book
    next sink hsink => exact ⟨[.note .sinkReplaced], rfl, gives_nothing rfl rfl⟩
  | setThreshold level => exact draws_same rfl rfl rfl
  | line name line source trusted =>
    simp only [perform, feedLine]
    split
    next => exact draws_refl session.book
    next channel hfind => exact channel.draws_handleLine line source trusted session.book
  | message name line trusted =>
    simp only [perform, feedMessage]
    split
    next => exact draws_refl session.book
    next channel hfind =>
      split
      next => exact draws_refl session.book
      next => exact draws_refl session.book
      next message hmessage => exact channel.draws_handle message trusted session.book
  | pump sink name source trusted =>
    simp only [perform, pump]
    split
    next fed channel hsink hfind => exact draws_feedLines channel source trusted _ session.book
    next => exact draws_refl session.book
  | openUnder name activity place =>
    simp only [perform, openChannel]
    split
    next => exact draws_refl session.book
    next =>
      split
      next => exact draws_refl session.book
      next old hold => exact old.draws_close session.book
  | openPinned name parent sink place =>
    simp only [perform, openChannel]
    split
    next =>
      split
      next => exact draws_refl session.book
      next old hold => exact old.draws_close session.book
    next => exact draws_refl session.book
  | close name =>
    simp only [perform]
    split
    next => exact draws_refl session.book
    next channel hfind => exact channel.draws_close session.book
  | _ =>
    -- The other commands leave the book as it is.
    simp only [perform, makeSink, ask, push, release]
    first
    | exact draws_refl session.book
    | split <;> exact draws_refl session.book

/-- The numbers that a command gives out: those of the starts that are made through handles, also by
channels and also if they fail, and the one that is asked for. -/
def given (session : Session) : Command → List UInt64
  | .nextId => [session.book.nextId.1]
  | command => startedIn (didIn (Logbook.since session.book (session.perform command).2.book))

/-- **A command gives out the next numbers.** -/
theorem gives_given (session : Session) (command : Command) :
    Gives session.book (session.perform command).2.book (session.given command) := by
  by_cases hasks : command = .nextId
  · subst hasks
    exact gives_nextId session.book
  · obtain ⟨added, hentries, hgives⟩ := session.draws_perform hasks
    have hgiven : session.given command = startedIn (didIn added) := by
      rw [← Logbook.since_eq hentries]
      cases command with
      | nextId => exact (hasks rfl).elim
      | _ => rfl
    rw [hgiven]
    exact hgives

end Session

/-! ## Runs -/

/-- A session comes to be another one, by commands and with changing contexts, and these numbers are
given out. -/
inductive GivesOut (start : Session) : List UInt64 → Session → Prop where
  | nothing : GivesOut start [] start
  | command {ids : List UInt64} {now : Session} (before : GivesOut start ids now)
      (command : Command) : GivesOut start (ids ++ now.given command) (now.perform command).2
  | context {ids : List UInt64} {now : Session} (before : GivesOut start ids now)
      (context : Context) : GivesOut start ids { now with context }

variable {start now : Session} {ids : List UInt64}

theorem GivesOut.gives (h : GivesOut start ids now) : Gives start.book now.book ids := by
  induction h with
  | nothing => exact gives_nothing rfl rfl
  | command before command ih => exact ih.trans (Session.gives_given _ command)
  | context before context ih => exact ih

/-- Whatever a program does, some numbers are given out. -/
theorem exists_givesOut_of_reaches (h : Reaches start now) : ∃ ids, GivesOut start ids now := by
  induction h with
  | refl => exact ⟨[], .nothing⟩
  | tail _ hmove ih =>
    obtain ⟨ids, hgives⟩ := ih
    cases hmove with
    | command command => exact ⟨_, hgives.command command⟩
    | context context => exact ⟨_, hgives.context context⟩

/-- In a process in which no number has been given out yet, they are the first ones. -/
theorem GivesOut.eq_numbersFrom (h : GivesOut start ids now) (hstart : start.book.issued = 0) :
    ids = numbersFrom start.book.processId 0 ids.length :=
  h.gives.numbers 0 hstart

/--
**The numbers of a process are different, up to 2³² of them.**

No number has been given out in a process yet; then any commands are taken in any contexts. Whatever
becomes of the process, some numbers have been given out on the way: to starts that are taken, to
starts that fail, to those of channels, and when one is asked for. They are the counts from `0` with
the number of the process above. So each of the first 2³² shows the number of the process in its upper
half, and they are all different. This is so for these only: once there are more, a number comes again
or shows another process.
-/
theorem numbers_of_run (hstart : start.book.issued = 0) :
    (∀ now, Reaches start now → ∃ ids, GivesOut start ids now)
      ∧ ∀ ids now, GivesOut start ids now →
        (∀ (count : Nat) id, ids[count]? = some id →
          id = UInt64.ofNat count ||| (start.book.processId.toUInt64 <<< 32))
        ∧ ((ids.Nodup ∧ ∀ id ∈ ids, id >>> 32 = start.book.processId.toUInt64)
          ↔ ids.length ≤ 2 ^ 32) := by
  refine ⟨fun now hreached => exists_givesOut_of_reaches hreached, fun ids now hrun => ?_⟩
  have hids := hrun.eq_numbersFrom hstart
  refine ⟨fun count id hid => ?_, ?_⟩
  · have hcount : count < ids.length := (List.getElem?_eq_some_iff.mp hid).1
    rw [hids, getElem?_numbersFrom _ _ hcount, Option.some.injEq, Nat.zero_add] at hid
    exact hid.symm
  · have hall := numbersFrom_zero_iff start.book.processId ids.length
    rwa [← hids] at hall

/-- A number is asked for, and a start fails. -/
theorem numbers_of_run_refused :
    let start : Session := { book := { processId := 7, active := .recorder 1 fun _ _ => true } }
    ∃ ids now, GivesOut start ids now ∧ ids.length = 2 ∧ ids.Nodup ∧ ∀ id ∈ ids, id >>> 32 = 7 := by
  intro start
  have hnothing : GivesOut start [] start := .nothing
  have hrun := (hnothing.command .nextId).command (.start "build" { kind := .build })
  have hlength : ([] ++ start.given .nextId ++ (start.perform .nextId).2.given
      (.start "build" { kind := .build })).length = 2 := by decide +kernel
  have hstart : start.book.issued = 0 := rfl
  obtain ⟨-, hnumbers⟩ := numbers_of_run hstart
  obtain ⟨-, hfew⟩ := hnumbers _ _ hrun
  obtain ⟨honce, hhigh⟩ := hfew.mpr (by rw [hlength]; decide)
  exact ⟨_, _, hrun, hlength, honce, hhigh⟩

/-! ## Asking often -/

/-- A number is asked for as often as this. -/
def asking (times : Nat) : List Step := List.replicate times (.command .nextId)

theorem run_nextId (session : Session) :
    run (.command .nextId) session
      = ((.id session.book.nextId.1, []), { session with book := session.book.nextId.2 }) := by
  have hquiet : ({ session with book := session.book.nextId.2 } : Session).effectsSince session
      = [] := by
    rw [Session.effectsSince, Logbook.nextId_entries, List.drop_length, List.filterMap_nil]
  simp only [run, Session.perform, hquiet]

/-- Each question is answered with the next number. -/
theorem outcomes_asking (times : Nat) {count : Nat} (h : now.book.issued = UInt64.ofNat count) :
    (runAll (asking times) now).1
      = (numbersFrom now.book.processId count times).map fun id => (.id id, []) := by
  induction times generalizing now count with
  | zero => rfl
  | succ times ih =>
    have hnext : now.book.nextId.2.issued = UInt64.ofNat (count + 1) := by
      rw [Logbook.nextId_issued, h]
      exact (UInt64.ofNat_add count 1).symm
    have hothers : (runAll (asking times) { now with book := now.book.nextId.2 }).1
        = (numbersFrom now.book.processId (count + 1) times).map fun id => (.id id, []) :=
      ih hnext
    have hfirst : now.book.nextId.1 = numberFor now.book.processId count := by
      rw [Logbook.nextId, h]
      rfl
    simp only [asking, List.replicate_succ, runAll, run_nextId] at hothers ⊢
    rw [hothers, hfirst, numbersFrom, numbersFrom, List.range'_succ, List.map_cons, List.map_cons]

theorem givesOut_asking (times : Nat) (h : GivesOut start ids now) :
    ∃ more, GivesOut start (ids ++ more) (runAll (asking times) now).2 ∧ more.length = times := by
  induction times generalizing ids now with
  | zero => exact ⟨[], by rwa [List.append_nil], rfl⟩
  | succ times ih =>
    obtain ⟨more, hgives, hlength⟩ := ih (h.command .nextId)
    refine ⟨now.book.nextId.1 :: more, ?_, by rw [List.length_cons, hlength]⟩
    rw [asking, List.replicate_succ, runAll, run_nextId, List.append_cons]
    exact hgives

/-- Who asks process `1` for 2³² + 1 numbers, is told the first one again. -/
theorem number_comes_again :
    (runAll (asking (2 ^ 32 + 1)) {}).1[0]? = some (.id 0x100000000, [])
      ∧ (runAll (asking (2 ^ 32 + 1)) {}).1[2 ^ 32]? = some (.id 0x100000000, [])
      ∧ ∃ ids, GivesOut {} ids (runAll (asking (2 ^ 32 + 1)) {}).2
        ∧ ids.length = 2 ^ 32 + 1 ∧ ¬ ids.Nodup := by
  have hanswer : ∀ count, count < 2 ^ 32 + 1 →
      (runAll (asking (2 ^ 32 + 1)) {}).1[count]? = some (.id (numberFor 1 count), []) := by
    intro count hcount
    have houtcomes : (runAll (asking (2 ^ 32 + 1)) {}).1
        = (numbersFrom 1 0 (2 ^ 32 + 1)).map fun id => (.id id, []) := outcomes_asking _ rfl
    rw [houtcomes, List.getElem?_map, getElem?_numbersFrom _ _ hcount, Nat.zero_add]
    rfl
  have hnothing : GivesOut {} [] {} := .nothing
  obtain ⟨ids, hgives, hlength⟩ := givesOut_asking (2 ^ 32 + 1) hnothing
  rw [List.nil_append] at hgives
  refine ⟨hanswer 0 (by decide), hanswer (2 ^ 32) (by decide), ids, hgives, hlength, fun honce => ?_⟩
  have hids := hgives.eq_numbersFrom rfl
  rw [hlength] at hids
  have hfirst : ids[0]? = some (numberFor 1 0) := by
    rw [hids]
    exact getElem?_numbersFrom _ _ (by decide)
  have hlast : ids[2 ^ 32]? = some (numberFor 1 0) := by
    rw [hids]
    exact getElem?_numbersFrom _ _ (by decide)
  have heq := (List.getElem?_inj (by rw [hlength]; decide) honce).mp (hfirst.trans hlast.symm)
  exact absurd heq (by decide)

end Script

end Worklog
