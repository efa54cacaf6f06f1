import Worklog.Script.Run

/-!
# Blocks and what is current around them

A step can change what is current in the innermost scope, or on the thread if no scope is open. It
closes no scope that it has not opened. So a block leaves the context around it as it was, and a
future can be suspended at any step: the scope that it takes up again is the one that it left.

* `varies_run` — a step changes no more than what is current innermost.
* `drive_eq` — a future takes its steps as if it was never suspended.
* `isolated` — what a block and the context around it see of each other.
-/

namespace Worklog

/-! ## Contexts -/

namespace Context

@[simp] theorem set_current (context : Context) : context.set context.current = context := by
  obtain ⟨thread, scopes⟩ := context
  cases scopes <;> rfl

/-- Of two entries of the context in a row, the second one counts. -/
@[simp] theorem set_set (context : Context) (id next : UInt64) :
    (context.set id).set next = context.set next := by
  obtain ⟨thread, scopes⟩ := context
  cases scopes <;> rfl

/-- The same scopes are open, and only what is current in the innermost one may differ. -/
def Varies (before after : Context) : Prop := ∃ id, after = before.set id

theorem varies_set (context : Context) (id : UInt64) : Varies context (context.set id) := ⟨id, rfl⟩

/-- Where nothing is changed, only the current entry may have been changed. -/
theorem varies_of_eq {before after : Context} (h : after = before) : Varies before after :=
  ⟨before.current, by rw [h, set_current]⟩

theorem Varies.trans {a b c : Context} (h : Varies a b) (h' : Varies b c) : Varies a c := by
  obtain ⟨id, rfl⟩ := h
  obtain ⟨next, rfl⟩ := h'
  exact ⟨next, set_set a id next⟩

/-- Steps in a scope leave a scope in the same place. -/
theorem Varies.eq_enter {context after : Context} {id : UInt64}
    (h : Varies (context.enter id) after) : after = context.enter after.current := by
  obtain ⟨next, rfl⟩ := h
  rfl

/-- Leaving a scope gives back the context around it, whatever the steps in it have entered. -/
theorem Varies.leave_eq {context after : Context} {id : UInt64}
    (h : Varies (context.enter id) after) : after.leave = context := by
  rw [h.eq_enter, leave_enter]

end Context

namespace Script

open Context (Varies varies_set varies_of_eq)

/-! ## Commands -/

namespace Session

/-- Only guards change the context. All other commands leave it alone, one by one. -/
theorem makeSink_context (session : Session) (name : String) (plan : SinkPlan) :
    (session.makeSink name plan).2.context = session.context := by
  unfold makeSink
  split <;> rfl

theorem call_context (session : Session) (sink : Option String) (said : Option Call) :
    (session.call sink said).2.context = session.context := by
  unfold call
  split <;> rfl

theorem startActivity_context (session : Session) (name : String) (start : Start) :
    (session.startActivity name start).2.context = session.context := by
  unfold startActivity
  split
  · rfl
  · split <;> rfl

theorem stopActivity_context (session : Session) (name : String) (answer : Answer) :
    (session.stopActivity name answer).2.context = session.context := by
  unfold stopActivity
  split <;> rfl

theorem updateActivity_context (session : Session) (name : String) (kind : UpdateKind)
    (fields : List Field) :
    (session.updateActivity name kind fields).2.context = session.context := by
  unfold updateActivity
  split <;> rfl

theorem ask_context (session : Session) (name : String) (answer : Activity → String) :
    (session.ask name answer).2.context = session.context := by
  unfold ask
  split <;> rfl

theorem feedLine_context (session : Session) (name line source : String) (trusted : Bool) :
    (session.feedLine name line source trusted).2.context = session.context := by
  unfold feedLine
  split <;> rfl

theorem feedMessage_context (session : Session) (name line : String) (trusted : Bool) :
    (session.feedMessage name line trusted).2.context = session.context := by
  unfold feedMessage
  split
  · rfl
  · split <;> rfl

theorem pump_context (session : Session) (sink name source : String) (trusted : Bool) :
    (session.pump sink name source trusted).2.context = session.context := by
  unfold pump
  split <;> rfl

theorem varies_push (session : Session) (name : String) (id : UInt64) :
    Varies session.context (session.push name id).2.context := by
  unfold push
  have hpushed : Varies session.context (Guard.push session.context id).2 := varies_set _ id
  -- A guard of the same name is released into the same scope.
  cases session.guards.lookup name with
  | none => exact hpushed
  | some old => exact hpushed.trans (varies_set _ old.previous)

theorem varies_release (session : Session) (name : String) :
    Varies session.context (session.release name).2.context := by
  unfold release
  split
  next => exact varies_of_eq rfl
  next guard hfind => exact varies_set _ guard.previous

/-- Whatever a command does to the context, it does to the current entry. -/
theorem varies_perform (session : Session) (command : Command) :
    Varies session.context (session.perform command).2.context := by
  cases command with
  | setCurrent ref =>
    simp only [perform]
    split
    next => exact varies_of_eq rfl
    next id hid => exact varies_set _ id
  | push name ref =>
    simp only [perform]
    split
    next => exact varies_of_eq rfl
    next id hid => exact session.varies_push name id
  | release name => exact session.varies_release name
  | makeSink name plan => exact varies_of_eq (session.makeSink_context name plan)
  | call sink said => exact varies_of_eq (session.call_context sink (some said))
  | startCall sink id level kind text fields parent => exact varies_of_eq (session.call_context _ _)
  | stopCall sink id => exact varies_of_eq (session.call_context _ _)
  | updateCall sink id kind fields => exact varies_of_eq (session.call_context _ _)
  | start name start => exact varies_of_eq (session.startActivity_context name start)
  | stop name => exact varies_of_eq (session.stopActivity_context name _)
  | unwind name => exact varies_of_eq (session.stopActivity_context name _)
  | update name kind fields => exact varies_of_eq (session.updateActivity_context name kind fields)
  | describe name => exact varies_of_eq (session.ask_context name _)
  | sinkOf name => exact varies_of_eq (session.ask_context name _)
  | line name line source trusted => exact varies_of_eq (session.feedLine_context ..)
  | message name line trusted => exact varies_of_eq (session.feedMessage_context ..)
  | pump sink name source trusted => exact varies_of_eq (session.pump_context ..)
  | _ =>
    simp only [perform]
    first
    | exact varies_of_eq rfl
    | split <;> exact varies_of_eq rfl

/-- What leaves the book as it is, leads to nothing. -/
theorem effectsSince_of_book {before after : Session} (h : after.book = before.book) :
    after.effectsSince before = [] := by
  rw [effectsSince, h, List.drop_length, List.filterMap_nil]

end Session

/-! ## Steps -/

mutual

/-- **A step changes no more than what is current innermost.** -/
theorem varies_run (step : Step) (session : Session) :
    Varies session.context (run step session).2.context := by
  cases step with
  | command command => exact session.varies_perform command
  | scope ref steps =>
    simp only [run]
    split
    next => exact varies_of_eq rfl
    next id hid => exact varies_of_eq (varies_runAll steps _).leave_eq
  | thread steps => exact varies_of_eq rfl
  | future ref steps =>
    simp only [run]
    split
    next => exact varies_of_eq rfl
    next id hid => exact varies_of_eq (drive_context steps id session)

theorem varies_runAll (steps : List Step) (session : Session) :
    Varies session.context (runAll steps session).2.context := by
  cases steps with
  | nil => exact varies_of_eq rfl
  | cons step steps => exact (varies_run step session).trans (varies_runAll steps _)

/-- Between two suspensions of a future, the context around it is as it was. -/
theorem drive_context (steps : List Step) (id : UInt64) (session : Session) :
    (drive steps id session).2.2.context = session.context := by
  cases steps with
  | nil => rfl
  | cons step steps =>
    have hinside := varies_run step { session with context := session.context.enter id }
    exact (drive_context steps _ _).trans hinside.leave_eq

end

/--
**A future takes its steps as if it was never suspended.**

The context around it is the same at every suspension, and stays so.
-/
theorem drive_eq (steps : List Step) (id : UInt64) (session : Session) :
    drive steps id session
      = let (outcomes, after) := runAll steps { session with context := session.context.enter id }
        (outcomes, List.replicate steps.length session.context.current,
          { after with context := session.context }) := by
  induction steps generalizing id session with
  | nil => rfl
  | cons step steps ih =>
    have hinside := varies_run step { session with context := session.context.enter id }
    -- The scope that is left at the suspension is the one that the next step enters.
    have hback : { (run step { session with context := session.context.enter id }).2 with
        context := session.context.enter
          (run step { session with context := session.context.enter id }).2.context.current }
        = (run step { session with context := session.context.enter id }).2 := by
      rw [← hinside.eq_enter]
    simp only [drive, runAll, hinside.leave_eq, ih, hback]
    rfl

/-! ## Blocks -/

/-- A command that leaves the book as it is. -/
theorem run_command {session after : Session} {command : Command} {answer : Answer}
    (h : session.perform command = (answer, after)) (hbook : after.book = session.book) :
    run (.command command) session = ((answer, []), after) := by
  simp only [run, h, Session.effectsSince_of_book hbook]

/-- Looking at what is current changes nothing. -/
theorem run_current (session : Session) :
    run (.command .current) session = ((.id session.context.current, []), session) :=
  run_command rfl rfl

/-- The outcomes of the steps in a block. -/
def Answer.outcomes : Answer → List Outcome
  | block outcomes => outcomes
  | future outcomes _ => outcomes
  | _ => []

/-- The steps of a scope run in the entered context, and the one around it comes back. -/
theorem run_scope {session : Session} {ref : Ref} {id : UInt64} (hid : session.id? ref = some id)
    (steps : List Step) :
    run (.scope ref steps) session
      = let (outcomes, after) := runAll steps { session with context := session.context.enter id }
        ((.block outcomes, []), { after with context := session.context }) := by
  have hafter := varies_runAll steps { session with context := session.context.enter id }
  simp only [run, hid, hafter.leave_eq]

theorem run_future {session : Session} {ref : Ref} {id : UInt64} (hid : session.id? ref = some id)
    (steps : List Step) :
    run (.future ref steps) session
      = let (outcomes, after) := runAll steps { session with context := session.context.enter id }
        ((.future outcomes (List.replicate steps.length session.context.current), []),
          { after with context := session.context }) := by
  simp only [run, hid, drive_eq]

/-- A block that looks first at what is current. -/
theorem runAll_current (steps : List Step) (session : Session) :
    (runAll (.command .current :: steps) session).1.head?
      = some (.id session.context.current, []) := by
  simp only [runAll, run_current, List.head?_cons]

/--
**A block and the context around it see nothing of each other but where the block starts.**

Whatever the steps are, they may set what is current, make and release guards, also those of the
context around, in any order, give up activities, and open blocks of their own; and a block that is
given up in the middle is one with fewer steps, for what it lets go of on the way out are steps, too.
After a scope, a future and another thread, the context around is what it was, and the same activity
is current outside of a future at every suspension. In a scope and in a future the given activity is
current first, on another thread none is. And the steps of a future lead to what they lead to in a
scope: they are answered in the same way, and leave the same session behind, with the same calls in
its book.
-/
theorem isolated {session : Session} {ref : Ref} {id : UInt64} (hid : session.id? ref = some id)
    (steps : List Step) :
    (∀ block ∈ [Step.scope ref steps, .future ref steps, .thread steps],
        (run block session).2.context = session.context)
      ∧ ((run (.scope ref (.command .current :: steps)) session).1.1.outcomes.head?
          = some (.id id, [])
        ∧ (run (.future ref (.command .current :: steps)) session).1.1.outcomes.head?
          = some (.id id, [])
        ∧ (run (.thread (.command .current :: steps)) session).1.1.outcomes.head?
          = some (.id 0, []))
      ∧ (∃ outcomes, (run (.scope ref steps) session).1 = (.block outcomes, [])
        ∧ (run (.future ref steps) session).1
          = (.future outcomes (List.replicate steps.length session.context.current), []))
      ∧ (run (.future ref steps) session).2 = (run (.scope ref steps) session).2 := by
  refine ⟨?_, ⟨?_, ?_, ?_⟩, ?_, ?_⟩
  · intro block hblock
    simp only [List.mem_cons, List.not_mem_nil, or_false] at hblock
    rcases hblock with rfl | rfl | rfl
    · rw [run_scope hid]
    · rw [run_future hid]
    · rfl
  · rw [run_scope hid]
    exact runAll_current steps _
  · rw [run_future hid]
    exact runAll_current steps _
  · exact runAll_current steps _
  · rw [run_scope hid, run_future hid]
    exact ⟨_, rfl, rfl⟩
  · rw [run_scope hid, run_future hid]

/-- A future releases a guard that was made outside, and another thread sets what is current. -/
theorem isolated_foreignGuard :
    let session := (runAll [.command (.start "build" { kind := .build }),
      .command (.push "outer" (.id 7))] {}).2
    let body : List Step := [.command (.release "outer"),
      .thread [.command (.setCurrent (.activity "build"))], .command (.push "inner" (.id 9))]
    (run (.future (.activity "build") body) session).2.context.current = 7
      ∧ ∃ outcomes,
        (run (.future (.activity "build") body) session).1 = (.future outcomes [7, 7, 7], []) := by
  intro session body
  have hid : session.id? (.activity "build") = some 4294967296 := by decide +kernel
  have hcurrent : session.context.current = 7 := by decide +kernel
  obtain ⟨hafter, -, ⟨outcomes, -, houtcomes⟩, -⟩ := isolated hid body
  refine ⟨?_, outcomes, ?_⟩
  · rw [hafter _ (by simp), hcurrent]
  · rw [houtcomes, hcurrent]
    rfl

end Script

end Worklog
