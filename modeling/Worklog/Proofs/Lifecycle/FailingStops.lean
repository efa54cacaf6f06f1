import Worklog.Proofs.Lifecycle.Numbers
import Worklog.Proofs.Lifecycle.Replies

/-!
# Stops that fail

Activities are stopped when the program lets go of them: by name, on the way out of a failure, when
another activity takes the name, when the other program says so, and when a channel is closed. None
of these notices that the sink refuses the stop, and none is cut short by it. Only a program that
tells a sink a stop itself sees the reply.

* `Step.withFailingStops` — the same steps, with recorders that refuse stops.
* `perform_taken`, `run_matches` — a step has the same answer, and leaves sessions that match.
* `failing_stops_unnoticed` — the two runs of a whole script.
-/

namespace Worklog.Script

open Logbook

/-! ## Recorders that refuse stops -/

/-- A recorder comes to refuse stops, besides what it refuses anyway. -/
def SinkPlan.withFailingStops : SinkPlan → SinkPlan
  | .recorder refuses => .recorder fun count said => said.isStop || refuses count said
  | plan => plan

/-- A recorder that refuses nothing comes to refuse stops only. -/
theorem SinkPlan.withFailingStops_recorder :
    (SinkPlan.recorder fun _ _ => false).withFailingStops = .recorder fun _ call => call.isStop := by
  simp only [withFailingStops, Bool.or_false]

def Command.withFailingStops : Command → Command
  | .makeSink name plan => .makeSink name plan.withFailingStops
  | command => command

mutual

/-- The same step, but that all recorders it makes refuse stops. -/
def Step.withFailingStops : Step → Step
  | .command command => .command command.withFailingStops
  | .scope ref steps => .scope ref (withFailingStopsAll steps)
  | .thread steps => .thread (withFailingStopsAll steps)
  | .future ref steps => .future ref (withFailingStopsAll steps)

def withFailingStopsAll : List Step → List Step
  | [] => []
  | step :: steps => step.withFailingStops :: withFailingStopsAll steps

end

/-- Whether a command tells a sink a stop itself. -/
def Command.callsStop : Command → Bool
  | .call _ said => said.isStop
  | .stopCall .. => true
  | _ => false

mutual

def Step.callsStop : Step → Bool
  | .command command => command.callsStop
  | .scope _ steps => anyCallsStop steps
  | .thread steps => anyCallsStop steps
  | .future _ steps => anyCallsStop steps

def anyCallsStop : List Step → Bool
  | [] => false
  | step :: steps => step.callsStop || anyCallsStop steps

end

/-! ## Outcomes without notes -/

def Effect.isNote : Effect → Bool
  | .note _ => true
  | _ => false

mutual

/-- An answer without the notes among the effects of the steps in a block. -/
def Answer.quiet : Answer → Answer
  | .block outcomes => .block (quietAll outcomes)
  | .future outcomes outside => .future (quietAll outcomes) outside
  | answer => answer

/-- Outcomes without the notes among their effects. -/
def quietAll : List (Answer × List Effect) → List (Answer × List Effect)
  | [] => []
  | (answer, effects) :: outcomes =>
    (answer.quiet, effects.filter fun effect => !effect.isNote) :: quietAll outcomes

end

/-- What a step leads to, without notes. -/
def Outcome.quiet (outcome : Outcome) : Outcome :=
  (outcome.1.quiet, outcome.2.filter fun effect => !effect.isNote)

theorem quietAll_cons (outcome : Outcome) (outcomes : List Outcome) :
    quietAll (outcome :: outcomes) = Outcome.quiet outcome :: quietAll outcomes := rfl

namespace Session

/-! ## Sessions -/

/-- Two sessions whose sinks differ at most in how they reply to stops. -/
structure Matches (a b : Session) : Prop where
  book : a.book.Matches b.book
  context : a.context = b.context
  sinks : Entrywise Sink.Matches a.sinks b.sinks
  made : a.made = b.made
  activities : Entrywise Activity.Matches a.activities b.activities
  guards : a.guards = b.guards
  channels : Entrywise Channel.Matches a.channels b.channels

theorem matches_refl (session : Session) : session.Matches session :=
  ⟨session.book.matches_refl, rfl, entrywise_refl Sink.matches_refl _, rfl,
    entrywise_refl Activity.matches_refl _, rfl, entrywise_refl Channel.matches_refl _⟩

/-- A step was taken with the same answer, and the sessions after it match. -/
structure Taken (x y : Answer × Session) : Prop where
  answer : x.1 = y.1
  session : x.2.Matches y.2

variable {a b after after' : Session}

theorem entrywise_without {α : Type} {R : α → α → Prop} {table table' : List (String × α)}
    (h : Entrywise R table table') (name : String) :
    Entrywise R (without name table) (without name table') :=
  h.filter fun key => key ≠ name

theorem entrywise_withEntry {α : Type} {R : α → α → Prop} {table table' : List (String × α)}
    (h : Entrywise R table table') (name : String) {x y : α} (hvalue : R x y) :
    Entrywise R (withEntry name x table) (withEntry name y table') :=
  .cons ⟨rfl, hvalue⟩ (entrywise_without h name)

theorem Matches.withBook (h : a.Matches b) {book book' : Logbook} (hbook : book.Matches book') :
    Matches { a with book } { b with book := book' } :=
  ⟨hbook, h.context, h.sinks, h.made, h.activities, h.guards, h.channels⟩

theorem Matches.withContext (h : a.Matches b) {context context' : Context}
    (hcontext : context = context') :
    Matches { a with context } { b with context := context' } :=
  ⟨h.book, hcontext, h.sinks, h.made, h.activities, h.guards, h.channels⟩

theorem Matches.sink? (h : a.Matches b) (name : Option String) :
    Option.Rel Sink.Matches (a.sink? name) (b.sink? name) := by
  cases name with
  | none => exact .some h.book.active
  | some name => exact h.sinks.lookup name

/-- A reference stands for the same id in both sessions. -/
theorem Matches.id?_eq (h : a.Matches b) (ref : Ref) : a.id? ref = b.id? ref := by
  cases ref with
  | id id => rfl
  | activity name =>
    rcases none_or_some (h.activities.lookup name) with ⟨ha, hb⟩ | ⟨_, _, ha, hb, hactivity⟩
    · simp only [Session.id?, ha, hb]
    · simp only [Session.id?, ha, hb, Option.map_some, hactivity.id]

/-! ## Names of sinks -/

theorem sinkName?_eq_map (session : Session) (id : Nat) :
    session.sinkName? id
      = ((session.sinks.map fun entry => (entry.1, entry.2.id)).find? fun entry =>
          entry.2 = id).map Prod.fst := by
  rw [sinkName?, List.find?_map, Option.map_map]
  rfl

/-- The sinks have the same names in both sessions. -/
theorem Matches.sinkName?_eq (h : a.Matches b) : a.sinkName? = b.sinkName? := by
  funext id
  rw [sinkName?_eq_map, sinkName?_eq_map, h.sinks.map_eq fun _ _ hsink => hsink.id_eq]

theorem Matches.nameOf_eq (h : a.Matches b) {sink sink' : Sink} (hsink : sink.Matches sink') :
    a.nameOf sink = b.nameOf sink' := by
  rw [nameOf, nameOf, h.sinkName?_eq, hsink.id_eq]

theorem Matches.messagesOn_eq (h : a.Matches b) {sink sink' : Sink} (hsink : sink.Matches sink')
    (level : Level) : a.messagesOn sink level = b.messagesOn sink' level := by
  rw [messagesOn, messagesOn, hsink.id_eq, h.book.keptOn_eq]

/-- On both sides an activity was started below the same parent. -/
theorem Matches.parentOn_eq (h : a.Matches b) {sink sink' : Sink} (hsink : sink.Matches sink')
    (id : UInt64) : a.parentOn sink id = b.parentOn sink' id := by
  rw [parentOn, parentOn, hsink.id_eq, h.book.keptOn_eq]

/-! ## Sinks -/

/-- A recorder matches the one that also refuses stops. -/
theorem Matches.planned (h : a.Matches b) (plan : SinkPlan) :
    Option.Rel (fun x y => x.1.Matches y.1 ∧ x.2 = y.2) (a.planned plan)
      (b.planned plan.withFailingStops) := by
  have hmade := h.made
  cases plan with
  | recorder refuses =>
    simp only [Session.planned, SinkPlan.withFailingStops, hmade]
    exact .some ⟨.recorder _ fun count call hstop => by simp [hstop], rfl⟩
  | fuse capacity =>
    simp only [Session.planned, SinkPlan.withFailingStops, hmade]
    exact .some ⟨.fuse _ capacity, rfl⟩
  | plain settings target =>
    simp only [Session.planned, SinkPlan.withFailingStops, hmade]
    exact .some ⟨.plain _ settings target, rfl⟩
  | detected options surroundings =>
    simp only [Session.planned, SinkPlan.withFailingStops, hmade]
    exact .some ⟨.plain _ _ .stderr, rfl⟩
  | wire showTrace behind =>
    simp only [Session.planned, SinkPlan.withFailingStops, hmade]
    rcases none_or_some (h.sinks.lookup behind) with ⟨ha, hb⟩ | ⟨_, _, ha, hb, hbehind⟩
    · simp only [ha, hb]
      exact .none
    · simp only [ha, hb]
      exact .some ⟨.wire _ showTrace hbehind, rfl⟩
  | foreign verbose replies =>
    simp only [Session.planned, SinkPlan.withFailingStops, hmade]
    exact .some ⟨.foreign _ verbose fun _ _ _ => rfl, rfl⟩

/-- A new recorder gets its refusals on the one side only, which leaves the sinks matching. -/
theorem makeSink_taken (h : a.Matches b) (name : String) (plan : SinkPlan) :
    Taken (a.makeSink name plan) (b.makeSink name plan.withFailingStops) := by
  rcases none_or_some (h.planned plan) with
    ⟨ha, hb⟩ | ⟨⟨sink, answer⟩, ⟨sink', answer'⟩, ha, hb, hsink, hanswer⟩
  · simp only [makeSink, ha, hb]
    exact ⟨rfl, h⟩
  · simp only [makeSink, ha, hb, h.made]
    exact ⟨hanswer, h.book, h.context, entrywise_withEntry h.sinks name hsink, rfl, h.activities,
      h.guards, h.channels⟩

/-- A call that is no stop gets the same answer from both sinks. -/
theorem call_taken (h : a.Matches b) (sink : Option String) {call : Option Call}
    (hcall : ∀ said ∈ call, said.isStop = false) : Taken (a.call sink call) (b.call sink call) := by
  rcases none_or_some (h.sink? sink) with ⟨ha, hb⟩ | ⟨_, _, ha, hb, hsink⟩
  · simp only [Session.call, ha, hb]
    exact ⟨rfl, h⟩
  · cases call with
    | none =>
      simp only [Session.call, ha, hb]
      exact ⟨rfl, h⟩
    | some said =>
      have hagree := emit_agree .user hsink (hcall said rfl) h.book
      simp only [Session.call, ha, hb]
      exact ⟨congrArg Answer.done hagree.result_eq, h.withBook hagree.matches⟩

/-! ## Activities -/

/-- What is planned for a start agrees, but for the sink of the plan. -/
theorem Matches.planOf (h : a.Matches b) (start : Start) :
    Option.Rel Plan.Matches (a.planOf start) (b.planOf start) := by
  have hplanned (parent : Option UInt64) :
      Option.Rel Plan.Matches
        ((a.sink? start.sink).bind fun sink =>
          some ⟨start.kind, start.level, start.text, start.fields, parent, some sink⟩)
        ((b.sink? start.sink).bind fun sink =>
          some ⟨start.kind, start.level, start.text, start.fields, parent, some sink⟩) := by
    rcases none_or_some (h.sink? start.sink) with ⟨ha, hb⟩ | ⟨_, _, ha, hb, hsink⟩
    · simp only [ha, hb]
      exact .none
    · simp only [ha, hb]
      exact .some ⟨rfl, .some hsink⟩
  cases hparent : start.parent with
  | none =>
    simp only [Session.planOf, hparent]
    exact hplanned none
  | some ref =>
    simp only [Session.planOf, hparent, h.id?_eq]
    cases b.id? ref with
    | none => exact .none
    | some id => exact hplanned (some id)

/-- The activity that loses its name is stopped on both sides, and nobody asks how. -/
theorem startActivity_taken (h : a.Matches b) (name : String) (start : Start) :
    Taken (a.startActivity name start) (b.startActivity name start) := by
  rcases none_or_some (h.planOf start) with ⟨ha, hb⟩ | ⟨plan, plan', ha, hb, hplan⟩
  · simp only [startActivity, ha, hb]
    exact ⟨rfl, h⟩
  · have hagree := Activity.ofPlan_agree hplan b.context h.book
    simp only [startActivity, ha, hb, h.context]
    generalize Activity.ofPlan plan _ _ = x, Activity.ofPlan plan' _ _ = y at hagree ⊢
    cases hagree with
    | failed failure hbook =>
      exact ⟨rfl, hbook, rfl, h.sinks, h.made, h.activities, h.guards, h.channels⟩
    | done hactivity hbook =>
      refine ⟨congrArg Answer.started hactivity.id, ?_, rfl, h.sinks, h.made,
        entrywise_withEntry h.activities name hactivity, h.guards, h.channels⟩
      rcases none_or_some (h.activities.lookup name) with ⟨ha, hb⟩ | ⟨_, _, ha, hb, hold⟩
      · simp only [ha, hb]
        exact hbook
      · simp only [ha, hb]
        exact Activity.stop_matches hold hbook

/-- A stop is answered in the same way whether or not the sink refuses it. -/
theorem stopActivity_taken (h : a.Matches b) (name : String) (answer : Answer) :
    Taken (a.stopActivity name answer) (b.stopActivity name answer) := by
  rcases none_or_some (h.activities.lookup name) with ⟨ha, hb⟩ | ⟨_, _, ha, hb, hactivity⟩
  · simp only [stopActivity, ha, hb]
    exact ⟨rfl, h⟩
  · simp only [stopActivity, ha, hb]
    exact ⟨rfl, Activity.stop_matches hactivity h.book, h.context, h.sinks, h.made,
      entrywise_without h.activities name, h.guards, h.channels⟩

/-- Sinks that differ in how they take stops take the same updates. -/
theorem updateActivity_taken (h : a.Matches b) (name : String) (kind : UpdateKind)
    (fields : List Field) :
    Taken (a.updateActivity name kind fields) (b.updateActivity name kind fields) := by
  rcases none_or_some (h.activities.lookup name) with ⟨ha, hb⟩ | ⟨_, _, ha, hb, hactivity⟩
  · simp only [updateActivity, ha, hb]
    exact ⟨rfl, h⟩
  · have hagree := Activity.update_agree hactivity kind fields h.book
    simp only [updateActivity, ha, hb]
    exact ⟨congrArg Answer.done hagree.result_eq, h.withBook hagree.matches⟩

theorem ask_taken (h : a.Matches b) (name : String) {answer answer' : Activity → String}
    (hsame : ∀ x y, x.Matches y → answer x = answer' y) :
    Taken (a.ask name answer) (b.ask name answer') := by
  rcases none_or_some (h.activities.lookup name) with ⟨ha, hb⟩ | ⟨_, _, ha, hb, hactivity⟩
  · simp only [ask, ha, hb]
    exact ⟨rfl, h⟩
  · simp only [ask, ha, hb]
    exact ⟨congrArg Answer.text (hsame _ _ hactivity), h⟩

/-! ## Guards -/

theorem push_taken (h : a.Matches b) (name : String) (id : UInt64) :
    Taken (a.push name id) (b.push name id) := by
  simp only [push, h.context, h.guards]
  exact ⟨rfl, h.book, rfl, h.sinks, h.made, h.activities, rfl, h.channels⟩

/-- A guard that is let go of gives the same answer on both sides. -/
theorem release_taken (h : a.Matches b) (name : String) :
    Taken (a.release name) (b.release name) := by
  simp only [release, h.context, h.guards]
  split
  · exact ⟨rfl, h⟩
  · exact ⟨rfl, h.book, rfl, h.sinks, h.made, h.activities, rfl, h.channels⟩

/-! ## Channels -/

/-- The channel that had the name is closed first, and its stops may fail. -/
theorem openChannel_taken (h : a.Matches b) (name : String) {channel channel' : Channel}
    (hchannel : channel.Matches channel') :
    Taken (a.openChannel name channel) (b.openChannel name channel') := by
  refine ⟨rfl, ?_, h.context, h.sinks, h.made, h.activities, h.guards,
    entrywise_withEntry h.channels name hchannel⟩
  rcases none_or_some (h.channels.lookup name) with ⟨ha, hb⟩ | ⟨_, _, ha, hb, hold⟩
  · simp only [openChannel, ha, hb]
    exact h.book
  · simp only [openChannel, ha, hb]
    exact Channel.close_matches hold h.book

/-- A line that was handled alike is answered alike, and leaves the sessions matching. -/
theorem Matches.afterHandled (h : a.Matches b) (name : String) {x y : Channel.Handled}
    (hhandled : x.Matches y) :
    lineAnswer x = lineAnswer y ∧ (a.afterHandled name x).Matches (b.afterHandled name y) := by
  refine ⟨?_, hhandled.book, h.context, h.sinks, h.made, h.activities, h.guards,
    entrywise_withEntry h.channels name hhandled.channel⟩
  rw [lineAnswer, lineAnswer, hhandled.result, hhandled.channel.size_eq]

theorem feedLine_taken (h : a.Matches b) (name line source : String) (trusted : Bool) :
    Taken (a.feedLine name line source trusted) (b.feedLine name line source trusted) := by
  rcases none_or_some (h.channels.lookup name) with ⟨ha, hb⟩ | ⟨_, _, ha, hb, hchannel⟩
  · simp only [feedLine, ha, hb]
    exact ⟨rfl, h⟩
  · obtain ⟨hanswer, hsession⟩ :=
      h.afterHandled name (Channel.handleLine_matches hchannel line source trusted h.book)
    simp only [feedLine, ha, hb]
    exact ⟨congrArg Answer.line hanswer, hsession⟩

theorem feedMessage_taken (h : a.Matches b) (name line : String) (trusted : Bool) :
    Taken (a.feedMessage name line trusted) (b.feedMessage name line trusted) := by
  rcases none_or_some (h.channels.lookup name) with ⟨ha, hb⟩ | ⟨_, _, ha, hb, hchannel⟩
  · simp only [feedMessage, ha, hb]
    exact ⟨rfl, h⟩
  · simp only [feedMessage, ha, hb]
    split
    next => exact ⟨rfl, h⟩
    next => exact ⟨rfl, h⟩
    next message _ =>
      obtain ⟨hanswer, hsession⟩ :=
        h.afterHandled name (Channel.handle_matches hchannel message trusted h.book)
      exact ⟨congrArg Answer.message hanswer, hsession⟩

theorem feedLines_matches {channel channel' : Channel} {book book' : Logbook}
    (h : channel.Matches channel') (source : String) (trusted : Bool) (lines : List String)
    (hbook : book.Matches book') :
    (feedLines channel source trusted lines book).1 = (feedLines channel' source trusted lines book').1
      ∧ (feedLines channel source trusted lines book).2.1.Matches
        (feedLines channel' source trusted lines book').2.1
      ∧ (feedLines channel source trusted lines book).2.2.Matches
        (feedLines channel' source trusted lines book').2.2 := by
  induction lines generalizing channel channel' book book' with
  | nil => exact ⟨rfl, h, hbook⟩
  | cons line lines ih =>
    have hhandled := Channel.handleLine_matches h line source trusted hbook
    obtain ⟨hanswers, hrest⟩ := ih hhandled.channel hhandled.book
    refine ⟨?_, hrest⟩
    simp only [feedLines, hanswers, lineAnswer, hhandled.result, hhandled.channel.size_eq]

/-- What a sink has kept as errors is fed to a channel, the same lines on both sides. -/
theorem pump_taken (h : a.Matches b) (sink name source : String) (trusted : Bool) :
    Taken (a.pump sink name source trusted) (b.pump sink name source trusted) := by
  rcases none_or_some (h.sinks.lookup sink) with ⟨ha, hb⟩ | ⟨_, _, ha, hb, hsink⟩
  · simp only [pump, ha, hb]
    exact ⟨rfl, h⟩
  · rcases none_or_some (h.channels.lookup name) with ⟨ha', hb'⟩ | ⟨_, _, ha', hb', hchannel⟩
    · simp only [pump, ha, hb, ha', hb']
      exact ⟨rfl, h⟩
    · simp only [pump, ha, hb, ha', hb', h.messagesOn_eq hsink]
      obtain ⟨hanswers, hfed, hbook⟩ := feedLines_matches hchannel source trusted _ h.book
      exact ⟨congrArg Answer.lines hanswers, hbook, h.context, h.sinks, h.made, h.activities,
        h.guards, entrywise_withEntry h.channels name hfed⟩

/-! ## Commands -/

theorem print_taken (h : a.Matches b) (style : Style) (text : String) :
    Taken (a.perform (.print style text)) (b.perform (.print style text)) := by
  have hcall : (style.call text).isStop = false := by cases style <;> rfl
  have hagree := emit_agree .user h.book.active hcall h.book
  simp only [perform, Logbook.print, h.book.threshold]
  split
  · simp only [hagree.result_eq]
    exact ⟨rfl, h.withBook hagree.matches⟩
  · exact ⟨rfl, h⟩

theorem inspect_taken (h : a.Matches b) (name : String) (remotes : List UInt64) :
    Taken (a.perform (.inspect name remotes)) (b.perform (.inspect name remotes)) := by
  rcases none_or_some (h.channels.lookup name) with ⟨ha, hb⟩ | ⟨channel, channel', ha, hb, hchannel⟩
  · simp only [perform, ha, hb]
    exact ⟨rfl, h⟩
  · have hfound (remote : UInt64) :
        (channel.find remote).map Activity.id = (channel'.find remote).map Activity.id := by
      rcases none_or_some (hchannel.running.lookup remote) with ⟨ha, hb⟩ | ⟨_, _, ha, hb, hactivity⟩
      · simp only [Channel.find, ha, hb]
      · simp only [Channel.find, ha, hb, Option.map_some, hactivity.id]
    simp only [perform, ha, hb, hchannel.size_eq, hfound]
    exact ⟨rfl, h⟩

/-- **A command has the same answer**, if it does not tell a sink a stop itself. -/
theorem perform_taken (h : a.Matches b) {command : Command} (hcalls : command.callsStop = false) :
    Taken (a.perform command) (b.perform command.withFailingStops) := by
  cases command with
  | makeSink name plan => exact makeSink_taken h name plan
  | setThreshold level =>
    refine ⟨?_, h.withBook ⟨rfl, h.book.active, h.book.processId, h.book.issued, h.book.happened⟩⟩
    exact congrArg (Answer.threshold · level) h.book.threshold
  | install name =>
    -- The note about the sink that was active names it, so the names have to agree, too.
    rcases none_or_some (h.sinks.lookup name) with ⟨ha, hb⟩ | ⟨_, _, ha, hb, hsink⟩
    · simp only [perform, Command.withFailingStops, ha, hb]
      exact ⟨rfl, h⟩
    · simp only [perform, Command.withFailingStops, ha, hb, h.nameOf_eq h.book.active,
        h.book.active.isVerbose_eq]
      refine ⟨rfl, h.withBook (Matches.addNote ?_ _ _)⟩
      exact ⟨h.book.threshold, hsink, h.book.processId, h.book.issued, h.book.happened⟩
  | showActive =>
    simp only [perform, Command.withFailingStops, h.nameOf_eq h.book.active,
      h.book.active.isVerbose_eq]
    exact ⟨rfl, h⟩
  | call sink said => exact call_taken h sink fun _ hsaid => Option.mem_some.mp hsaid ▸ hcalls
  | startCall sink id level kind text fields parent =>
    simp only [perform, Command.withFailingStops, h.id?_eq]
    refine call_taken h sink fun said hsaid => ?_
    simp only [Option.mem_def, Option.bind_eq_bind, Option.bind_eq_some_iff, Option.pure_def,
      Option.some.injEq] at hsaid
    obtain ⟨_, _, _, _, rfl⟩ := hsaid
    rfl
  | stopCall sink id => simp [Command.callsStop] at hcalls
  | updateCall sink id kind fields =>
    simp only [perform, Command.withFailingStops, h.id?_eq]
    refine call_taken h sink fun said hsaid => ?_
    obtain ⟨_, _, rfl⟩ := Option.map_eq_some_iff.mp hsaid
    rfl
  | isVerbose sink =>
    rcases none_or_some (h.sink? sink) with ⟨ha, hb⟩ | ⟨_, _, ha, hb, hsink⟩
    · simp only [perform, Command.withFailingStops, ha, hb]
      exact ⟨rfl, h⟩
    · simp only [perform, Command.withFailingStops, ha, hb, hsink.isVerbose_eq]
      exact ⟨rfl, h⟩
  | printOutput sink text =>
    rcases none_or_some (h.sink? sink) with ⟨ha, hb⟩ | ⟨_, _, ha, hb, -⟩
    · simp only [perform, Command.withFailingStops, ha, hb]
      exact ⟨rfl, h⟩
    · simp only [perform, Command.withFailingStops, ha, hb]
      exact ⟨rfl, h⟩
  | print style text => exact print_taken h style text
  | messages sink level =>
    rcases none_or_some (h.sinks.lookup sink) with ⟨ha, hb⟩ | ⟨_, _, ha, hb, hsink⟩
    · simp only [perform, Command.withFailingStops, ha, hb]
      exact ⟨rfl, h⟩
    · simp only [perform, Command.withFailingStops, ha, hb, h.messagesOn_eq hsink]
      exact ⟨rfl, h⟩
  | parentOf sink id =>
    rcases none_or_some (h.sinks.lookup sink) with ⟨ha, hb⟩ | ⟨_, _, ha, hb, hsink⟩
    · simp only [perform, Command.withFailingStops, ha, hb]
      exact ⟨rfl, h⟩
    · simp only [perform, Command.withFailingStops, ha, hb, h.id?_eq]
      cases b.id? id with
      | none => exact ⟨rfl, h⟩
      | some id => exact ⟨congrArg Answer.parent (h.parentOn_eq hsink id), h⟩
  | nextId =>
    obtain ⟨hid, hbook⟩ := h.book.nextId
    exact ⟨congrArg Answer.id hid, h.withBook hbook⟩
  | start name start => exact startActivity_taken h name start
  | stop name => exact stopActivity_taken h name _
  | unwind name => exact stopActivity_taken h name _
  | describe name => exact ask_taken h name fun x y hactivity => hactivity.describe_eq
  | sinkOf name => exact ask_taken h name fun x y hactivity => h.nameOf_eq hactivity.sink
  | update name kind fields => exact updateActivity_taken h name kind fields
  | current => exact ⟨congrArg (fun context : Context => Answer.id context.current) h.context, h⟩
  | setCurrent id =>
    simp only [perform, Command.withFailingStops, h.id?_eq, h.context]
    split
    · exact ⟨rfl, h⟩
    · exact ⟨rfl, h.book, rfl, h.sinks, h.made, h.activities, h.guards, h.channels⟩
  | push name id =>
    simp only [perform, Command.withFailingStops, h.id?_eq]
    split
    · exact ⟨rfl, h⟩
    · exact push_taken h name _
  | release name => exact release_taken h name
  | openUnder name activity place =>
    rcases none_or_some (h.activities.lookup activity) with ⟨ha, hb⟩ | ⟨_, _, ha, hb, hactivity⟩
    · simp only [perform, Command.withFailingStops, ha, hb]
      exact ⟨rfl, h⟩
    · simp only [perform, Command.withFailingStops, ha, hb]
      exact openChannel_taken h name ⟨hactivity.id, hactivity.sink, .none, .nil, rfl⟩
  | openPinned name parent sink place =>
    simp only [perform, Command.withFailingStops, h.id?_eq]
    cases b.id? parent with
    | none => exact ⟨rfl, h⟩
    | some parent =>
      rcases none_or_some (h.sink? sink) with ⟨ha, hb⟩ | ⟨pinned, pinned', ha, hb, hsink⟩
      · simp only [ha, hb]
        exact ⟨rfl, h⟩
      · have hpinned :
            (Channel.pinned parent pinned place).Matches (Channel.pinned parent pinned' place) :=
          ⟨rfl, hsink, .some hsink, .nil, rfl⟩
        simp only [ha, hb]
        exact openChannel_taken h name hpinned
  | line name line source trusted => exact feedLine_taken h name line source trusted
  | message name line trusted => exact feedMessage_taken h name line trusted
  | pump sink name source trusted => exact pump_taken h sink name source trusted
  | inspect name remotes => exact inspect_taken h name remotes
  | close name =>
    rcases none_or_some (h.channels.lookup name) with ⟨ha, hb⟩ | ⟨_, _, ha, hb, hchannel⟩
    · simp only [perform, Command.withFailingStops, ha, hb]
      exact ⟨rfl, h⟩
    · simp only [perform, Command.withFailingStops, ha, hb]
      exact ⟨rfl, Channel.close_matches hchannel h.book, h.context, h.sinks, h.made,
        h.activities, h.guards, entrywise_without h.channels name⟩

/-! ## Effects -/

theorem isNote_of_effect? {session : Session} {entry : Entry} {effect : Effect}
    (h : session.effect? entry = some effect) : effect.isNote = entry.isNote := by
  cases entry with
  | note note =>
    obtain rfl := Option.some.inj h
    rfl
  | text output text =>
    cases output with
    | buffer id =>
      obtain ⟨_, _, rfl⟩ := Option.map_eq_some_iff.mp h
      rfl
    | stderr =>
      obtain rfl := Option.some.inj h
      rfl
  | call issuer sink call result =>
    simp only [effect?, Option.bind_eq_bind, Option.bind_eq_some_iff, Option.pure_def,
      Option.some.injEq] at h
    obtain ⟨_, _, _, _, rfl⟩ := h
    rfl

/-- The effects that are no notes come from the entries that are no notes. -/
theorem filter_effects (session : Session) (entries : List Entry) :
    (entries.filterMap session.effect?).filter (fun effect => !effect.isNote)
      = (withoutNotes entries).filterMap session.effect? := by
  rw [withoutNotes, List.filterMap_filter, List.filter_filterMap]
  congr 1
  funext entry
  cases heffect : session.effect? entry with
  | none => simp
  | some effect => simp [Option.filter, isNote_of_effect? heffect]

/-- An entry that matches is told in the same words. -/
theorem Matches.effect?_eq (h : a.Matches b) {entry entry' : Entry} (hentry : entry.Matches entry') :
    a.effect? entry = b.effect? entry' := by
  have hkept := hentry.kept?_eq
  cases hentry with
  | text output text => cases output <;> simp only [effect?, h.sinkName?_eq]
  | call issuer hsink call hsame => simp only [effect?, hkept, h.sinkName?_eq]

/-- A command only adds to the book. -/
theorem exists_added (session : Session) (command : Command) :
    ∃ added, (session.perform command).2.book.entries = session.book.entries ++ added := by
  by_cases hasks : command = .nextId
  · subst hasks
    exact ⟨[], (List.append_nil _).symm⟩
  · obtain ⟨added, hentries, -⟩ := session.draws_perform hasks
    exact ⟨added, hentries⟩

/-- What a command leads to differs in notes only. -/
theorem effectsSince_perform (h : a.Matches b) {command : Command}
    (hcalls : command.callsStop = false) :
    ((a.perform command).2.effectsSince a).filter (fun effect => !effect.isNote)
      = ((b.perform command.withFailingStops).2.effectsSince b).filter
        fun effect => !effect.isNote := by
  have hafter := (perform_taken h hcalls).session
  have hadded := h.book.withoutNotes_since hafter.book (a.exists_added command)
    (b.exists_added command.withFailingStops)
  rw [effectsSince, effectsSince, filter_effects, filter_effects]
  exact filterMap_eq_of_forall₂ hadded fun _ _ hentry => hafter.effect?_eq hentry

end Session

/-! ## Runs -/

open Session

mutual

/-- **A step leads to the same**, apart from notes, if it tells no sink a stop itself. -/
theorem run_matches {a b : Session} (h : a.Matches b) (step : Step)
    (hcalls : step.callsStop = false) :
    Outcome.quiet (run step a).1 = Outcome.quiet (run step.withFailingStops b).1
      ∧ (run step a).2.Matches (run step.withFailingStops b).2 := by
  cases step with
  | command command =>
    have htaken := perform_taken h hcalls
    have heffects := effectsSince_perform h hcalls
    refine ⟨?_, htaken.session⟩
    simp only [run, Step.withFailingStops, Outcome.quiet, htaken.answer, heffects]
  | scope ref steps =>
    simp only [run, Step.withFailingStops, h.id?_eq]
    split
    next => exact ⟨rfl, h⟩
    next id _ =>
      have hinside := h.withContext (congrArg (Context.enter · id) h.context)
      obtain ⟨houtcomes, hafter⟩ := runAll_matches hinside steps hcalls
      refine ⟨?_, hafter.withContext (congrArg Context.leave hafter.context)⟩
      simp only [Outcome.quiet, Answer.quiet, houtcomes]
  | thread steps =>
    obtain ⟨houtcomes, hafter⟩ := runAll_matches (h.withContext rfl) steps hcalls
    refine ⟨?_, hafter.withContext h.context⟩
    simp only [run, Step.withFailingStops, Outcome.quiet, Answer.quiet, houtcomes]
  | future ref steps =>
    simp only [run, Step.withFailingStops, h.id?_eq]
    split
    next => exact ⟨rfl, h⟩
    next id _ =>
      obtain ⟨houtcomes, houtside, hafter⟩ := drive_matches h steps (Eq.refl id) hcalls
      refine ⟨?_, hafter⟩
      simp only [Outcome.quiet, Answer.quiet, houtcomes, houtside]

/-- The steps of a block have the same outcomes on both sides, notes apart. -/
theorem runAll_matches {a b : Session} (h : a.Matches b) (steps : List Step)
    (hcalls : anyCallsStop steps = false) :
    quietAll (runAll steps a).1 = quietAll (runAll (withFailingStopsAll steps) b).1
      ∧ (runAll steps a).2.Matches (runAll (withFailingStopsAll steps) b).2 := by
  cases steps with
  | nil => exact ⟨rfl, h⟩
  | cons step steps =>
    obtain ⟨hstep, hsteps⟩ := Bool.or_eq_false_iff.mp hcalls
    obtain ⟨houtcome, hafter⟩ := run_matches h step hstep
    obtain ⟨houtcomes, hlast⟩ := runAll_matches hafter steps hsteps
    refine ⟨?_, hlast⟩
    simp only [runAll, withFailingStopsAll, quietAll_cons, houtcome, houtcomes]

/-- The steps of a future have the same outcomes, and leave the same id for its next part. -/
theorem drive_matches {a b : Session} (h : a.Matches b) (steps : List Step) {id id' : UInt64}
    (hid : id = id') (hcalls : anyCallsStop steps = false) :
    quietAll (drive steps id a).1 = quietAll (drive (withFailingStopsAll steps) id' b).1
      ∧ (drive steps id a).2.1 = (drive (withFailingStopsAll steps) id' b).2.1
      ∧ (drive steps id a).2.2.Matches (drive (withFailingStopsAll steps) id' b).2.2 := by
  cases steps with
  | nil => exact ⟨rfl, rfl, h⟩
  | cons step steps =>
    obtain ⟨hstep, hsteps⟩ := Bool.or_eq_false_iff.mp hcalls
    have henter := h.withContext (congrArg₂ Context.enter h.context hid)
    obtain ⟨houtcome, hinside⟩ := run_matches henter step hstep
    have hleave := hinside.withContext (congrArg Context.leave hinside.context)
    have hcurrent := congrArg Context.current hinside.context
    obtain ⟨houtcomes, houtside, hlast⟩ := drive_matches hleave steps hcurrent hsteps
    refine ⟨?_, ?_, hlast⟩
    · simp only [drive, withFailingStopsAll, quietAll_cons, houtcome, houtcomes]
    · exact congrArg₂ List.cons (congrArg Context.current hleave.context) houtside

end

/-! ## What can be seen -/

/-- The numbers of the named activities. -/
def Session.activityIds (session : Session) : List (String × UInt64) :=
  session.activities.map fun entry => (entry.1, entry.2.id)

/-- The parent of a channel, and the numbers that activities of the other program have here. -/
def registry (channel : Channel) : UInt64 × List (UInt64 × UInt64) :=
  (channel.parent, channel.running.map fun entry => (entry.1, entry.2.id))

def Session.registries (session : Session) : List (String × UInt64 × List (UInt64 × UInt64)) :=
  session.channels.map fun entry => (entry.1, registry entry.2)

/-- Two sessions that look the same. -/
structure Session.SeenAlike (a b : Session) : Prop where
  kept : ∀ sink, a.book.keptOn sink = b.book.keptOn sink
  text : ∀ output, a.book.textOn output = b.book.textOn output
  sinkNames : a.sinkName? = b.sinkName?
  active : a.book.active.id = b.book.active.id
  threshold : a.book.threshold = b.book.threshold
  issued : a.book.issued = b.book.issued
  context : a.context = b.context
  guards : a.guards = b.guards
  activities : a.activityIds = b.activityIds
  registries : a.registries = b.registries

/-- What can be seen of sessions that match is the same. -/
theorem Session.Matches.seenAlike {a b : Session} (h : a.Matches b) : a.SeenAlike b where
  kept := h.book.keptOn_eq
  text := h.book.textOn_eq
  sinkNames := h.sinkName?_eq
  active := h.book.active.id_eq
  threshold := h.book.threshold
  issued := h.book.issued
  context := h.context
  guards := h.guards
  activities := h.activities.map_eq fun _ _ hactivity => hactivity.id
  registries := by
    refine h.channels.map_eq fun _ _ hchannel => ?_
    rw [registry, registry, hchannel.parent,
      hchannel.running.map_eq fun _ _ hactivity => hactivity.id]

/--
**Stops that fail go unnoticed.**

Take any steps among which no sink is told a stop directly, and let every recorder that they make
refuse stops. Whatever lets go of an activity, each step still has the same answer and leads to the
same calls on every sink, to the same text and to no other effect than notes. In the end every sink
has kept the same calls, the same activities are current and known by name, the channels know the
same, and as many numbers have been given out. Since this holds for any steps, it holds at any time
of a run.
-/
theorem failing_stops_unnoticed {steps : List Step} (hcalls : anyCallsStop steps = false)
    (session : Session) :
    let obliging := runAll steps session
    let refusing := runAll (withFailingStopsAll steps) session
    quietAll obliging.1 = quietAll refusing.1 ∧ obliging.2.SeenAlike refusing.2 := by
  obtain ⟨houtcomes, hafter⟩ := runAll_matches session.matches_refl steps hcalls
  exact ⟨houtcomes, hafter.seenAlike⟩

/-- Activities that are replaced, lost on the way out, stopped by the other program, and left to a
channel that is closed. -/
def farewells : List Step :=
  [.command (.makeSink "r" (.recorder fun _ _ => false)),
    .command (.install "r"),
    .command (.start "a" { kind := .build }),
    .command (.start "a" { kind := .build }),
    .future (.activity "a") [.command (.start "b" { kind := .build }), .command (.unwind "b")],
    .command (.openUnder "c" "a"),
    .command (.line "c" (Wire.Record.start 1 .info .build "" 0 []).line "builder" true),
    .command (.line "c" (Wire.Record.start 2 .info .build "" 0 []).line "builder" true),
    .command (.line "c" (Wire.Record.stop 1).line "builder" true),
    .command (.close "c"),
    .command (.stop "a")]

/-- Each of the five stops has failed, and was noted. -/
theorem failing_stops_unnoticed_farewells :
    let obliging := runAll farewells {}
    let refusing := runAll (withFailingStopsAll farewells) {}
    anyCallsStop farewells = false
      ∧ refusing.2.book.entries.length = obliging.2.book.entries.length + 5
      ∧ quietAll obliging.1 = quietAll refusing.1 ∧ obliging.2.SeenAlike refusing.2 := by
  intro obliging refusing
  have hcalls : anyCallsStop farewells = false := rfl
  exact ⟨hcalls, by decide +kernel, failing_stops_unnoticed hcalls {}⟩

end Worklog.Script
