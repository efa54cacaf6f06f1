import Worklog.Script.Step

/-!
# Sessions

What a script works on: the logbook, the context of the thread that takes the steps, and the named
objects. `perform` takes one step that is not a block.

An object whose name is given again is let go of once the new one is there: an activity stops, a
guard is released, a channel is closed. A sink is still used by those who have it, but what it does
is shown no more.
-/

namespace Worklog.Script

structure Session where
  book : Logbook := {}
  context : Context := {}
  sinks : List (String × Sink) := []
  /-- How many sinks have been made. -/
  made : Nat := 0
  activities : List (String × Activity) := []
  guards : List (String × Guard) := []
  channels : List (String × Channel) := []

namespace Session

/-! ## Names -/

/-- The entries of a table without those of a name. -/
def without {α : Type} (name : String) (table : List (String × α)) : List (String × α) :=
  table.filter fun entry => entry.1 ≠ name

/-- A table with a new entry for a name. -/
def withEntry {α : Type} (name : String) (value : α) (table : List (String × α)) :
    List (String × α) :=
  (name, value) :: without name table

def sink? (session : Session) : Option String → Option Sink
  | none => some session.book.active
  | some name => session.sinks.lookup name

def id? (session : Session) : Ref → Option UInt64
  | .id id => some id
  | .activity name => (session.activities.lookup name).map Activity.id

/-! ## Sinks -/

/-- The name that stands for the sink with this number. -/
def sinkName? (session : Session) (id : Nat) : Option String :=
  (session.sinks.find? fun entry => entry.2.id = id).map Prod.fst

/-- How a sink is called. The one that no name stands for is the standard one. -/
def nameOf (session : Session) (sink : Sink) : String :=
  (session.sinkName? sink.id).getD "(default)"

/-- The sink of a plan, with the next number, and what is said about it. -/
def planned (session : Session) (plan : SinkPlan) : Option (Sink × Answer) :=
  let id := session.made + 1
  match plan with
  | .recorder refuses => some (.recorder id refuses, .done (.ok ()))
  | .fuse capacity => some (.fuse id capacity, .done (.ok ()))
  | .plain settings target => some (.plain id settings target, .done (.ok ()))
  | .detected options surroundings =>
    let settings := options.resolve surroundings
    some (.plain id settings .stderr, .settings settings)
  | .wire showTrace behind =>
    (session.sinks.lookup behind).map fun sink => (.wire id showTrace sink, .done (.ok ()))
  | .foreign verbose replies => some (.foreign id verbose replies, .done (.ok ()))

def makeSink (session : Session) (name : String) (plan : SinkPlan) : Answer × Session :=
  match session.planned plan with
  | none => (.unknownName, session)
  | some (sink, answer) =>
    (answer, { session with
      sinks := withEntry name sink session.sinks
      made := session.made + 1 })

/-- Makes a call on a sink. -/
def call (session : Session) (sink : Option String) (call : Option Call) : Answer × Session :=
  match session.sink? sink, call with
  | some sink, some call =>
    let (result, book) := Logbook.emit .user sink call session.book
    (.done result, { session with book })
  | _, _ => (.unknownName, session)

/-- The texts of the messages that a sink has kept, of one level. -/
def messagesOn (session : Session) (sink : Sink) (level : Level) : List String :=
  (session.book.keptOn sink.id).filterMap fun call => match call with
    | .log l text => if l = level then some text else none
    | _ => none

/-- The parent in the first start of an activity that a sink has kept. -/
def parentOn (session : Session) (sink : Sink) (id : UInt64) : Option UInt64 :=
  (session.book.keptOn sink.id).findSome? fun call => match call with
    | .start i _ _ _ _ parent => if i = id then some parent else none
    | _ => none

/-- What an entry shows. Sinks that no name stands for show nothing. -/
def effect? (session : Session) : Entry → Option Effect
  | .text (.buffer id) text => (session.sinkName? id).map fun name => .text name text
  | .text .stderr text => some (.errorText text)
  | .note note => some (.note note)
  | entry => do
    let (id, call) ← entry.kept?
    let name ← session.sinkName? id
    pure (.call name call)

/-- What the entries show that were added since an earlier session. -/
def effectsSince (after before : Session) : List Effect :=
  (after.book.entries.drop before.book.entries.length).filterMap after.effect?

/-! ## Activities -/

/-- The plan of an activity, once its names are looked up. -/
def planOf (session : Session) (start : Start) : Option Plan := do
  let parent ← match start.parent with
    | none => some none
    | some ref => (session.id? ref).map some
  let sink ← session.sink? start.sink
  pure ⟨start.kind, start.level, start.text, start.fields, parent, some sink⟩

def startActivity (session : Session) (name : String) (start : Start) : Answer × Session :=
  match session.planOf start with
  | none => (.unknownName, session)
  | some plan =>
    match Activity.ofPlan plan session.context session.book with
    | (.error failure, book) => (.done (.error failure), { session with book })
    | (.ok activity, book) =>
      -- An activity that had the name so far stops after the start of the new one.
      let book := match session.activities.lookup name with
        | none => book
        | some old => old.stop book
      (.started activity.id,
        { session with book, activities := withEntry name activity session.activities })

/-- Lets go of an activity. -/
def stopActivity (session : Session) (name : String) (answer : Answer) : Answer × Session :=
  match session.activities.lookup name with
  | none => (.unknownName, session)
  | some activity =>
    (answer, { session with
      book := activity.stop session.book
      activities := without name session.activities })

def updateActivity (session : Session) (name : String) (kind : UpdateKind)
    (fields : List Field) : Answer × Session :=
  match session.activities.lookup name with
  | none => (.unknownName, session)
  | some activity =>
    let (result, book) := activity.update kind fields session.book
    (.done result, { session with book })

/-- Answers a question about an activity. -/
def ask (session : Session) (name : String) (answer : Activity → String) : Answer × Session :=
  match session.activities.lookup name with
  | none => (.unknownName, session)
  | some activity => (.text (answer activity), session)

/-! ## Guards -/

def push (session : Session) (name : String) (id : UInt64) : Answer × Session :=
  let (guard, context) := Guard.push session.context id
  -- A guard that had the name so far is released after the new one is made.
  let context := match session.guards.lookup name with
    | none => context
    | some old => old.release context
  (.id context.current, { session with context, guards := withEntry name guard session.guards })

def release (session : Session) (name : String) : Answer × Session :=
  match session.guards.lookup name with
  | none => (.unknownName, session)
  | some guard =>
    let context := guard.release session.context
    (.id context.current, { session with context, guards := without name session.guards })

/-! ## Channels -/

def openChannel (session : Session) (name : String) (channel : Channel) : Answer × Session :=
  let book := match session.channels.lookup name with
    | none => session.book
    | some old => old.close session.book
  (.done (.ok ()), { session with book, channels := withEntry name channel session.channels })

/-- A session after a channel has handled something. -/
def afterHandled (session : Session) (name : String) (handled : Channel.Handled) : Session :=
  { session with
    book := handled.book
    channels := withEntry name handled.channel session.channels }

def lineAnswer (handled : Channel.Handled) : LineAnswer := ⟨handled.result, handled.channel.size⟩

def feedLine (session : Session) (name line source : String) (trusted : Bool) :
    Answer × Session :=
  match session.channels.lookup name with
  | none => (.unknownName, session)
  | some channel =>
    let handled := channel.handleLine line source trusted session.book
    (.line (lineAnswer handled), session.afterHandled name handled)

def feedMessage (session : Session) (name line : String) (trusted : Bool) : Answer × Session :=
  match session.channels.lookup name with
  | none => (.unknownName, session)
  | some channel =>
    match Wire.Message.ofLine? line with
    | none => (.noMessage, session)
    | some (.error problem) => (.malformed problem, session)
    | some (.ok message) =>
      let handled := channel.handle message trusted session.book
      (.message (lineAnswer handled), session.afterHandled name handled)

/-- Feeds lines one after the other. -/
def feedLines (channel : Channel) (source : String) (trusted : Bool) :
    List String → Logbook → List LineAnswer × Channel × Logbook
  | [], book => ([], channel, book)
  | line :: lines, book =>
    let handled := channel.handleLine line source trusted book
    let (answers, channel, book) := feedLines handled.channel source trusted lines handled.book
    (lineAnswer handled :: answers, channel, book)

def pump (session : Session) (sink name source : String) (trusted : Bool) : Answer × Session :=
  match session.sinks.lookup sink, session.channels.lookup name with
  | some sink, some channel =>
    let (answers, channel, book) :=
      feedLines channel source trusted (session.messagesOn sink .error) session.book
    (.lines answers,
      { session with book, channels := withEntry name channel session.channels })
  | _, _ => (.unknownName, session)

/-! ## Commands -/

/-- Takes a step that is not a block. -/
def perform (session : Session) : Command → Answer × Session
  | .makeSink name plan => session.makeSink name plan
  | .setThreshold level =>
    (.threshold session.book.threshold level,
      { session with book := { session.book with threshold := level } })
  | .install name =>
    match session.sinks.lookup name with
    | none => (.unknownName, session)
    | some sink =>
      let old := session.book.active
      (.replaced (session.nameOf old) old.isVerbose,
        { session with book := session.book.install sink })
  | .showActive =>
    let sink := session.book.active
    (.sink (session.nameOf sink) sink.isVerbose, session)
  | .call sink call => session.call sink (some call)
  | .startCall sink id level kind text fields parent =>
    session.call sink do
      let id ← session.id? id
      let parent ← session.id? parent
      pure (.start id level kind text fields parent)
  | .stopCall sink id => session.call sink ((session.id? id).map .stop)
  | .updateCall sink id kind fields =>
    session.call sink ((session.id? id).map fun id => .update id kind fields)
  | .isVerbose sink =>
    match session.sink? sink with
    | none => (.unknownName, session)
    | some sink => (.bool sink.isVerbose, session)
  | .printOutput sink text =>
    match session.sink? sink with
    | none => (.unknownName, session)
    | some _ => (.output (text ++ "\n"), session)
  | .print style text =>
    let ((result, count), book) := session.book.print style text
    (.printed result count, { session with book })
  | .messages sink level =>
    match session.sinks.lookup sink with
    | none => (.unknownName, session)
    | some sink => (.texts (session.messagesOn sink level), session)
  | .parentOf sink id =>
    match session.sinks.lookup sink, session.id? id with
    | some sink, some id => (.parent (session.parentOn sink id), session)
    | _, _ => (.unknownName, session)
  | .nextId =>
    let (id, book) := session.book.nextId
    (.id id, { session with book })
  | .start name start => session.startActivity name start
  | .stop name => session.stopActivity name (.done (.ok ()))
  | .unwind name => session.stopActivity name .unwound
  | .describe name => session.ask name Activity.describe
  | .sinkOf name => session.ask name fun activity => session.nameOf activity.sink
  | .update name kind fields => session.updateActivity name kind fields
  | .current => (.id session.context.current, session)
  | .setCurrent id =>
    match session.id? id with
    | none => (.unknownName, session)
    | some id =>
      (.id session.context.current, { session with context := session.context.set id })
  | .push name id =>
    match session.id? id with
    | none => (.unknownName, session)
    | some id => session.push name id
  | .release name => session.release name
  | .openUnder name activity place =>
    match session.activities.lookup activity with
    | none => (.unknownName, session)
    | some activity => session.openChannel name (.under activity place)
  | .openPinned name parent sink place =>
    match session.id? parent, session.sink? sink with
    | some parent, some sink => session.openChannel name (.pinned parent sink place)
    | _, _ => (.unknownName, session)
  | .line name line source trusted => session.feedLine name line source trusted
  | .message name line trusted => session.feedMessage name line trusted
  | .pump sink name source trusted => session.pump sink name source trusted
  | .inspect name remotes =>
    match session.channels.lookup name with
    | none => (.unknownName, session)
    | some channel =>
      (.channel channel.size
        (remotes.map fun remote => (remote, (channel.find remote).map Activity.id)), session)
  | .close name =>
    match session.channels.lookup name with
    | none => (.unknownName, session)
    | some channel =>
      (.done (.ok ()), { session with
        book := channel.close session.book
        channels := without name session.channels })

end Session

end Worklog.Script
