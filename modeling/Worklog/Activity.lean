import Worklog.Context
import Worklog.Logbook

/-!
# Activities

A running activity is a handle: its number, and the sink that was told of its start. Updates and the
stop go to that sink, whichever sink is active by then. An activity whose start fails never runs,
but has used up its number.
-/

namespace Worklog

structure Activity where
  id : UInt64
  sink : Sink

instance : Inhabited Activity := ⟨⟨0, default⟩⟩

/-- What is known of an activity before it starts. -/
structure Plan where
  kind : ActivityKind
  level : Level := .normal
  text : String := ""
  fields : List Field := []
  /-- The parent, if it is not the current activity. -/
  parent : Option UInt64 := none
  /-- The sink, if it is not the active one. -/
  sink : Option Sink := none

namespace Activity

/-- Starts an activity on a sink, under a parent. -/
def start (sink : Sink) (level : Level) (kind : ActivityKind) (text : String)
    (fields : List Field) (parent : UInt64) (book : Logbook) :
    Except Failure Activity × Logbook :=
  let (id, book) := book.nextId
  match Logbook.emit .handle sink (.start id level kind text fields parent) book with
  | (.error failure, book) => (.error failure, book)
  | (.ok (), book) => (.ok ⟨id, sink⟩, book.addNote (.activityStarted id parent kind))

/-- Starts a planned activity. What the plan leaves open is taken from the context and the book. -/
def ofPlan (plan : Plan) (context : Context) (book : Logbook) :
    Except Failure Activity × Logbook :=
  start (plan.sink.getD book.active) plan.level plan.kind plan.text plan.fields
    (plan.parent.getD context.current) book

def update (activity : Activity) (kind : UpdateKind) (fields : List Field) (book : Logbook) :
    Except Failure Unit × Logbook :=
  Logbook.emit .handle activity.sink (.update activity.id kind fields) book

/-- Stops an activity. A failure is noted and goes no further. -/
def stop (activity : Activity) (book : Logbook) : Logbook :=
  match Logbook.emit .handle activity.sink (.stop activity.id) book with
  | (.error failure, book) => book.addNote (.stopFailed activity.id failure)
  | (.ok (), book) => book

def describe (activity : Activity) : String :=
  "Activity \x7b id: " ++ Nat.repr activity.id.toNat ++ " \x7d"

/-! ## Updates with a fixed meaning -/

def progressFields (done expected running failed : UInt64) : List Field :=
  [.natural done, .natural expected, .natural running, .natural failed]

/-- How much is to be expected of a kind of activity. -/
def expectationFields (kind : ActivityKind) (amount : UInt64) : List Field :=
  [.ofActivityKind kind, .natural amount]

def phaseFields (name : String) : List Field := [.text name]

end Activity

end Worklog
