import Worklog.Json.Basic
import Worklog.Kind
import Worklog.Level

/-!
# Messages

What a program understands of another one's records: the actions, their keys, and which of those may
be left out. The raw fields of an activity are not looked at here, so that a message that is not
wanted never fails for them.
-/

namespace Worklog.Wire

/-! ## Messages and their keys -/

inductive Message where
  | message (level : Level) (text : String) (raw : Option String)
  | start (id : UInt64) (level : Level) (kind : ActivityKind) (text : String) (parent : UInt64)
      (fields : Option (List Json))
  | stop (id : UInt64)
  | update (id : UInt64) (kind : UpdateKind) (fields : Option (List Json))
  | phase (name : String)
  /-- An action of a newer program. -/
  | unknown
deriving Repr, Inhabited

inductive Action where
  | message
  | start
  | stop
  | update
  | phase
  | unknown
deriving DecidableEq, Repr

inductive Key where
  | level
  | message
  | raw
  | id
  | type
  | text
  | parent
  | fields
  | phase
deriving DecidableEq, Repr

def Key.name : Key → String
  | level => "level"
  | message => "msg"
  | raw => "raw_msg"
  | id => "id"
  | type => "type"
  | text => "text"
  | parent => "parent"
  | fields => "fields"
  | phase => "phase"

/-- A body may do without these. -/
def Key.isOptional : Key → Bool
  | raw | parent | fields => true
  | _ => false

namespace Action

def ofName (name : String) : Action :=
  if name = "msg" then message
  else if name = "start" then start
  else if name = "stop" then stop
  else if name = "result" then update
  else if name = "setPhase" then phase
  else unknown

/-- The keys of an action, in the order in which a list gives their values. -/
def keys : Action → List Key
  | message => [.level, .message, .raw]
  | start => [.id, .level, .type, .text, .parent, .fields]
  | stop => [.id]
  | update => [.id, .type, .fields]
  | phase => [.phase]
  | unknown => []

/-- How a complaint about a list names the action. -/
def title : Action → String
  | message => "Msg"
  | start => "Start"
  | stop => "Stop"
  | update => "Result"
  | phase => "SetPhase"
  | unknown => "Unknown"

/-- A number of elements. -/
def elements (n : Nat) : String := Nat.repr n ++ (if n = 1 then " element" else " elements")

def expected (action : Action) : String :=
  "struct variant InternalLog::" ++ action.title ++ " with " ++ elements action.keys.length

end Action

end Worklog.Wire
