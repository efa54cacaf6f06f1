import Worklog.ErrorReport
import Worklog.Field
import Worklog.Wire.Marker

/-!
# Records

What a program writes about its work: messages, and the start, the updates and the stop of an
activity. A record is written as one object on one marked line, its members in a fixed order, and
those that have nothing to say left out.

-/

namespace Worklog.Wire

inductive Record where
  | message (level : Level) (text : String) (raw : Option String) (point : Option SourcePoint)
      (trace : Option (List Frame))
  | start (id : UInt64) (level : Level) (kind : ActivityKind) (text : String) (parent : UInt64)
      (fields : List Field)
  | stop (id : UInt64)
  | update (id : UInt64) (kind : UpdateKind) (fields : List Field)
deriving DecidableEq, Repr

namespace Record

/-! ## Members -/

abbrev Members := List (String × Json)

def natural (n : UInt64) : Json := .number (.natural n)

def levelMember (level : Level) : String × Json :=
  ("level", natural (UInt64.ofNat level.rank))

/-- A member that is left out if there is nothing to say. -/
def optional (name : String) : Option Json → Members
  | none => []
  | some value => [(name, value)]

/-- A point is spread over three members. -/
def pointMembers : Option SourcePoint → Members
  | none => []
  | some point =>
    [("line", natural point.line.toUInt64), ("column", natural point.column.toUInt64),
      ("file", .string point.file)]

def frameValue (frame : Frame) : Json :=
  .object (("raw_msg", .string frame.hint) :: pointMembers frame.point)

def fieldsMember (fields : List Field) : Members :=
  if fields.isEmpty then [] else [("fields", .list (fields.map Field.toJson))]

/-- The name of what a record says. -/
def action : Record → String
  | message .. => "msg"
  | start .. => "start"
  | stop .. => "stop"
  | update .. => "result"

/-- The members after the action. -/
def body : Record → Members
  | message level text raw point trace =>
    [levelMember level, ("msg", .string text)]
      ++ optional "raw_msg" (raw.map Json.string)
      ++ pointMembers point
      ++ optional "trace" (trace.map fun frames => .list (frames.map frameValue))
  | start id level kind text parent fields =>
    [("id", natural id), levelMember level, ("type", natural kind.code), ("text", .string text),
      ("parent", natural parent)] ++ fieldsMember fields
  | stop id => [("id", natural id)]
  | update id kind fields =>
    [("id", natural id), ("type", natural kind.code)] ++ fieldsMember fields

def toJson (record : Record) : Json :=
  .object (("action", .string record.action) :: record.body)

/-- The line that a record is sent as. -/
def line (record : Record) : String := mark record.toJson.text

end Record

end Worklog.Wire
