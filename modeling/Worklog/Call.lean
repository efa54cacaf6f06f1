import Worklog.ErrorReport
import Worklog.Field
import Worklog.Options
import Worklog.Wire.Record

/-!
# Calls

What a sink can be told: a message, an error report, and the start, the updates and the stop of an
activity. A call has two written forms, a record on the wire and a message in plain text. Not every
call has something to say in plain text.
-/

namespace Worklog

open Terminal (Color)

inductive Call where
  | log (level : Level) (text : String)
  | report (error : ErrorReport)
  | start (id : UInt64) (level : Level) (kind : ActivityKind) (text : String)
      (fields : List Field) (parent : UInt64)
  | stop (id : UInt64)
  | update (id : UInt64) (kind : UpdateKind) (fields : List Field)
deriving DecidableEq, Repr

namespace Call

/-- A warning is a message with a coloured heading. -/
def warning (text : String) : Call :=
  log .warn (Color.magenta.paint "warning:" ++ " " ++ text)

/-- The activity that a call is about. -/
def activity? : Call → Option UInt64
  | log .. => none
  | report _ => none
  | start id .. => some id
  | stop id => some id
  | update id .. => some id

def isStop : Call → Bool
  | stop _ => true
  | _ => false

/-- Whether the call is a message or an error report. -/
def isMessage : Call → Bool
  | log .. => true
  | report _ => true
  | _ => false

/-! ## On the wire -/

/-- The record of a call. An error report is rendered, and sent with its parts beside it; its frames
are sent only if they are shown. -/
def record (showTrace : Bool) : Call → Wire.Record
  | log level text => .message level text none none none
  | report error =>
    .message error.level (error.render showTrace) (some error.message) error.point
      (if showTrace ∧ error.frames ≠ [] then some error.stack else none)
  | start id level kind text fields parent => .start id level kind text parent fields
  | stop id => .stop id
  | update id kind fields => .update id kind fields

/-! ## In plain text -/

/-- The text that the first field of an update holds. -/
def firstText? (fields : List Field) : Option String := fields.head?.bind Field.text?

/-- What an update says: a line of output is shown, all else is not. -/
def updateText? : UpdateKind → List Field → Option String
  | .buildLogLine, fields => firstText? fields
  | .postBuildLogLine, fields => (firstText? fields).map ("post-build-hook: " ++ ·)
  | _, _ => none

/-- The level of a call whose text is still to be put together. -/
def levelBefore? : Call → Option Level
  | report error => some error.level
  | start _ level .. => some level
  | _ => none

/-- What a call says in plain text, and how important that is. -/
def plain (settings : Settings) : Call → Option (Level × String)
  | log level text => some (level, text)
  | report error => some (error.level, error.render settings.showTrace)
  | start _ level _ text _ _ => if text.isEmpty then none else some (level, text ++ "...")
  | stop _ => none
  | update _ kind fields =>
    if settings.printBuildLogs then (updateText? kind fields).map ((.error, ·)) else none

/-- The text that is put together is as important as the call was before. -/
theorem levelBefore?_of_plain {settings : Settings} {call : Call} {level : Level} {text : String}
    (h : call.plain settings = some (level, text)) :
    call.levelBefore? = none ∨ call.levelBefore? = some level := by
  cases call with
  | log _ _ => exact .inl rfl
  | report error =>
    rw [plain, Option.some.injEq, Prod.mk.injEq] at h
    exact .inr (congrArg some h.1)
  | start id other kind said fields parent =>
    rw [plain, Option.ite_none_left_eq_some, Option.some.injEq, Prod.mk.injEq] at h
    exact .inr (congrArg some h.2.1)
  | stop id => exact .inl rfl
  | update id kind fields => exact .inl rfl

end Call

end Worklog
