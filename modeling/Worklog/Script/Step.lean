import Worklog.Channel

/-!
# Scripts

A script is a list of steps that a program takes: it makes sinks, starts and stops activities, makes
guards and releases them, and feeds lines to channels. Sinks, activities, guards and channels have
names in the script; a name that is given again stands for the new object from then on. Three kinds
of steps are blocks with steps of their own: a scope, another thread, and a future, which is
suspended after each of its steps.
-/

namespace Worklog.Script

/-- A number for an activity, given as such or as that of a named activity. -/
inductive Ref where
  | id (id : UInt64)
  | activity (name : String)
deriving DecidableEq, Repr

inductive SinkPlan where
  | recorder (refuses : Nat → Call → Bool)
  | fuse (capacity : Nat)
  | plain (settings : Settings) (target : Target)
  /-- A plain sink on the error output that finds out about its surroundings. -/
  | detected (options : Options) (surroundings : Surroundings)
  | wire (showTrace : Bool) (behind : String)
  | foreign (verbose : Bool) (replies : List Call → Call → Except Failure Unit)

/-- What is given of an activity when it starts. A sink that is not named is the active one. -/
structure Start where
  kind : ActivityKind
  level : Level := .normal
  text : String := ""
  fields : List Field := []
  parent : Option Ref := none
  sink : Option String := none

/-- A step without steps of its own. A sink that is not named is the active one. -/
inductive Command where
  | makeSink (name : String) (plan : SinkPlan)
  | setThreshold (level : Level)
  | install (sink : String)
  | showActive
  | call (sink : Option String) (call : Call)
  | startCall (sink : Option String) (id : Ref) (level : Level) (kind : ActivityKind)
      (text : String) (fields : List Field) (parent : Ref)
  | stopCall (sink : Option String) (id : Ref)
  | updateCall (sink : Option String) (id : Ref) (kind : UpdateKind) (fields : List Field)
  | isVerbose (sink : Option String)
  | printOutput (sink : Option String) (text : String)
  | print (style : Logbook.Style) (text : String)
  | messages (sink : String) (level : Level)
  | parentOf (sink : String) (id : Ref)
  | nextId
  | start (name : String) (start : Start)
  | stop (name : String)
  /-- An activity is lost because the program gives up what it was doing. -/
  | unwind (name : String)
  | describe (name : String)
  | sinkOf (name : String)
  | update (name : String) (kind : UpdateKind) (fields : List Field)
  | current
  | setCurrent (id : Ref)
  | push (guard : String) (id : Ref)
  | release (guard : String)
  /-- The places say in which order the channel lets go of what is running at its end. -/
  | openUnder (channel : String) (activity : String) (place : UInt64 → Nat := fun _ => 0)
  | openPinned (channel : String) (parent : Ref) (sink : Option String)
      (place : UInt64 → Nat := fun _ => 0)
  | line (channel : String) (line source : String) (trusted : Bool)
  | message (channel : String) (line : String) (trusted : Bool)
  /-- Feeds all lines that a sink has kept so far. -/
  | pump (sink : String) (channel : String) (source : String) (trusted : Bool)
  | inspect (channel : String) (remotes : List UInt64)
  | close (channel : String)
deriving Inhabited

inductive Step where
  | command (command : Command)
  /-- Steps in a scope of their own. -/
  | scope (id : Ref) (steps : List Step)
  /-- Steps on another thread. -/
  | thread (steps : List Step)
  /-- Steps of a future whose context is a scope. -/
  | future (id : Ref) (steps : List Step)
deriving Inhabited

/-! ## Answers -/

/-- What a step leads to besides its answer. -/
inductive Effect where
  /-- A call was kept by the sink of this name. -/
  | call (sink : String) (call : Call)
  /-- A text was written to the buffer of the sink of this name. -/
  | text (sink : String) (text : String)
  /-- A text was written to the error output. -/
  | errorText (text : String)
  | note (note : Note)

/-- What has become of a line, and how many activities the channel runs after it. -/
structure LineAnswer where
  result : Except Channel.Trouble Bool
  size : Nat

inductive Answer where
  | done (result : Except Failure Unit)
  | settings (settings : Settings)
  | threshold (old new : Level)
  | sink (name : String) (isVerbose : Bool)
  | replaced (name : String) (isVerbose : Bool)
  | bool (value : Bool)
  | output (text : String)
  | printed (result : Except Failure Unit) (count : Nat)
  | texts (texts : List String)
  | id (id : UInt64)
  | parent (id : Option UInt64)
  | started (id : UInt64)
  | unwound
  | text (text : String)
  | line (answer : LineAnswer)
  | message (answer : LineAnswer)
  | noMessage
  | malformed (problem : Json.Problem)
  | lines (answers : List LineAnswer)
  | channel (size : Nat) (remotes : List (UInt64 × Option UInt64))
  | block (outcomes : List (Answer × List Effect))
  /-- The outcomes of a future's steps, and what was current outside at each suspension. -/
  | future (outcomes : List (Answer × List Effect)) (outside : List UInt64)
  /-- A name that stands for nothing. -/
  | unknownName

/-- What a step answers, and what it leads to by itself. The effects of the steps in a block belong
to the outcomes of these steps. -/
abbrev Outcome := Answer × List Effect

end Worklog.Script
