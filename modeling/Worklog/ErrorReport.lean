import Worklog.Level
import Worklog.Terminal.Color

/-!
# Error reports

An error with the place in a source file where it was found, and with frames that say what was being
done when it passed through. Frames are added as the error travels outwards, so the first one is the
innermost; they are shown like a call stack, outermost first.

* `stack_addFrame` — the frame added last is shown first.
-/

namespace Worklog

open Terminal (Color)

/-- A point of a source file. -/
structure SourcePoint where
  file : String
  line : UInt32
  column : UInt32
deriving DecidableEq, Repr, Inhabited

def SourcePoint.display (point : SourcePoint) : String :=
  point.file ++ ":" ++ Nat.repr point.line.toNat ++ ":" ++ Nat.repr point.column.toNat

/-- What was being done when an error passed through. -/
structure Frame where
  hint : String
  point : Option SourcePoint
deriving DecidableEq, Repr, Inhabited

structure ErrorReport where
  level : Level
  message : String
  point : Option SourcePoint
  frames : List Frame
deriving DecidableEq, Repr, Inhabited

namespace ErrorReport

def addFrame (report : ErrorReport) (frame : Frame) : ErrorReport :=
  { report with frames := report.frames ++ [frame] }

/-- The frames, outermost first. -/
def stack (report : ErrorReport) : List Frame := report.frames.reverse

@[simp] theorem stack_addFrame (report : ErrorReport) (frame : Frame) :
    (report.addFrame frame).stack = frame :: report.stack := by
  simp [addFrame, stack]

/-! ## Text -/

/-- The word that a report starts with, and its colour. -/
def heading : Level → Color × String
  | .error => (.red, "error:")
  | .warn => (.magenta, "warning:")
  | .notice => (.green, "note:")
  | .info => (.green, "info:")
  | .talkative => (.green, "talk:")
  | .chatty => (.green, "chat:")
  | .debug => (.yellow, "debug:")
  | .vomit => (.green, "vomit:")

/-- A point on a line of its own, after the line that it belongs to. -/
def pointLine (indent : String) : Option SourcePoint → String
  | none => ""
  | some point => "\n" ++ indent ++ "at " ++ Color.blue.paint point.display

def frameLines (frame : Frame) : String :=
  "\n       … " ++ frame.hint ++ pointLine "         " frame.point

/-- The report for a terminal. Frames are shown only if asked for. -/
def render (report : ErrorReport) (withTrace : Bool) : String :=
  (heading report.level).1.paint (heading report.level).2 ++ " " ++ report.message
    ++ pointLine "       " report.point
    ++ (if withTrace then String.join (report.stack.map frameLines) else "")

end ErrorReport

end Worklog
