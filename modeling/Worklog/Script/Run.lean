import Worklog.Script.Session

/-!
# Running scripts

Blocks change where their steps find the current activity, and nothing else: a scope opens a scope
around them, a thread starts with no current activity, and a future carries its scope from one step
to the next, while the thread that drives it sees its own context at every suspension.
-/

namespace Worklog.Script

mutual

/-- Takes a step. -/
def run : Step → Session → Outcome × Session
  | .command command, session =>
    let (answer, after) := session.perform command
    ((answer, after.effectsSince session), after)
  | .scope ref steps, session =>
    match session.id? ref with
    | none => ((.unknownName, []), session)
    | some id =>
      let (outcomes, after) := runAll steps { session with context := session.context.enter id }
      ((.block outcomes, []), { after with context := after.context.leave })
  | .thread steps, session =>
    let (outcomes, after) := runAll steps { session with context := {} }
    ((.block outcomes, []), { after with context := session.context })
  | .future ref steps, session =>
    match session.id? ref with
    | none => ((.unknownName, []), session)
    | some id =>
      let (outcomes, outside, after) := drive steps id session
      ((.future outcomes outside, []), after)

/-- Takes steps one after the other. -/
def runAll : List Step → Session → List Outcome × Session
  | [], session => ([], session)
  | step :: steps, session =>
    let (outcome, session) := run step session
    let (outcomes, session) := runAll steps session
    (outcome :: outcomes, session)

/-- Takes the steps of a future, each in the future's scope, whose current activity is kept from one
step to the next. After each step the future is suspended, and the current activity of the context
around it is looked at. -/
def drive : List Step → UInt64 → Session → List Outcome × List UInt64 × Session
  | [], _, session => ([], [], session)
  | step :: steps, id, session =>
    let (outcome, inside) := run step { session with context := session.context.enter id }
    let session := { inside with context := inside.context.leave }
    -- The step may have changed what is current in the future's scope.
    let (outcomes, outside, after) := drive steps inside.context.current session
    (outcome :: outcomes, session.context.current :: outside, after)

end

end Worklog.Script
