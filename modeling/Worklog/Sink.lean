import Worklog.PlainText

/-!
# Sinks

Where calls go. A recorder keeps them for inspection; it can be made to refuse any of them. A fuse
keeps messages until it blows. A plain sink writes text for a human reader. A wire sink turns each
call into a record and sends the line on as a message to the sink behind it. A foreign sink belongs to
the program that uses the library, and may reply to a call as it likes.

A sink is known by its number, and two sinks with one number are the same sink. What it has been
told is in the logbook.
-/

namespace Worklog

/-- Why a call failed. -/
inductive Failure where
  | sinkClosed
  /-- What a foreign sink gives as its reason. -/
  | reported (reason : String)
deriving DecidableEq, Repr

def Failure.message : Failure → String
  | sinkClosed => "sink closed"
  | reported reason => reason

/-- Where a plain sink writes. -/
inductive Target where
  /-- A buffer of its own. -/
  | buffer
  | stderr
  /-- An output that takes nothing any more. -/
  | closed
deriving DecidableEq, Repr

inductive Sink where
  /-- Keeps every call, also the refused ones. Whether a call is refused depends on how many calls
  came before it. -/
  | recorder (id : Nat) (refuses : Nat → Call → Bool)
  /-- Keeps as many messages as it has capacity for, and fails for the others. -/
  | fuse (id : Nat) (capacity : Nat)
  | plain (id : Nat) (settings : Settings) (target : Target)
  | wire (id : Nat) (showTrace : Bool) (behind : Sink)
  /-- Replies by a rule of its own to a call and to all that it was told before. -/
  | foreign (id : Nat) (verbose : Bool) (replies : List Call → Call → Except Failure Unit)

namespace Sink

def id : Sink → Nat
  | recorder id _ => id
  | fuse id _ => id
  | plain id _ _ => id
  | wire id _ _ => id
  | foreign id _ _ => id

/-- Whether it is worth to tell the sink every detail. -/
def isVerbose : Sink → Bool
  | recorder .. => true
  | fuse .. => false
  | plain _ settings _ => settings.printBuildLogs
  | wire .. => true
  | foreign _ verbose _ => verbose

/-- The sink that is active until another one is installed. It has the number `0`. -/
def standard : Sink := plain 0 ⟨false, true, false, false⟩ .stderr

end Sink

instance : Inhabited Sink := ⟨.standard⟩

end Worklog
