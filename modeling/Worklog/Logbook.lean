import Worklog.Sink

/-!
# The logbook

What all parts of one program share: the threshold, the active sink, the numbers given to
activities, and the entries for everything that has happened, in order. Entries are only ever added.

* `extends_emit` — a call adds entries and changes nothing else.
-/

namespace Worklog

/-! ## Entries -/

/-- Who makes a call. -/
inductive Issuer where
  /-- The program itself. -/
  | user
  /-- The handle of a running activity, about that activity. -/
  | handle
  /-- A channel that passes on what another program says. -/
  | channel
deriving DecidableEq, Repr

/-- Something worth noticing when one looks for the cause of a surprise. -/
inductive Note where
  | activityStarted (id parent : UInt64) (kind : ActivityKind)
  | stopFailed (id : UInt64) (failure : Failure)
  | warningFailed (failure : Failure)
  | writeFailed
  | startRefused (remote : UInt64) (kind : ActivityKind)
  | startRepeated (remote : UInt64)
  | sinkReplaced
deriving DecidableEq, Repr

def Note.text : Note → String
  | activityStarted id parent kind =>
    "TRACE span activity activity_id=" ++ Nat.repr id.toNat ++ " parent_id="
      ++ Nat.repr parent.toNat ++ " typ=" ++ kind.name
  | stopFailed id failure =>
    "DEBUG ignoring error while stopping activity: " ++ failure.message ++ " activity_id="
      ++ Nat.repr id.toNat
  | warningFailed failure => "TRACE ignoring failed decode warning: " ++ failure.message
  | writeFailed => "TRACE ignoring failed log write: closed"
  | startRefused remote kind =>
    "TRACE dropping start from untrusted channel remote_id=" ++ Nat.repr remote.toNat ++ " typ="
      ++ kind.name
  | startRepeated remote =>
    "TRACE ignoring duplicate start remote_id=" ++ Nat.repr remote.toNat
  | sinkReplaced => "DEBUG replacing active logger"

/-- Where text can be found that has been written. -/
inductive Output where
  | buffer (sink : Nat)
  | stderr
deriving DecidableEq, Repr

inductive Entry where
  | call (issuer : Issuer) (sink : Sink) (call : Call) (result : Except Failure Unit)
  | text (output : Output) (text : String)
  | note (note : Note)

/-- The call that was kept, and the number of the sink that keeps it. A recorder and a foreign sink
keep what they refuse, a fuse does not; and a fuse looks at messages only. -/
def Entry.kept? : Entry → Option (Nat × Call)
  | call _ (.recorder id _) said _ => some (id, said)
  | call _ (.foreign id _ _) said _ => some (id, said)
  | call _ (.fuse id _) said (.ok ()) => if said.isMessage then some (id, said) else none
  | _ => none

/-! ## The book -/

structure Logbook where
  threshold : Level := .normal
  active : Sink := .standard
  processId : UInt32 := 1
  /-- How many numbers have been given to activities. -/
  issued : UInt64 := 0
  entries : List Entry := []

namespace Logbook

def add (book : Logbook) (entry : Entry) : Logbook :=
  { book with entries := book.entries ++ [entry] }

def addNote (book : Logbook) (note : Note) : Logbook := book.add (.note note)

/-- What a sink has kept so far. -/
def keptOn (book : Logbook) (sink : Nat) : List Call :=
  (book.entries.filterMap Entry.kept?).filterMap fun kept =>
    if kept.1 = sink then some kept.2 else none

/-- What has been written to an output so far. -/
def textOn (book : Logbook) (output : Output) : String :=
  String.join (book.entries.filterMap fun entry => match entry with
    | .text place text => if place = output then some text else none
    | _ => none)

/-! ## Numbers for activities -/

/-- A number for an activity: the number of the process above, a counter below. -/
def nextId (book : Logbook) : UInt64 × Logbook :=
  (book.issued ||| (book.processId.toUInt64 <<< 32), { book with issued := book.issued + 1 })

@[simp] theorem nextId_issued (book : Logbook) : book.nextId.2.issued = book.issued + 1 := rfl

@[simp] theorem nextId_entries (book : Logbook) : book.nextId.2.entries = book.entries := rfl

/-! ## Calls -/

/-- Writes a text to the target of a plain sink. That a closed output takes nothing is no failure of
the call. -/
def write (book : Logbook) (sink : Nat) (target : Target) (text : String) : Logbook :=
  match target with
  | .buffer => book.add (.text (.buffer sink) text)
  | .stderr => book.add (.text .stderr text)
  | .closed => book.addNote .writeFailed

/-- Makes a call and enters it, after all that it led to. -/
def emit (issuer : Issuer) : Sink → Call → Logbook → Except Failure Unit × Logbook
  | .recorder id refuses, call, book =>
    let result := if refuses (book.keptOn id).length call then .error .sinkClosed else .ok ()
    (result, book.add (.call issuer (.recorder id refuses) call result))
  | .fuse id capacity, call, book =>
    let blown := call.isMessage ∧ capacity ≤ (book.keptOn id).length
    let result := if blown then .error .sinkClosed else .ok ()
    (result, book.add (.call issuer (.fuse id capacity) call result))
  | .plain id settings target, call, book =>
    let book := match PlainText.written settings book.threshold call with
      | none => book
      | some text => book.write id target text
    (.ok (), book.add (.call issuer (.plain id settings target) call (.ok ())))
  | .wire id showTrace behind, call, book =>
    let (result, book) := emit issuer behind (.log .error (call.record showTrace).line) book
    (result, book.add (.call issuer (.wire id showTrace behind) call result))
  | .foreign id verbose replies, call, book =>
    let result := replies (book.keptOn id) call
    (result, book.add (.call issuer (.foreign id verbose replies) call result))

/-- Everything but the entries stays as it is, and those only grow. -/
structure Extends (before after : Logbook) : Prop where
  threshold : after.threshold = before.threshold
  active : after.active = before.active
  processId : after.processId = before.processId
  issued : after.issued = before.issued
  entries : ∃ added, after.entries = before.entries ++ added

theorem Extends.trans {a b c : Logbook} (h : Extends a b) (h' : Extends b c) : Extends a c := by
  obtain ⟨x, hx⟩ := h.entries
  obtain ⟨y, hy⟩ := h'.entries
  exact ⟨h'.threshold.trans h.threshold, h'.active.trans h.active,
    h'.processId.trans h.processId, h'.issued.trans h.issued, x ++ y, by simp [hx, hy]⟩

theorem extends_add (book : Logbook) (entry : Entry) : Extends book (book.add entry) :=
  ⟨rfl, rfl, rfl, rfl, [entry], rfl⟩

theorem extends_write (book : Logbook) (sink : Nat) (target : Target) (text : String) :
    Extends book (book.write sink target text) := by
  cases target <;> exact extends_add _ _

theorem extends_emit (issuer : Issuer) (sink : Sink) (call : Call) (book : Logbook) :
    Extends book (emit issuer sink call book).2 := by
  induction sink generalizing call book with
  | recorder id refuses => exact extends_add _ _
  | fuse id capacity => exact extends_add _ _
  | plain id settings target =>
    simp only [emit]
    cases PlainText.written settings book.threshold call with
    | none => exact extends_add _ _
    | some text => exact (extends_write _ _ _ _).trans (extends_add _ _)
  | wire id showTrace behind ih => exact (ih _ _).trans (extends_add _ _)
  | foreign id verbose replies => exact extends_add _ _

/-! ## The threshold and the active sink -/

/-- Installs another active sink. -/
def install (book : Logbook) (sink : Sink) : Logbook :=
  ({ book with active := sink }).addNote .sinkReplaced

/-- How a message is printed: at a level of its own, or as a warning. -/
inductive Style where
  | at (level : Level)
  | warning
deriving DecidableEq, Repr

def Style.level : Style → Level
  | .at level => level
  | .warning => .warn

def Style.call (style : Style) (text : String) : Call :=
  match style with
  | .at level => .log level text
  | .warning => .warning text

/-- Tells the active sink a message, which is put together only if it passes the threshold. The
number says how often it was put together. -/
def print (style : Style) (text : String) (book : Logbook) :
    (Except Failure Unit × Nat) × Logbook :=
  if style.level.passes book.threshold then
    let (result, book) := emit .user book.active (style.call text) book
    ((result, 1), book)
  else ((.ok (), 0), book)

end Logbook

end Worklog
