import Worklog.Activity
import Worklog.Wire.Payload

/-!
# Channels

A channel takes the output of another program, line by line, and repeats what the messages in it
say: activities of the other program run here under numbers of our own, all under one parent. Lines
without a message are left to the caller.

An untrusted program may start file transfers only. What the channel knows of the other program is
which of its activities are running here. They are kept in the order in which they started, but at
the end of the channel they are let go of in an order that nothing is said about: each number has
some place in it, which a channel is given when it is opened.

* `find_started`, `find_stopped` — what a start and a stop do to the registry.
* `leaving_perm` — all that is running is let go of, whatever the places are.
-/

namespace Worklog

structure Channel where
  /-- The activity that everything is put under. -/
  parent : UInt64
  /-- The sink that hears of the parent's phases. -/
  phaseSink : Sink
  /-- The sink for everything else, if it is not the active one. -/
  target : Option Sink
  /-- The running activities by the numbers that the other program gave them. -/
  running : List (UInt64 × Activity)
  /-- When the activity with a number is let go of at the end. Those with equal places are let go of
  in the order of their starts. -/
  place : UInt64 → Nat

namespace Channel

/-! ## Construction -/

/-- A channel under a running activity. Messages go to the active sink. -/
def under (activity : Activity) (place : UInt64 → Nat := fun _ => 0) : Channel :=
  ⟨activity.id, activity.sink, none, [], place⟩

/-- A channel with everything on one sink. -/
def pinned (parent : UInt64) (sink : Sink) (place : UInt64 → Nat := fun _ => 0) : Channel :=
  ⟨parent, sink, some sink, [], place⟩

/-! ## The registry -/

/-- The activity that runs for a remote one. -/
def find (channel : Channel) (remote : UInt64) : Option Activity := channel.running.lookup remote

def isRunning (channel : Channel) (remote : UInt64) : Bool := (channel.find remote).isSome

def size (channel : Channel) : Nat := channel.running.length

def started (channel : Channel) (remote : UInt64) (activity : Activity) : Channel :=
  { channel with running := channel.running ++ [(remote, activity)] }

def stopped (channel : Channel) (remote : UInt64) : Channel :=
  { channel with running := channel.running.filter fun entry => entry.1 ≠ remote }

theorem find_started {channel : Channel} {remote : UInt64} (activity : Activity)
    (h : channel.isRunning remote = false) (other : UInt64) :
    (channel.started remote activity).find other
      = if other = remote then some activity else channel.find other := by
  simp only [find, started, List.lookup_append]
  by_cases hr : other = remote
  · subst hr
    have : channel.running.lookup other = none := by simpa [isRunning, find] using h
    simp [this]
  · simp [hr, List.lookup_cons, beq_eq_false_iff_ne.2 hr]

theorem find_stopped (channel : Channel) (remote other : UInt64) :
    (channel.stopped remote).find other
      = if other = remote then none else channel.find other := by
  simp only [find, stopped]
  induction channel.running with
  | nil => simp
  | cons entry rest ih =>
    obtain ⟨id, activity⟩ := entry
    by_cases hid : id = remote
    · subst hid
      rw [List.filter_cons_of_neg (by simp), ih]
      by_cases ho : other = id
      · simp [ho]
      · simp [ho, List.lookup_cons, beq_eq_false_iff_ne.2 ho]
    · rw [List.filter_cons_of_pos (by simpa using hid)]
      by_cases ho : other = id
      · subst ho
        simp [hid]
      · simp only [List.lookup_cons, beq_eq_false_iff_ne.2 ho, ih]

/-! ## Messages -/

/-- Why a message could not be repeated. -/
inductive Trouble where
  | unsupported (kind : Field.Unsupported)
  | failed (failure : Failure)
deriving DecidableEq, Repr

def Trouble.message : Trouble → String
  | unsupported kind => kind.message
  | failed failure => failure.message

/-- What has become of a line or a message: whether it was handled, and the channel and the book
after it. -/
structure Handled where
  result : Except Trouble Bool
  channel : Channel
  book : Logbook

/-- The sink for messages. -/
def targetSink (channel : Channel) (book : Logbook) : Sink := channel.target.getD book.active

/-- After a call that is made for a message and changes nothing in the channel. -/
def passedOn (channel : Channel) : Except Failure Unit × Logbook → Handled
  | (.ok (), book) => ⟨.ok true, channel, book⟩
  | (.error failure, book) => ⟨.error (.failed failure), channel, book⟩

/-- Runs an activity for a remote one. -/
def accept (channel : Channel) (remote : UInt64) (level : Level) (kind : ActivityKind)
    (text : String) (fields : Option (List Json)) (book : Logbook) : Handled :=
  match Field.decode fields with
  | .error unsupported => ⟨.error (.unsupported unsupported), channel, book⟩
  | .ok fields =>
    match Activity.start (channel.targetSink book) level kind text fields channel.parent book with
    | (.error failure, book) => ⟨.error (.failed failure), channel, book⟩
    | (.ok activity, book) => ⟨.ok true, channel.started remote activity, book⟩

/-- Whether the other program may start an activity of this kind. -/
def mayStart (trusted : Bool) (kind : ActivityKind) : Bool := trusted || kind = .fileTransfer

/-- Repeats a message. -/
def handle (channel : Channel) (message : Wire.Message) (trusted : Bool) (book : Logbook) :
    Handled :=
  match message with
  | .start remote level kind text _ fields =>
    if mayStart trusted kind = false then
      ⟨.ok true, channel, book.addNote (.startRefused remote kind)⟩
    else if channel.isRunning remote then
      ⟨.ok true, channel, book.addNote (.startRepeated remote)⟩
    else channel.accept remote level kind text fields book
  | .stop remote =>
    match channel.find remote with
    | none => ⟨.ok true, channel, book⟩
    | some activity => ⟨.ok true, channel.stopped remote, activity.stop book⟩
  | .update remote kind fields =>
    match channel.find remote with
    | none => ⟨.ok true, channel, book⟩
    | some activity =>
      match Field.decode fields with
      | .error unsupported => ⟨.error (.unsupported unsupported), channel, book⟩
      | .ok fields => channel.passedOn (activity.update kind fields book)
  | .phase name =>
    channel.passedOn (Logbook.emit .channel channel.phaseSink
      (.update channel.parent .setPhase (Activity.phaseFields name)) book)
  | .message level text _ =>
    channel.passedOn (Logbook.emit .channel (channel.targetSink book) (.log level text) book)
  | .unknown => ⟨.ok true, channel, book⟩

/-! ## Lines -/

/-- Warns about a line. That the warning fails is noted and goes no further. -/
def warn (channel : Channel) (text : String) (book : Logbook) : Logbook :=
  match Logbook.emit .channel (channel.targetSink book) (.warning text) book with
  | (.error failure, book) => book.addNote (.warningFailed failure)
  | (.ok (), book) => book

/-- A line that is taken for plain text after a warning about it. -/
def complain (channel : Channel) (what source : String) (problem : Json.Problem)
    (book : Logbook) : Handled :=
  ⟨.ok false, channel, channel.warn (what ++ " from " ++ source ++ ": " ++ problem.message) book⟩

/-- Handles a line. One that carries no message, or none that can be understood, is not handled. -/
def handleLine (channel : Channel) (line source : String) (trusted : Bool) (book : Logbook) :
    Handled :=
  match Wire.payload? line with
  | none => ⟨.ok false, channel, book⟩
  | some payload =>
    match Json.parseData payload with
    | .error problem => channel.complain "bad JSON log message" source problem book
    | .ok value =>
      match Wire.Message.ofJson value with
      | .error cause =>
        channel.complain "unable to handle a JSON message" source cause.unplaced book
      | .ok message => channel.handle message trusted book

/-! ## The end -/

/-- Puts an activity in front of the first one whose place is not before its own. -/
def putInPlace (place : UInt64 → Nat) (entry : UInt64 × Activity) :
    List (UInt64 × Activity) → List (UInt64 × Activity)
  | [] => [entry]
  | next :: rest =>
    if place entry.1 ≤ place next.1 then entry :: next :: rest
    else next :: putInPlace place entry rest

/-- The running activities, each in its place. -/
def leaving (channel : Channel) : List (UInt64 × Activity) :=
  channel.running.foldr (putInPlace channel.place) []

theorem putInPlace_perm (place : UInt64 → Nat) (entry : UInt64 × Activity)
    (entries : List (UInt64 × Activity)) :
    (putInPlace place entry entries).Perm (entry :: entries) := by
  induction entries with
  | nil => exact .refl _
  | cons next rest ih =>
    rw [putInPlace]
    split
    · exact .refl _
    · exact (ih.cons next).trans (.swap entry next rest)

/-- What is let go of is what is running. -/
theorem leaving_perm (channel : Channel) : channel.leaving.Perm channel.running := by
  rw [leaving]
  induction channel.running with
  | nil => exact .refl _
  | cons entry rest ih => exact (putInPlace_perm _ _ _).trans (ih.cons entry)

theorem mem_leaving {channel : Channel} {entry : UInt64 × Activity} :
    entry ∈ channel.leaving ↔ entry ∈ channel.running := channel.leaving_perm.mem_iff

theorem putInPlace_pairwise {place : UInt64 → Nat} (entry : UInt64 × Activity)
    {entries : List (UInt64 × Activity)}
    (h : entries.Pairwise fun a b => place a.1 ≤ place b.1) :
    (putInPlace place entry entries).Pairwise fun a b => place a.1 ≤ place b.1 := by
  induction entries with
  | nil => exact List.pairwise_singleton _ _
  | cons next rest ih =>
    obtain ⟨hnext, hrest⟩ := List.pairwise_cons.mp h
    rw [putInPlace]
    split
    next hle =>
      refine List.pairwise_cons.mpr ⟨fun other hother => ?_, h⟩
      rcases List.mem_cons.mp hother with rfl | hother
      · exact hle
      · exact Nat.le_trans hle (hnext other hother)
    next hlt =>
      refine List.pairwise_cons.mpr ⟨fun other hother => ?_, ih hrest⟩
      rcases List.mem_cons.mp ((putInPlace_perm _ _ _).mem_iff.mp hother) with rfl | hother
      · omega
      · exact hnext other hother

/-- Nothing is let go of before something with an earlier place. -/
theorem leaving_pairwise (channel : Channel) :
    channel.leaving.Pairwise fun a b => channel.place a.1 ≤ channel.place b.1 := by
  rw [leaving]
  induction channel.running with
  | nil => exact .nil
  | cons entry rest ih => exact putInPlace_pairwise entry ih

/-- Stops what is still running, each in its place. -/
def close (channel : Channel) (book : Logbook) : Logbook :=
  channel.leaving.foldl (fun book entry => entry.2.stop book) book

end Channel

end Worklog
