import Worklog.Channel
import Worklog.Proofs.Channel.Book
import Worklog.Proofs.Reading.Payload

/-!
# A channel turn by turn

What happens to a channel is a list of turns: lines and messages reach it, and in between the rest
of the program does to the book what it likes. A run keeps the results, and apart from the book also
those entries that the channel itself has added.

* `heard?` — the message in a line, as a channel reads it.
* `handleLine_of_heard`, `handleLine_of_unheard` — what becomes of a line, by what is heard in it.
-/

namespace Worklog

/-! ## Turns -/

/-- The message that a channel hears in a line. -/
def Channel.heard? (line : String) : Option Wire.Message :=
  match Wire.payload? line with
  | none => none
  | some payload =>
    match Json.parseData payload with
    | .error _ => none
    | .ok value =>
      match Wire.Message.ofJson value with
      | .error _ => none
      | .ok message => some message

/-- A line that can be read directly is heard as its message. -/
theorem Channel.heard?_of_ofLine? {line : String} {message : Wire.Message}
    (h : Wire.Message.ofLine? line = some (.ok message)) : heard? line = some message := by
  obtain ⟨payload, hpayload, hmessage⟩ := Option.map_eq_some_iff.mp h
  obtain ⟨v, hv, hsaid⟩ := Wire.ofJson_of_ofPayload hmessage
  simp only [heard?, hpayload, hv, hsaid]

/-- A line with a message is handled as that message, whoever it comes from. -/
theorem Channel.handleLine_of_heard {line : String} {message : Wire.Message}
    (h : heard? line = some message) (channel : Channel) (source : String) (trusted : Bool)
    (book : Logbook) :
    channel.handleLine line source trusted book = channel.handle message trusted book := by
  cases hpayload : Wire.payload? line with
  | none => simp [heard?, hpayload] at h
  | some payload =>
    cases hvalue : Json.parseData payload with
    | error problem => simp [heard?, hpayload, hvalue] at h
    | ok value =>
      cases hmessage : Wire.Message.ofJson value with
      | error cause => simp [heard?, hpayload, hvalue, hmessage] at h
      | ok said =>
        simp only [heard?, hpayload, hvalue, hmessage, Option.some.injEq] at h
        simp only [handleLine, hpayload, hvalue, hmessage, h]

/-- A line without a message is left to the caller, and if it is marked, after a complaint. -/
theorem Channel.handleLine_of_unheard {line : String} (h : heard? line = none)
    (channel : Channel) (source : String) (trusted : Bool) (book : Logbook) :
    (Wire.payload? line = none
        ∧ channel.handleLine line source trusted book = ⟨.ok false, channel, book⟩)
      ∨ ∃ what problem, channel.handleLine line source trusted book
        = channel.complain what source problem book := by
  cases hpayload : Wire.payload? line with
  | none => exact .inl ⟨rfl, by simp only [handleLine, hpayload]⟩
  | some payload =>
    cases hvalue : Json.parseData payload with
    | error problem => exact .inr ⟨_, _, by simp only [handleLine, hpayload, hvalue]; rfl⟩
    | ok value =>
      cases hmessage : Wire.Message.ofJson value with
      | error cause =>
        exact .inr ⟨_, _, by simp only [handleLine, hpayload, hvalue, hmessage]; rfl⟩
      | ok said => simp [heard?, hpayload, hvalue, hmessage] at h

/-- What happens to a channel, or beside it. -/
inductive Turn where
  | line (text source : String) (trusted : Bool)
  | message (message : Wire.Message) (trusted : Bool)
  /-- The rest of the program changes the book. -/
  | elsewhere (change : Logbook → Logbook)

namespace Turn

def trusted : Turn → Bool
  | line _ _ trusted => trusted
  | message _ trusted => trusted
  | elsewhere _ => false

/-- The message that the channel hears. -/
def message? : Turn → Option Wire.Message
  | line text _ _ => Channel.heard? text
  | message said _ => some said
  | elsewhere _ => none

/-- Lines with their sources, all of them trusted or none. -/
def ofLines (trusted : Bool) (lines : List (String × String)) : List Turn :=
  lines.map fun line => .line line.1 line.2 trusted

theorem ofLines_cons (trusted : Bool) (line source : String) (lines : List (String × String)) :
    ofLines trusted ((line, source) :: lines)
      = .line line source trusted :: ofLines trusted lines := rfl

end Turn

/-! ## Runs -/

/-- How far a run has come. -/
structure Progress where
  channel : Channel
  book : Logbook
  results : List (Except Channel.Trouble Bool) := []
  /-- The entries that the channel has added. -/
  made : List Entry := []

namespace Progress

/-- Takes over what has become of a line or a message. -/
def enter (p : Progress) (handled : Channel.Handled) : Progress where
  channel := handled.channel
  book := handled.book
  results := p.results ++ [handled.result]
  made := p.made ++ Logbook.since p.book handled.book

def step (p : Progress) : Turn → Progress
  | .line text source trusted => p.enter (p.channel.handleLine text source trusted p.book)
  | .message message trusted => p.enter (p.channel.handle message trusted p.book)
  | .elsewhere change => { p with book := change p.book }

def run (p : Progress) (turns : List Turn) : Progress := turns.foldl step p

/-- The channel is let go of. -/
def close (p : Progress) : Progress :=
  let book := p.channel.close p.book
  { p with
    channel := { p.channel with running := [] }
    book
    made := p.made ++ Logbook.since p.book book }

@[simp] theorem run_nil (p : Progress) : p.run [] = p := rfl

@[simp] theorem run_cons (p : Progress) (turn : Turn) (turns : List Turn) :
    p.run (turn :: turns) = (p.step turn).run turns := rfl

end Progress

end Worklog
