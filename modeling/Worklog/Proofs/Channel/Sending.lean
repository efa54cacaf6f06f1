import Worklog.Proofs.Channel.Book
import Worklog.Proofs.Roundtrip.Record

/-!
# The lines that calls are sent as

A wire sink sends each call as one line to the sink behind it. If that sink keeps lines as they are,
whoever reads it finds one line for each call, in the order of the calls.

* `read_tellAll` — the lines are the records of the calls.
* `keepsLines_recorder`, `keepsLines_plain` — sinks that keep lines.
-/

namespace Worklog

/-! ## Calls in order -/

namespace Call

/-- Whether a call may come while these activities are running. A start takes a number that is not
in use, and updates and stops name an activity that is running. -/
def InOrder (running : List UInt64) : Call → Prop
  | log .. => True
  | report _ => True
  | start id _ kind _ _ _ => id ∉ running ∧ kind.Canonical
  | stop id => id ∈ running
  | update id kind _ => id ∈ running ∧ kind.Canonical

instance (running : List UInt64) (call : Call) : Decidable (call.InOrder running) := by
  cases call <;> unfold InOrder <;> infer_instance

/-- The activities that are running after a call. -/
def leaves (running : List UInt64) : Call → List UInt64
  | start id _ _ _ _ _ => id :: running
  | stop id => running.filter (· ≠ id)
  | _ => running

/-- A sequence of calls in order. -/
def WellFormed : List UInt64 → List Call → Prop
  | _, [] => True
  | running, call :: calls => call.InOrder running ∧ WellFormed (call.leaves running) calls

instance decidableWellFormed (running : List UInt64) (calls : List Call) :
    Decidable (WellFormed running calls) :=
  match calls with
  | [] => isTrue trivial
  | call :: calls =>
    have := decidableWellFormed (call.leaves running) calls
    inferInstanceAs (Decidable (_ ∧ _))

end Call

/-! ## Sinks that keep lines -/

/-- A recorder that refuses nothing. -/
def Sink.willing (id : Nat) : Sink := .recorder id fun _ _ => false

namespace Logbook

variable {book : Logbook} {issuer : Issuer}

/-- Makes calls on a sink, one after the other, whatever becomes of them. -/
def tellAll (issuer : Issuer) (sink : Sink) (calls : List Call) (book : Logbook) : Logbook :=
  calls.foldl (fun book call => (emit issuer sink call book).2) book

/-- A sink that keeps each line that it is told, so that it can be read again. -/
structure KeepsLines (sink : Sink) (read : Logbook → List String) : Prop where
  keeps : ∀ issuer line book, Printable line.toList →
    read (emit issuer sink (.log .error line) book).2 = read book ++ [line]
  /-- What is told to the sink in front of it is not a line. -/
  passes : ∀ issuer id showTrace call result book,
    read (book.add (.call issuer (.wire id showTrace sink) call result)) = read book

/-- **Each call is one line.** -/
theorem read_tellAll {behind : Sink} {read : Logbook → List String}
    (h : KeepsLines behind read) (issuer : Issuer) (id : Nat) (showTrace : Bool)
    (calls : List Call) (book : Logbook) :
    read (tellAll issuer (.wire id showTrace behind) calls book)
      = read book ++ calls.map fun call => (call.record showTrace).line := by
  induction calls generalizing book with
  | nil => simp [tellAll]
  | cons call calls ih =>
    have hline := h.keeps issuer (call.record showTrace).line book
      (Wire.line_printable (call.record showTrace))
    have hcall : read (emit issuer (.wire id showTrace behind) call book).2
        = read book ++ [(call.record showTrace).line] := by
      rw [emit, h.passes, hline]
    show read (tellAll issuer (.wire id showTrace behind) calls
      (emit issuer (.wire id showTrace behind) call book).2) = _
    rw [ih, hcall, List.append_assoc, List.map_cons, List.singleton_append]

/-! ## Recorders -/

theorem keptOn_emit_willing (issuer : Issuer) (id : Nat) (call : Call) (book : Logbook) :
    (emit issuer (.willing id) call book).2.keptOn id = book.keptOn id ++ [call] := by
  simp [emit, Sink.willing, Entry.keptOn?, Entry.kept?]

/-- The messages that a recorder keeps. -/
def messagesOn (id : Nat) (book : Logbook) : List String :=
  (book.keptOn id).filterMap fun call => match call with
    | .log _ text => some text
    | _ => none

theorem keepsLines_recorder (id : Nat) : KeepsLines (.willing id) (messagesOn id) where
  keeps issuer line book _ := by
    rw [messagesOn, keptOn_emit_willing issuer id _ book, List.filterMap_append]
    rfl
  passes issuer front showTrace call result book := by
    simp [messagesOn, Entry.keptOn?, Entry.kept?]

/-! ## Plain text -/

/-- The lines that were written to an output, one at a time. -/
def linesOn (output : Output) (book : Logbook) : List String :=
  book.entries.filterMap fun entry => match entry with
    | .text place text => if place = output then some (String.ofList text.toList.dropLast) else none
    | _ => none

/-- On a terminal, and without a supervising process, lines are written as they are. -/
theorem keepsLines_plain (id : Nat) (showTrace printBuildLogs : Bool) :
    KeepsLines (.plain id ⟨showTrace, printBuildLogs, false, true⟩ .buffer)
      (linesOn (.buffer id)) where
  keeps issuer line book _ := by
    have hpasses : Level.error.passes book.threshold = true := by
      cases book.threshold <;> rfl
    simp [emit, PlainText.written_eq, PlainText.message, Call.plain, hpasses, linesOn,
      PlainText.line, PlainText.mark, PlainText.body, write]
  passes issuer front showTrace' call result book := by
    simp [linesOn]

end Logbook

end Worklog
