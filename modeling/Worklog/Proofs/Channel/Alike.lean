import Worklog.Channel
import Worklog.Proofs.Channel.Book

/-!
# Books that differ in notes only

Notes are for whoever looks for the cause of a surprise. Nothing that is done depends on them: what
is done with two books that differ in notes only has the same result, and leaves books that again
differ in notes only.

* `emit_congr`, `handle_congr`, `handleLine_congr`, `close_congr` — the congruences, from a call to
  the end of a channel.
-/

namespace Worklog

/-! ## The relation -/

namespace Logbook

/-- All that has happened apart from notes: the calls on every sink, and what was written. -/
def happened (book : Logbook) : List Entry := book.entries.filter fun entry => !entry.isNote

/-- Two books that differ in notes only. -/
structure Alike (a b : Logbook) : Prop where
  threshold : a.threshold = b.threshold
  active : a.active = b.active
  processId : a.processId = b.processId
  issued : a.issued = b.issued
  happened : a.happened = b.happened

theorem alike_refl (book : Logbook) : Alike book book := ⟨rfl, rfl, rfl, rfl, rfl⟩

variable {a b c : Logbook}

theorem Alike.symm (h : Alike a b) : Alike b a :=
  ⟨h.threshold.symm, h.active.symm, h.processId.symm, h.issued.symm, h.happened.symm⟩

theorem Alike.trans (h : Alike a b) (h' : Alike b c) : Alike a c :=
  ⟨h.threshold.trans h'.threshold, h.active.trans h'.active, h.processId.trans h'.processId,
    h.issued.trans h'.issued, h.happened.trans h'.happened⟩

/-- A note makes no difference that a sink could see. -/
theorem alike_addNote (book : Logbook) (note : Note) : Alike (book.addNote note) book := by
  refine ⟨rfl, rfl, rfl, rfl, ?_⟩
  simp [happened, Entry.isNote]

theorem Alike.add (h : Alike a b) (entry : Entry) : Alike (a.add entry) (b.add entry) := by
  refine ⟨h.threshold, h.active, h.processId, h.issued, ?_⟩
  have hsame := h.happened
  simp only [Logbook.happened] at hsame
  simp only [Logbook.happened, add_entries, List.filter_append, hsame]

/-- Not even two different notes do. -/
theorem Alike.addNote (h : Alike a b) (note note' : Note) :
    Alike (a.addNote note) (b.addNote note') :=
  (alike_addNote a note).trans (h.trans (alike_addNote b note').symm)

/-- The next number is the same in both books. -/
theorem Alike.nextId (h : Alike a b) : a.nextId.1 = b.nextId.1 ∧ Alike a.nextId.2 b.nextId.2 := by
  refine ⟨?_, h.threshold, h.active, h.processId, ?_, h.happened⟩
  · simp only [Logbook.nextId, h.issued, h.processId]
  · simp only [nextId_issued, h.issued]

/-- Notes are kept by no sink. -/
theorem keptOn_eq_happened (book : Logbook) (sink : Nat) :
    book.keptOn sink = book.happened.filterMap (Entry.keptOn? sink) := by
  rw [keptOn_eq, happened, List.filterMap_filter]
  congr 1
  funext entry
  cases entry <;> rfl

/-- What a sink has kept is the same in both books, and with it the reply to the next call. -/
theorem Alike.keptOn (h : Alike a b) (sink : Nat) : a.keptOn sink = b.keptOn sink := by
  rw [keptOn_eq_happened, keptOn_eq_happened, h.happened]

/-! ## Calls -/

/-- Two outcomes with the same result, and books that differ in notes only. -/
def SameOutcome {α : Type} (x y : Except Failure α × Logbook) : Prop :=
  x.1 = y.1 ∧ Alike x.2 y.2

/-- Both attempts fail for the same reason, or both give the same value. -/
theorem SameOutcome.failed_or_done {α : Type} {x y : Except Failure α × Logbook}
    (h : SameOutcome x y) :
    (∃ failure a b, x = (.error failure, a) ∧ y = (.error failure, b) ∧ Alike a b)
      ∨ ∃ value a b, x = (.ok value, a) ∧ y = (.ok value, b) ∧ Alike a b := by
  obtain ⟨result, a⟩ := x
  obtain ⟨result', b⟩ := y
  obtain ⟨hresult, hbook⟩ := h
  cases hresult
  cases result with
  | error failure => exact .inl ⟨failure, a, b, rfl, rfl, hbook⟩
  | ok value => exact .inr ⟨value, a, b, rfl, rfl, hbook⟩

theorem Alike.write (h : Alike a b) (id : Nat) (target : Target) (text : String) :
    Alike (a.write id target text) (b.write id target text) := by
  cases target with
  | buffer => exact h.add _
  | stderr => exact h.add _
  | closed => exact h.addNote _ _

/-- **A call does not see notes.** -/
theorem emit_congr (issuer : Issuer) (sink : Sink) (call : Call) (h : Alike a b) :
    SameOutcome (emit issuer sink call a) (emit issuer sink call b) := by
  -- What a sink decides depends on what it has kept and on the threshold, and notes are neither.
  induction sink generalizing call with
  | recorder id refuses =>
    simp only [emit, h.keptOn id]
    exact ⟨rfl, h.add _⟩
  | fuse id capacity =>
    simp only [emit, h.keptOn id]
    exact ⟨rfl, h.add _⟩
  | plain id settings target =>
    simp only [emit, h.threshold]
    cases PlainText.written settings b.threshold call with
    | none => exact ⟨rfl, h.add _⟩
    | some text => exact ⟨rfl, (h.write id target text).add _⟩
  | wire id showTrace behind ih =>
    obtain ⟨hresult, hbook⟩ := ih (.log .error (call.record showTrace).line)
    simp only [emit, hresult]
    exact ⟨rfl, hbook.add _⟩
  | foreign id verbose replies =>
    simp only [emit, h.keptOn id]
    exact ⟨rfl, h.add _⟩

end Logbook

/-! ## Activities -/

namespace Activity

open Logbook

variable {a b : Logbook}

/-- A start gets the same number in both books, and is taken in both or in neither. -/
theorem start_congr (sink : Sink) (level : Level) (kind : ActivityKind) (text : String)
    (fields : List Field) (parent : UInt64) (h : Alike a b) :
    SameOutcome (start sink level kind text fields parent a)
      (start sink level kind text fields parent b) := by
  obtain ⟨hid, hnext⟩ := h.nextId
  have hcall := emit_congr .handle sink (.start b.nextId.1 level kind text fields parent) hnext
  simp only [start, hid]
  rcases hcall.failed_or_done with ⟨failure, a', b', ha, hb, hbook⟩ | ⟨_, a', b', ha, hb, hbook⟩
  · simp only [ha, hb]
    exact ⟨rfl, hbook⟩
  · simp only [ha, hb]
    exact ⟨rfl, hbook.addNote _ _⟩

theorem stop_congr (activity : Activity) (h : Alike a b) :
    Alike (activity.stop a) (activity.stop b) := by
  have hcall := emit_congr .handle activity.sink (.stop activity.id) h
  rcases hcall.failed_or_done with ⟨failure, a', b', ha, hb, hbook⟩ | ⟨_, a', b', ha, hb, hbook⟩
  · simp only [stop, ha, hb]
    exact hbook.addNote _ _
  · simp only [stop, ha, hb]
    exact hbook

end Activity

/-! ## Channels -/

namespace Channel

open Logbook

variable {a b : Logbook}

/-- The same result and the same channel, and books that differ in notes only. -/
structure Handled.Alike (x y : Handled) : Prop where
  result : x.result = y.result
  channel : x.channel = y.channel
  book : x.book.Alike y.book

theorem targetSink_congr (channel : Channel) (h : Alike a b) :
    channel.targetSink a = channel.targetSink b := by
  rw [targetSink, targetSink, h.active]

theorem passedOn_congr (channel : Channel) {x y : Except Failure Unit × Logbook}
    (h : SameOutcome x y) : (channel.passedOn x).Alike (channel.passedOn y) := by
  rcases h.failed_or_done with ⟨failure, a', b', rfl, rfl, hbook⟩ | ⟨_, a', b', rfl, rfl, hbook⟩
  · exact ⟨rfl, rfl, hbook⟩
  · exact ⟨rfl, rfl, hbook⟩

/-- A channel starts the same activity for a message in both books. -/
theorem accept_congr (channel : Channel) (remote : UInt64) (level : Level) (kind : ActivityKind)
    (text : String) (fields : Option (List Json)) (h : Alike a b) :
    (channel.accept remote level kind text fields a).Alike
      (channel.accept remote level kind text fields b) := by
  unfold accept
  cases Field.decode fields with
  | error unsupported => exact ⟨rfl, rfl, h⟩
  | ok fields =>
    have hstart := Activity.start_congr (channel.targetSink b) level kind text fields
      channel.parent h
    rcases hstart.failed_or_done with
      ⟨failure, a', b', ha, hb, hbook⟩ | ⟨activity, a', b', ha, hb, hbook⟩
    · simp only [targetSink_congr channel h, ha, hb]
      exact ⟨rfl, rfl, hbook⟩
    · simp only [targetSink_congr channel h, ha, hb]
      exact ⟨rfl, rfl, hbook⟩

/-- **What becomes of a message does not depend on notes.** -/
theorem handle_congr (channel : Channel) (message : Wire.Message) (trusted : Bool)
    (h : Alike a b) :
    (channel.handle message trusted a).Alike (channel.handle message trusted b) := by
  cases message with
  | start remote level kind text parent fields =>
    simp only [handle]
    split
    · exact ⟨rfl, rfl, h.addNote _ _⟩
    · split
      · exact ⟨rfl, rfl, h.addNote _ _⟩
      · exact channel.accept_congr remote level kind text fields h
  | stop remote =>
    simp only [handle]
    split
    · exact ⟨rfl, rfl, h⟩
    · exact ⟨rfl, rfl, Activity.stop_congr _ h⟩
  | update remote kind fields =>
    simp only [handle]
    split
    · exact ⟨rfl, rfl, h⟩
    · split
      · exact ⟨rfl, rfl, h⟩
      · exact channel.passedOn_congr (emit_congr _ _ _ h)
  | phase name => exact channel.passedOn_congr (emit_congr _ _ _ h)
  | message level text raw =>
    simp only [handle, targetSink_congr channel h]
    exact channel.passedOn_congr (emit_congr _ _ _ h)
  | unknown => exact ⟨rfl, rfl, h⟩

/-- That a warning fails is noted, so it makes no difference either. -/
theorem warn_congr (channel : Channel) (text : String) (h : Alike a b) :
    Alike (channel.warn text a) (channel.warn text b) := by
  have hcall := emit_congr .channel (channel.targetSink b) (.warning text) h
  rcases hcall.failed_or_done with ⟨failure, a', b', ha, hb, hbook⟩ | ⟨_, a', b', ha, hb, hbook⟩
  · simp only [warn, targetSink_congr channel h, ha, hb]
    exact hbook.addNote _ _
  · simp only [warn, targetSink_congr channel h, ha, hb]
    exact hbook

/-- **What becomes of a line does not depend on notes.** -/
theorem handleLine_congr (channel : Channel) (line source : String) (trusted : Bool)
    (h : Alike a b) :
    (channel.handleLine line source trusted a).Alike
      (channel.handleLine line source trusted b) := by
  unfold handleLine
  split
  · exact ⟨rfl, rfl, h⟩
  · split
    · exact ⟨rfl, rfl, channel.warn_congr _ h⟩
    · split
      · exact ⟨rfl, rfl, channel.warn_congr _ h⟩
      · exact channel.handle_congr _ trusted h

/-- At the end the same activities are stopped, in the same order. -/
theorem close_congr (channel : Channel) (h : Alike a b) :
    Alike (channel.close a) (channel.close b) := by
  unfold close
  induction channel.leaving generalizing a b with
  | nil => exact h
  | cons entry rest ih => exact ih (Activity.stop_congr entry.2 h)

end Channel

end Worklog
