import Worklog.Proofs.Channel.Effect
import Worklog.Proofs.Channel.Entrywise
import Worklog.Proofs.Channel.Pinned

/-!
# Replies to stops

An activity tells its stop when it is let go of, and then there is nobody left who could do anything
about the reply. So two sinks that differ at most in how they reply to stops cannot be told apart by
handles and channels: whatever is done with either of them has the same result, and both keep the same
calls.

* `Sink.Matches`, `Logbook.Matches` — what differs in such replies only.
* `Logbook.emit_matches` — a call that is no stop has the same reply.
* `Activity.stop_matches` — a stop leaves books that match, whatever the replies.
* `Channel.handleLine_matches`, `Channel.close_matches` — the congruences for channels.
-/

namespace Worklog

/-! ## Sinks -/

/-- Two sinks that differ at most in how they reply to stops. What a wire sink sends on is never a
stop, so it is the sinks behind that matter. -/
inductive Sink.Matches : Sink → Sink → Prop where
  | recorder (id : Nat) {refuses refuses' : Nat → Call → Bool}
      (hsame : ∀ count call, call.isStop = false → refuses count call = refuses' count call) :
      Matches (.recorder id refuses) (.recorder id refuses')
  | fuse (id capacity : Nat) : Matches (.fuse id capacity) (.fuse id capacity)
  | plain (id : Nat) (settings : Settings) (target : Target) :
      Matches (.plain id settings target) (.plain id settings target)
  | wire (id : Nat) (showTrace : Bool) {behind behind' : Sink} (hbehind : Matches behind behind') :
      Matches (.wire id showTrace behind) (.wire id showTrace behind')
  | foreign (id : Nat) (verbose : Bool) {replies replies' : List Call → Call → Except Failure Unit}
      (hsame : ∀ said call, call.isStop = false → replies said call = replies' said call) :
      Matches (.foreign id verbose replies) (.foreign id verbose replies')

namespace Sink

theorem matches_refl (sink : Sink) : sink.Matches sink := by
  induction sink with
  | recorder id refuses => exact .recorder id fun _ _ _ => rfl
  | fuse id capacity => exact .fuse id capacity
  | plain id settings target => exact .plain id settings target
  | wire id showTrace behind ih => exact .wire id showTrace ih
  | foreign id verbose replies => exact .foreign id verbose fun _ _ _ => rfl

variable {sink sink' : Sink}

/-- Sinks that match go by the same id. -/
theorem Matches.id_eq (h : sink.Matches sink') : sink.id = sink'.id := by
  cases h <;> rfl

theorem Matches.isVerbose_eq (h : sink.Matches sink') : sink.isVerbose = sink'.isVerbose := by
  cases h <;> rfl

end Sink

/-- Two handles of one activity. -/
structure Activity.Matches (a b : Activity) : Prop where
  id : a.id = b.id
  sink : a.sink.Matches b.sink

theorem Activity.matches_refl (activity : Activity) : activity.Matches activity :=
  ⟨rfl, activity.sink.matches_refl⟩

theorem Activity.Matches.describe_eq {a b : Activity} (h : a.Matches b) :
    a.describe = b.describe := by
  unfold describe
  rw [h.id]

/-- Two plans for one activity. -/
structure Plan.Matches (a b : Plan) : Prop where
  rest : b = { a with sink := b.sink }
  sink : Option.Rel Sink.Matches a.sink b.sink

/-! ## Books -/

/-- Two entries for the same, up to the reply to a stop. Notes match nothing: there is one for each
stop that fails. -/
inductive Entry.Matches : Entry → Entry → Prop where
  | call (issuer : Issuer) {sink sink' : Sink} (hsink : sink.Matches sink') (call : Call)
      {result result' : Except Failure Unit} (hsame : call.isStop = false → result = result') :
      Matches (.call issuer sink call result) (.call issuer sink' call result')
  | text (output : Output) (text : String) : Matches (.text output text) (.text output text)

/-- An entry that is no note matches itself. -/
theorem Entry.matches_refl {entry : Entry} (h : entry.isNote = false) : entry.Matches entry := by
  cases entry with
  | call issuer sink call result => exact .call issuer sink.matches_refl call fun _ => rfl
  | text output text => exact .text output text
  | note note => simp [isNote] at h

theorem Entry.Matches.kept?_eq {entry entry' : Entry} (h : entry.Matches entry') :
    entry.kept? = entry'.kept? := by
  cases h with
  | text output text => rfl
  | @call issuer sink sink' hsink call result result' hsame =>
    cases hsink with
    | recorder id hrefuses => rfl
    | foreign id verbose hreplies => rfl
    | plain id settings target => rfl
    | wire id showTrace hbehind => rfl
    | fuse id capacity =>
      -- A fuse keeps messages only, and the reply to a message is the same.
      cases hstop : call.isStop with
      | false => rw [hsame hstop]
      | true =>
        have hmessage : call.isMessage = false := by
          cases call <;> simp_all [Call.isStop, Call.isMessage]
        cases result <;> cases result' <;> simp [kept?, hmessage]

/-- What a sink keeps of an entry is the same for a match. -/
theorem Entry.Matches.keptOn?_eq {entry entry' : Entry} (h : entry.Matches entry') (sink : Nat) :
    entry.keptOn? sink = entry'.keptOn? sink := by
  rw [keptOn?, keptOn?, h.kept?_eq]

namespace Logbook

/-- Two books of the same, up to the replies to stops and the notes about them. -/
structure Matches (a b : Logbook) : Prop where
  threshold : a.threshold = b.threshold
  active : a.active.Matches b.active
  processId : a.processId = b.processId
  issued : a.issued = b.issued
  happened : List.Forall₂ Entry.Matches a.happened b.happened

theorem matches_refl (book : Logbook) : book.Matches book := by
  refine ⟨rfl, book.active.matches_refl, rfl, rfl, List.forall₂_same.mpr fun entry hentry => ?_⟩
  have hnote := (List.mem_filter.mp hentry).2
  exact Entry.matches_refl (by simpa using hnote)

variable {a b c d : Logbook}

/-- Notes make no difference. -/
theorem Matches.of_alike (h : a.Matches b) (hleft : c.Alike a) (hright : d.Alike b) :
    c.Matches d := by
  refine ⟨?_, ?_, ?_, ?_, ?_⟩
  · rw [hleft.threshold, hright.threshold, h.threshold]
  · rw [hleft.active, hright.active]
    exact h.active
  · rw [hleft.processId, hright.processId, h.processId]
  · rw [hleft.issued, hright.issued, h.issued]
  · rw [hleft.happened, hright.happened]
    exact h.happened

/-- Notes may be added on either side, not always the same ones. -/
theorem Matches.addNote (h : a.Matches b) (note note' : Note) :
    (a.addNote note).Matches (b.addNote note') :=
  h.of_alike (alike_addNote a note) (alike_addNote b note')

theorem Matches.add (h : a.Matches b) {entry entry' : Entry} (hentry : entry.Matches entry') :
    (a.add entry).Matches (b.add entry') := by
  have hnote : entry.isNote = false ∧ entry'.isNote = false := by cases hentry <;> exact ⟨rfl, rfl⟩
  refine ⟨h.threshold, h.active, h.processId, h.issued, ?_⟩
  have hadded := List.rel_append h.happened (.cons hentry .nil)
  simpa [Logbook.happened, hnote] using hadded

/-- Both books give out the same number. -/
theorem Matches.nextId (h : a.Matches b) :
    a.nextId.1 = b.nextId.1 ∧ a.nextId.2.Matches b.nextId.2 := by
  refine ⟨?_, h.threshold, h.active, h.processId, ?_, h.happened⟩
  · simp only [Logbook.nextId, h.issued, h.processId]
  · simp only [nextId_issued, h.issued]

theorem Matches.write (h : a.Matches b) (id : Nat) (target : Target) (text : String) :
    (a.write id target text).Matches (b.write id target text) := by
  cases target with
  | buffer => exact h.add (.text _ text)
  | stderr => exact h.add (.text _ text)
  | closed => exact h.addNote _ _

/-- A sink that may be left open, and is the active one then. -/
theorem Matches.getD_active (h : a.Matches b) {sink sink' : Option Sink}
    (hsink : Option.Rel Sink.Matches sink sink') :
    (sink.getD a.active).Matches (sink'.getD b.active) := by
  cases hsink with
  | none => exact h.active
  | some hsink => exact hsink

/-- A sink has kept the same calls in both books. -/
theorem Matches.keptOn_eq (h : a.Matches b) (sink : Nat) : a.keptOn sink = b.keptOn sink := by
  rw [keptOn_eq_happened, keptOn_eq_happened]
  exact filterMap_eq_of_forall₂ h.happened fun _ _ hentry => hentry.keptOn?_eq sink

/-- The text at an output does not depend on the notes. -/
theorem textOn_eq_happened (book : Logbook) (output : Output) :
    book.textOn output = String.join (book.happened.filterMap fun entry => match entry with
      | .text place text => if place = output then some text else none
      | _ => none) := by
  rw [textOn, happened, List.filterMap_filter]
  congr 2
  funext entry
  cases entry <;> rfl

theorem Matches.textOn_eq (h : a.Matches b) (output : Output) :
    a.textOn output = b.textOn output := by
  rw [textOn_eq_happened, textOn_eq_happened]
  congr 1
  refine filterMap_eq_of_forall₂ h.happened fun _ _ hentry => ?_
  cases hentry <;> rfl

/-- What was added to two books that matched, matches if the books still do. -/
theorem Matches.withoutNotes_since (h : a.Matches b) (h' : c.Matches d)
    (hleft : ∃ added, c.entries = a.entries ++ added)
    (hright : ∃ added, d.entries = b.entries ++ added) :
    List.Forall₂ Entry.Matches (withoutNotes (since a c)) (withoutNotes (since b d)) := by
  obtain ⟨added, hadded⟩ := hleft
  obtain ⟨others, hothers⟩ := hright
  have hbefore : List.Forall₂ Entry.Matches (withoutNotes a.entries) (withoutNotes b.entries) :=
    h.happened
  have hafter : List.Forall₂ Entry.Matches (withoutNotes c.entries) (withoutNotes d.entries) :=
    h'.happened
  rw [hadded, hothers, withoutNotes_append, withoutNotes_append] at hafter
  have hnew := List.forall₂_drop (withoutNotes a.entries).length hafter
  rw [List.drop_left, List.drop_left' hbefore.length_eq.symm] at hnew
  rw [since_eq hadded, since_eq hothers]
  exact hnew

/-! ## Calls -/

/-- Both failed for the same reason, or both are done with results that are related; and the books
match. -/
inductive Agree {α : Type} (R : α → α → Prop) :
    Except Failure α × Logbook → Except Failure α × Logbook → Prop where
  | failed (failure : Failure) {a b : Logbook} (hbook : a.Matches b) :
      Agree R (.error failure, a) (.error failure, b)
  | done {x y : α} (hvalue : R x y) {a b : Logbook} (hbook : a.Matches b) :
      Agree R (.ok x, a) (.ok y, b)

theorem agree_of_eq {x y : Except Failure Unit × Logbook} (hresult : x.1 = y.1)
    (hbook : x.2.Matches y.2) : Agree Eq x y := by
  obtain ⟨result, a⟩ := x
  obtain ⟨_, b⟩ := y
  cases hresult
  cases result with
  | error failure => exact .failed failure hbook
  | ok value => exact .done rfl hbook

theorem Agree.result_eq {x y : Except Failure Unit × Logbook} (h : Agree Eq x y) : x.1 = y.1 := by
  cases h <;> rfl

theorem Agree.matches {α : Type} {R : α → α → Prop} {x y : Except Failure α × Logbook}
    (h : Agree R x y) : x.2.Matches y.2 := by
  cases h <;> assumption

variable {sink sink' : Sink}

/-- **A call leaves books that match**, and has the same reply unless it is a stop. -/
theorem emit_matches (issuer : Issuer) (hsink : sink.Matches sink') (call : Call)
    (h : a.Matches b) :
    (call.isStop = false → (emit issuer sink call a).1 = (emit issuer sink' call b).1)
      ∧ (emit issuer sink call a).2.Matches (emit issuer sink' call b).2 := by
  induction hsink generalizing call with
  | @recorder id refuses refuses' hsame =>
    have hresult (hstop : call.isStop = false) :
        (emit issuer (.recorder id refuses) call a).1
          = (emit issuer (.recorder id refuses') call b).1 := by
      simp only [emit, h.keptOn_eq id, hsame _ call hstop]
    exact ⟨hresult, h.add (.call issuer (.recorder id hsame) call hresult)⟩
  | fuse id capacity =>
    simp only [emit, h.keptOn_eq id]
    exact ⟨fun _ => trivial, h.add (.call issuer (.fuse id capacity) call fun _ => rfl)⟩
  | plain id settings target =>
    have hentry : Entry.Matches (.call issuer (.plain id settings target) call (.ok ()))
        (.call issuer (.plain id settings target) call (.ok ())) := Entry.matches_refl rfl
    simp only [emit, h.threshold]
    cases PlainText.written settings b.threshold call with
    | none => exact ⟨fun _ => trivial, h.add hentry⟩
    | some text => exact ⟨fun _ => trivial, (h.write id target text).add hentry⟩
  | wire id showTrace hbehind ih =>
    -- The line is a message, so the reply to it is the same even if the call is a stop.
    obtain ⟨hresult, hbook⟩ := ih (.log .error (call.record showTrace).line)
    simp only [emit, hresult rfl]
    exact ⟨fun _ => trivial, hbook.add (.call issuer (.wire id showTrace hbehind) call fun _ => rfl)⟩
  | @foreign id verbose replies replies' hsame =>
    have hresult (hstop : call.isStop = false) :
        (emit issuer (.foreign id verbose replies) call a).1
          = (emit issuer (.foreign id verbose replies') call b).1 := by
      simp only [emit, h.keptOn_eq id, hsame _ call hstop]
    exact ⟨hresult, h.add (.call issuer (.foreign id verbose hsame) call hresult)⟩

/-- **A call that is no stop gets the same reply from sinks that match.** -/
theorem emit_agree (issuer : Issuer) (hsink : sink.Matches sink') {call : Call}
    (hcall : call.isStop = false) (h : a.Matches b) :
    Agree Eq (emit issuer sink call a) (emit issuer sink' call b) :=
  agree_of_eq ((emit_matches issuer hsink call h).1 hcall) (emit_matches issuer hsink call h).2

end Logbook

open Logbook

/-! ## Activities -/

namespace Activity

variable {a b : Logbook} {sink sink' : Sink} {activity activity' : Activity}

/-- A start succeeds on both sides, with handles that match, or fails alike. -/
theorem start_agree (hsink : sink.Matches sink') (level : Level) (kind : ActivityKind)
    (text : String) (fields : List Field) (parent : UInt64) (h : a.Matches b) :
    Agree Activity.Matches (start sink level kind text fields parent a)
      (start sink' level kind text fields parent b) := by
  obtain ⟨hid, hnext⟩ := h.nextId
  have hstart : (Call.start b.nextId.1 level kind text fields parent).isStop = false := rfl
  have hcall := emit_agree .handle hsink hstart hnext
  simp only [start, hid]
  generalize emit .handle sink _ _ = x, emit .handle sink' _ _ = y at hcall ⊢
  cases hcall with
  | failed failure hbook => exact .failed failure hbook
  | done _ hbook => exact .done ⟨rfl, hsink⟩ (hbook.addNote _ _)

theorem ofPlan_agree {plan plan' : Plan} (hplan : plan.Matches plan') (context : Context)
    (h : a.Matches b) :
    Agree Activity.Matches (ofPlan plan context a) (ofPlan plan' context b) := by
  rw [ofPlan, ofPlan, hplan.rest]
  exact start_agree (h.getD_active hplan.sink) _ _ _ _ _ h

theorem update_agree (hactivity : activity.Matches activity') (kind : UpdateKind)
    (fields : List Field) (h : a.Matches b) :
    Agree Eq (activity.update kind fields a) (activity'.update kind fields b) := by
  rw [update, update, hactivity.id]
  exact emit_agree .handle hactivity.sink rfl h

/-- **How a sink replies to a stop makes no difference** but for a note. -/
theorem stop_matches (hactivity : activity.Matches activity') (h : a.Matches b) :
    (activity.stop a).Matches (activity'.stop b) := by
  have halike (activity : Activity) (book : Logbook) :
      (activity.stop book).Alike (emit .handle activity.sink (.stop activity.id) book).2 := by
    rcases activity.stop_eq book with hstop | ⟨note, hstop⟩
    · rw [hstop]
      exact alike_refl _
    · rw [hstop]
      exact alike_addNote _ note
  have hcall := (emit_matches .handle hactivity.sink (.stop activity.id) h).2
  have hright := halike activity' b
  rw [← hactivity.id] at hright
  exact hcall.of_alike (halike activity a) hright

end Activity

/-! ## Channels -/

/-- Two channels under one activity, whose sinks match, and which run the same activities with the
same places. -/
structure Channel.Matches (a b : Channel) : Prop where
  parent : a.parent = b.parent
  phaseSink : a.phaseSink.Matches b.phaseSink
  target : Option.Rel Sink.Matches a.target b.target
  running : Entrywise Activity.Matches a.running b.running
  place : a.place = b.place

namespace Channel

variable {a b : Logbook} {channel channel' : Channel} {activity activity' : Activity}

theorem matches_refl (channel : Channel) : channel.Matches channel := by
  refine ⟨rfl, channel.phaseSink.matches_refl, ?_, entrywise_refl Activity.matches_refl _, rfl⟩
  cases channel.target with
  | none => exact .none
  | some sink => exact .some sink.matches_refl

theorem Matches.isRunning_eq (h : channel.Matches channel') (remote : UInt64) :
    channel.isRunning remote = channel'.isRunning remote := by
  rcases none_or_some (h.running.lookup remote) with ⟨ha, hb⟩ | ⟨_, _, ha, hb, _⟩ <;>
    simp only [isRunning, find, ha, hb, Option.isSome]

theorem Matches.size_eq (h : channel.Matches channel') : channel.size = channel'.size :=
  h.running.length_eq

theorem Matches.started (h : channel.Matches channel') (remote : UInt64)
    (hactivity : activity.Matches activity') :
    (channel.started remote activity).Matches (channel'.started remote activity') :=
  ⟨h.parent, h.phaseSink, h.target, List.rel_append h.running (.cons ⟨rfl, hactivity⟩ .nil),
    h.place⟩

theorem Matches.stopped (h : channel.Matches channel') (remote : UInt64) :
    (channel.stopped remote).Matches (channel'.stopped remote) :=
  ⟨h.parent, h.phaseSink, h.target, h.running.filter fun key => key ≠ remote, h.place⟩

theorem Matches.targetSink (h : channel.Matches channel') (hbook : a.Matches b) :
    (channel.targetSink a).Matches (channel'.targetSink b) :=
  hbook.getD_active h.target

/-- The same result, and channels and books that match. -/
structure Handled.Matches (x y : Handled) : Prop where
  result : x.result = y.result
  channel : x.channel.Matches y.channel
  book : x.book.Matches y.book

/-- A channel hands the reply to a call on as it is. -/
theorem Matches.passedOn (h : channel.Matches channel') {x y : Except Failure Unit × Logbook}
    (hagree : Agree Eq x y) : (channel.passedOn x).Matches (channel'.passedOn y) := by
  cases hagree with
  | failed failure hbook => exact ⟨rfl, h, hbook⟩
  | done _ hbook => exact ⟨rfl, h, hbook⟩

/-- A start on a channel leads to registries that match. -/
theorem accept_matches (h : channel.Matches channel') (remote : UInt64) (level : Level)
    (kind : ActivityKind) (text : String) (fields : Option (List Json)) (hbook : a.Matches b) :
    (channel.accept remote level kind text fields a).Matches
      (channel'.accept remote level kind text fields b) := by
  unfold accept
  cases Field.decode fields with
  | error unsupported => exact ⟨rfl, h, hbook⟩
  | ok fields =>
    have hstart := Activity.start_agree (h.targetSink hbook) level kind text fields
      channel.parent hbook
    simp only [← h.parent]
    generalize Activity.start (channel.targetSink a) _ _ _ _ _ _ = x,
      Activity.start (channel'.targetSink b) _ _ _ _ _ _ = y at hstart ⊢
    cases hstart with
    | failed failure hbook => exact ⟨rfl, h, hbook⟩
    | done hactivity hbook => exact ⟨rfl, h.started remote hactivity, hbook⟩

/-- **What becomes of a message does not depend on the replies to stops.** -/
theorem handle_matches (h : channel.Matches channel') (message : Wire.Message) (trusted : Bool)
    (hbook : a.Matches b) :
    (channel.handle message trusted a).Matches (channel'.handle message trusted b) := by
  cases message with
  | start remote level kind text parent fields =>
    simp only [handle, h.isRunning_eq]
    split
    · exact ⟨rfl, h, hbook.addNote _ _⟩
    · split
      · exact ⟨rfl, h, hbook.addNote _ _⟩
      · exact accept_matches h remote level kind text fields hbook
  | stop remote =>
    rcases none_or_some (h.running.lookup remote) with
      ⟨hnone, hnone'⟩ | ⟨activity, activity', hfind, hfind', hactivity⟩
    · simp only [handle, find, hnone, hnone']
      exact ⟨rfl, h, hbook⟩
    · simp only [handle, find, hfind, hfind']
      exact ⟨rfl, h.stopped remote, Activity.stop_matches hactivity hbook⟩
  | update remote kind fields =>
    rcases none_or_some (h.running.lookup remote) with
      ⟨hnone, hnone'⟩ | ⟨activity, activity', hfind, hfind', hactivity⟩
    · simp only [handle, find, hnone, hnone']
      exact ⟨rfl, h, hbook⟩
    · simp only [handle, find, hfind, hfind']
      split
      · exact ⟨rfl, h, hbook⟩
      · exact h.passedOn (Activity.update_agree hactivity kind _ hbook)
  | phase name =>
    simp only [handle, h.parent]
    exact h.passedOn (emit_agree .channel h.phaseSink rfl hbook)
  | message level text raw =>
    exact h.passedOn (emit_agree .channel (h.targetSink hbook) rfl hbook)
  | unknown => exact ⟨rfl, h, hbook⟩

/-- A warning comes out on both sides, or is noted as lost on both. -/
theorem warn_matches (h : channel.Matches channel') (text : String) (hbook : a.Matches b) :
    (channel.warn text a).Matches (channel'.warn text b) := by
  have hcall : Agree Eq _ _ :=
    emit_agree .channel (h.targetSink hbook) (show (Call.warning text).isStop = false from rfl) hbook
  unfold warn
  generalize emit .channel (channel.targetSink a) _ a = x,
    emit .channel (channel'.targetSink b) _ b = y at hcall ⊢
  cases hcall with
  | failed failure hbook => exact hbook.addNote _ _
  | done _ hbook => exact hbook

/-- **What becomes of a line does not depend on the replies to stops.** -/
theorem handleLine_matches (h : channel.Matches channel') (line source : String) (trusted : Bool)
    (hbook : a.Matches b) :
    (channel.handleLine line source trusted a).Matches
      (channel'.handleLine line source trusted b) := by
  unfold handleLine
  split
  · exact ⟨rfl, h, hbook⟩
  · split
    · exact ⟨rfl, h, warn_matches h _ hbook⟩
    · split
      · exact ⟨rfl, h, warn_matches h _ hbook⟩
      · exact handle_matches h _ trusted hbook

/-- What is put in place by its id lands beside its match. -/
theorem entrywise_putInPlace (place : UInt64 → Nat) {entry entry' : UInt64 × Activity}
    {entries entries' : List (UInt64 × Activity)}
    (hentry : entry.1 = entry'.1 ∧ entry.2.Matches entry'.2)
    (h : Entrywise Activity.Matches entries entries') :
    Entrywise Activity.Matches (putInPlace place entry entries)
      (putInPlace place entry' entries') := by
  induction h with
  | nil => exact .cons hentry .nil
  | cons hnext hrest ih =>
    simp only [putInPlace, hentry.1, hnext.1]
    split
    · exact .cons hentry (.cons hnext hrest)
    · exact .cons hnext ih

/-- The activities come to the same places: these do not depend on what the sinks do. -/
theorem Matches.leaving (h : channel.Matches channel') :
    Entrywise Activity.Matches channel.leaving channel'.leaving := by
  have hrunning := h.running
  rw [Channel.leaving, Channel.leaving, h.place]
  generalize channel.running = entries, channel'.running = entries' at hrunning ⊢
  induction hrunning with
  | nil => exact .nil
  | cons hentry _ ih => exact entrywise_putInPlace _ hentry ih

/-- No stop is left out after one that fails. -/
theorem close_matches (h : channel.Matches channel') (hbook : a.Matches b) :
    (channel.close a).Matches (channel'.close b) := by
  have hleaving := h.leaving
  unfold close
  generalize channel.leaving = entries, channel'.leaving = entries' at hleaving ⊢
  induction hleaving generalizing a b with
  | nil => exact hbook
  | cons hentry _ ih => exact ih (Activity.stop_matches hentry.2 hbook)

end Channel

end Worklog
