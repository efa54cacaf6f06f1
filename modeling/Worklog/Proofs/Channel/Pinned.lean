import Worklog.Proofs.Channel.Alike
import Worklog.Proofs.Channel.Showing

/-!
# Channels with everything on one sink

A channel that was opened with a sink of its own makes its calls there and nowhere else, to its end.
Which sink is active does not matter to it: it handles lines in the same way while others are
installed.

* `comesFrom_run` — whatever such a channel adds, comes from calls on its sink.
* `AllOn.handleLine_withActive` — what becomes of a line does not depend on the active sink.
* `unmoved_run` — a run beside which sinks are installed, and the run without that.
-/

namespace Worklog

/-! ## Calls on one sink -/

/-- A call on this sink, or what comes with one: what the sink passes on and writes, and notes. -/
def Entry.ComesFrom (sink : Sink) (entry : Entry) : Prop :=
  (∃ issuer call result, entry = .call issuer sink call result) ∨ entry.IsPassedOn sink

namespace Logbook

/-- From one book to the next, all that is added comes from one sink. -/
def AddsFrom (sink : Sink) (before after : Logbook) : Prop :=
  ∃ added, after.entries = before.entries ++ added ∧ ∀ entry ∈ added, entry.ComesFrom sink

theorem addsFrom_refl (sink : Sink) (book : Logbook) : AddsFrom sink book book :=
  ⟨[], by simp, by simp⟩

theorem AddsFrom.trans {sink : Sink} {a b c : Logbook} (h : AddsFrom sink a b)
    (h' : AddsFrom sink b c) : AddsFrom sink a c := by
  obtain ⟨added, hentries, hfrom⟩ := h
  obtain ⟨others, hothers, hfrom'⟩ := h'
  refine ⟨added ++ others, by rw [hothers, hentries, List.append_assoc], fun entry hentry => ?_⟩
  exact (List.mem_append.mp hentry).elim (hfrom entry) (hfrom' entry)

/-- A call adds from its own sink, also what this passes on. -/
theorem addsFrom_emit (issuer : Issuer) (sink : Sink) (call : Call) (book : Logbook) :
    AddsFrom sink book (emit issuer sink call book).2 := by
  obtain ⟨added, hentries, htold⟩ := told_emit issuer sink call book
  exact ⟨added, hentries, fun entry hentry =>
    (htold.isPassedOn entry hentry).imp_left fun hcall => ⟨_, _, _, hcall⟩⟩

theorem addsFrom_addNote (sink : Sink) (book : Logbook) (note : Note) :
    AddsFrom sink book (book.addNote note) :=
  ⟨[.note note], rfl, fun entry hentry => .inr (by
    rw [List.mem_singleton.mp hentry]
    exact .note note)⟩

/-- Whoever tells one sink only, adds from that sink only. -/
theorem Tells.addsFrom {sink : Sink} {calls : List Call} {a b : Logbook}
    (h : Tells sink a calls b) : AddsFrom sink a b := by
  induction h with
  | nothing => exact addsFrom_refl sink a
  | call h issuer said ih => exact ih.trans (addsFrom_emit issuer sink said _)
  | note h note ih => exact ih.trans (addsFrom_addNote sink _ note)
  | number h ih => exact ih

theorem AddsFrom.since {sink : Sink} {a b : Logbook} (h : AddsFrom sink a b) :
    ∀ entry ∈ Logbook.since a b, entry.ComesFrom sink := by
  obtain ⟨added, hentries, hfrom⟩ := h
  rwa [since_eq hentries]

end Logbook

open Logbook

/-- At its end a channel with everything on one sink tells no other one. -/
theorem Channel.tells_close {channel : Channel} {sink : Sink} (h : channel.AllOn sink)
    (book : Logbook) : ∃ calls, Tells sink book calls (channel.close book) := by
  have hrunning : ∀ entry ∈ channel.leaving, entry.2.sink = sink := fun entry hentry =>
    h.running entry (mem_leaving.mp hentry)
  unfold close
  generalize channel.leaving = running at hrunning ⊢
  induction running generalizing book with
  | nil => exact ⟨[], .nothing⟩
  | cons entry rest ih =>
    obtain ⟨hentry, hrest⟩ := List.forall_mem_cons.mp hrunning
    obtain ⟨calls, hothers⟩ := ih (entry.2.stop book) hrest
    have hfirst := tells_stop entry.2 book
    rw [hentry] at hfirst
    exact ⟨_, hfirst.trans hothers⟩

namespace Progress

variable {sink : Sink} {p q : Progress}

/-- Everything that the channel has added comes from one sink, and what it will add, too. -/
structure KeepsTo (p : Progress) (sink : Sink) : Prop where
  allOn : p.channel.AllOn sink
  made : ∀ entry ∈ p.made, entry.ComesFrom sink

theorem KeepsTo.enter (h : p.KeepsTo sink) {handled : Channel.Handled}
    (hadds : AddsFrom sink p.book handled.book) (hallOn : handled.channel.AllOn sink) :
    (p.enter handled).KeepsTo sink :=
  ⟨hallOn, List.forall_mem_append.mpr ⟨h.made, hadds.since⟩⟩

/-- What is done for a line or a message comes from the sink, and what others do is not the
channel's. -/
theorem KeepsTo.step (h : p.KeepsTo sink) (turn : Turn) : (p.step turn).KeepsTo sink := by
  cases turn with
  | line text source trusted =>
    obtain ⟨⟨calls, htells⟩, hallOn⟩ :=
      Channel.tells_handleLine h.allOn text source trusted p.book
    exact h.enter htells.addsFrom hallOn
  | message message trusted =>
    obtain ⟨⟨calls, htells⟩, hallOn⟩ := Channel.tells_handle h.allOn message trusted p.book
    exact h.enter htells.addsFrom hallOn
  | elsewhere change => exact ⟨h.allOn, h.made⟩

/-- So the sink is kept to in a whole run. -/
theorem KeepsTo.run (h : p.KeepsTo sink) (turns : List Turn) : (p.run turns).KeepsTo sink := by
  induction turns generalizing p with
  | nil => exact h
  | cons turn turns ih => exact ih (h.step turn)

/-- It is kept to at the end of the channel, too. -/
theorem KeepsTo.close (h : p.KeepsTo sink) : ∀ entry ∈ p.close.made, entry.ComesFrom sink := by
  obtain ⟨calls, htells⟩ := Channel.tells_close h.allOn p.book
  exact List.forall_mem_append.mpr ⟨h.made, htells.addsFrom.since⟩

end Progress

/-! ## The active sink -/

namespace Logbook

/-- The book with another active sink. -/
def withActive (active : Sink) (book : Logbook) : Logbook := { book with active }

variable {active : Sink}

/-- Which sink is active is nothing to a call. -/
@[simp] theorem emit_withActive (issuer : Issuer) (sink : Sink) (call : Call) (book : Logbook) :
    emit issuer sink call (book.withActive active)
      = ((emit issuer sink call book).1, (emit issuer sink call book).2.withActive active) := by
  induction sink generalizing call with
  | recorder id refuses => rfl
  | fuse id capacity => rfl
  | plain id settings target =>
    have hthreshold : (book.withActive active).threshold = book.threshold := rfl
    simp only [emit, hthreshold]
    cases PlainText.written settings book.threshold call with
    | none => rfl
    | some text => cases target <;> rfl
  | wire id showTrace behind ih =>
    simp only [emit, ih]
    rfl
  | foreign id verbose replies => rfl

end Logbook

open Logbook

namespace Activity

variable {active : Sink}

/-- A start on a given sink does not depend on the active one. -/
theorem start_withActive (sink : Sink) (level : Level) (kind : ActivityKind) (text : String)
    (fields : List Field) (parent : UInt64) (book : Logbook) :
    start sink level kind text fields parent (book.withActive active)
      = ((start sink level kind text fields parent book).1,
        (start sink level kind text fields parent book).2.withActive active) := by
  have hid : (book.withActive active).nextId = (book.nextId.1, book.nextId.2.withActive active) :=
    rfl
  simp only [start, hid, emit_withActive]
  generalize emit .handle sink (.start book.nextId.1 level kind text fields parent) book.nextId.2
    = outcome
  obtain ⟨_ | _, after⟩ := outcome <;> rfl

/-- A stop does not, since a handle has its sink. -/
theorem stop_withActive (activity : Activity) (book : Logbook) :
    activity.stop (book.withActive active) = (activity.stop book).withActive active := by
  simp only [stop, emit_withActive]
  generalize emit .handle activity.sink (.stop activity.id) book = outcome
  obtain ⟨_ | _, after⟩ := outcome <;> rfl

end Activity

namespace Channel

variable {channel : Channel} {sink active : Sink}

/-- What has become of a line, but that another sink is active. -/
def Handled.withActive (active : Sink) (handled : Handled) : Handled :=
  { handled with book := handled.book.withActive active }

theorem passedOn_withActive (channel : Channel) (outcome : Except Failure Unit × Logbook) :
    channel.passedOn (outcome.1, outcome.2.withActive active)
      = (channel.passedOn outcome).withActive active := by
  obtain ⟨_ | _, after⟩ := outcome <;> rfl

/-- On a channel with a sink of its own, the start for a message does not either. -/
theorem AllOn.accept_withActive (h : channel.AllOn sink) (remote : UInt64) (level : Level)
    (kind : ActivityKind) (text : String) (values : Option (List Json)) (book : Logbook) :
    channel.accept remote level kind text values (book.withActive active)
      = (channel.accept remote level kind text values book).withActive active := by
  unfold accept
  cases Field.decode values with
  | error unsupported => rfl
  | ok fields =>
    simp only [h.targetSink, Activity.start_withActive]
    generalize Activity.start sink level kind text fields channel.parent book = outcome
    obtain ⟨_ | _, after⟩ := outcome <;> rfl

/-- **What becomes of a message does not depend on the active sink.** -/
theorem AllOn.handle_withActive (h : channel.AllOn sink) (message : Wire.Message)
    (trusted : Bool) (book : Logbook) :
    channel.handle message trusted (book.withActive active)
      = (channel.handle message trusted book).withActive active := by
  cases message with
  | start remote level kind text parent values =>
    simp only [handle]
    split
    · rfl
    · split
      · rfl
      · exact h.accept_withActive remote level kind text values book
  | stop remote =>
    simp only [handle]
    cases channel.find remote with
    | none => rfl
    | some activity =>
      simp only [Activity.stop_withActive]
      rfl
  | update remote kind values =>
    simp only [handle]
    cases channel.find remote with
    | none => rfl
    | some activity =>
      cases Field.decode values with
      | error unsupported => rfl
      | ok fields =>
        simp only [Activity.update, emit_withActive]
        exact channel.passedOn_withActive _
  | phase name =>
    simp only [handle, emit_withActive]
    exact channel.passedOn_withActive _
  | message level text raw =>
    simp only [handle, h.targetSink, emit_withActive]
    exact channel.passedOn_withActive _
  | unknown => rfl

/-- Nor does a warning. -/
theorem AllOn.warn_withActive (h : channel.AllOn sink) (text : String) (book : Logbook) :
    channel.warn text (book.withActive active) = (channel.warn text book).withActive active := by
  simp only [warn, h.targetSink, emit_withActive]
  generalize emit .channel sink (.warning text) book = outcome
  obtain ⟨_ | _, after⟩ := outcome <;> rfl

/-- **What becomes of a line does not depend on the active sink.** -/
theorem AllOn.handleLine_withActive (h : channel.AllOn sink) (line source : String)
    (trusted : Bool) (book : Logbook) :
    channel.handleLine line source trusted (book.withActive active)
      = (channel.handleLine line source trusted book).withActive active := by
  cases hheard : heard? line with
  | some message =>
    simp only [handleLine_of_heard hheard]
    exact h.handle_withActive message trusted book
  | none =>
    unfold handleLine
    split
    · rfl
    · split
      · simp only [complain, h.warn_withActive]
        rfl
      · split
        · simp only [complain, h.warn_withActive]
          rfl
        · exact h.handle_withActive _ trusted book

/-- Nor does the end of a channel. -/
theorem close_withActive (channel : Channel) (book : Logbook) :
    channel.close (book.withActive active) = (channel.close book).withActive active := by
  unfold close
  induction channel.leaving generalizing book with
  | nil => rfl
  | cons entry rest ih =>
    simp only [List.foldl_cons, Activity.stop_withActive]
    exact ih _

end Channel

/-! ## Installing sinks in between -/

/-- The turn reaches the channel. -/
def Turn.isHeard : Turn → Bool
  | .line .. => true
  | .message .. => true
  | .elsewhere _ => false

/-- Another sink is installed. -/
def Turn.install (sink : Sink) : Turn := .elsewhere fun book => book.install sink

/-- All that was done, apart from notes. -/
def withoutNotes (entries : List Entry) : List Entry := entries.filter fun entry => !entry.isNote

theorem withoutNotes_append (entries added : List Entry) :
    withoutNotes (entries ++ added) = withoutNotes entries ++ withoutNotes added :=
  List.filter_append ..

namespace Logbook

/-- Two books that differ in notes and in the active sink only. -/
def AlikeButActive (a b : Logbook) : Prop := a.Alike (b.withActive a.active)

variable {a b a' b' : Logbook}

/-- What is added to books that agree but for the active sink, is the same but for notes. -/
theorem AlikeButActive.withoutNotes_since (h : AlikeButActive a b) (h' : AlikeButActive a' b')
    (ha : ∃ added, a'.entries = a.entries ++ added)
    (hb : ∃ added, b'.entries = b.entries ++ added) :
    withoutNotes (since a a') = withoutNotes (since b b') := by
  obtain ⟨added, hadded⟩ := ha
  obtain ⟨others, hothers⟩ := hb
  have hbefore : withoutNotes a.entries = withoutNotes b.entries := h.happened
  have hafter : withoutNotes a'.entries = withoutNotes b'.entries := h'.happened
  rw [hadded, hothers, withoutNotes_append, withoutNotes_append, hbefore] at hafter
  rw [since_eq hadded, since_eq hothers]
  exact List.append_cancel_left hafter

end Logbook

namespace Progress

variable {sink : Sink} {p q : Progress}

/-- The same has happened to both channels, while other sinks may be active. -/
structure Unmoved (p q : Progress) : Prop where
  results : p.results = q.results
  channel : p.channel = q.channel
  book : p.book.AlikeButActive q.book
  made : withoutNotes p.made = withoutNotes q.made

theorem unmoved_refl (p : Progress) : p.Unmoved p := ⟨rfl, rfl, alike_refl p.book, rfl⟩

theorem Unmoved.enter (h : p.Unmoved q) {x y : Channel.Handled}
    (halike : x.Alike (y.withActive p.book.active))
    (hx : ∃ added, x.book.entries = p.book.entries ++ added)
    (hy : ∃ added, y.book.entries = q.book.entries ++ added) :
    (p.enter x).Unmoved (q.enter y) := by
  have hactive : x.book.active = p.book.active := halike.book.active
  have hbook : x.book.AlikeButActive y.book := by
    rw [AlikeButActive, hactive]
    exact halike.book
  refine ⟨?_, halike.channel, hbook, ?_⟩
  · show p.results ++ [x.result] = q.results ++ [y.result]
    rw [h.results, halike.result]
    rfl
  · show withoutNotes (p.made ++ _) = withoutNotes (q.made ++ _)
    rw [withoutNotes_append, withoutNotes_append, h.made,
      h.book.withoutNotes_since hbook hx hy]

/-- A line or a message moves both runs in the same way. -/
theorem Unmoved.step (h : p.Unmoved q) (hallOn : q.channel.AllOn sink) {turn : Turn}
    (hheard : turn.isHeard = true) : (p.step turn).Unmoved (q.step turn) := by
  cases turn with
  | line text source trusted =>
    obtain ⟨added, hadded, -⟩ :=
      Channel.effect_handleLine p.channel text source trusted p.book
    obtain ⟨others, hothers, -⟩ :=
      Channel.effect_handleLine q.channel text source trusted q.book
    refine h.enter ?_ ⟨added, hadded⟩ ⟨others, hothers⟩
    rw [h.channel, ← hallOn.handleLine_withActive]
    exact q.channel.handleLine_congr text source trusted h.book
  | message message trusted =>
    obtain ⟨added, hadded, -⟩ := Channel.effect_handle p.channel message trusted p.book
    obtain ⟨others, hothers, -⟩ := Channel.effect_handle q.channel message trusted q.book
    refine h.enter ?_ ⟨added, hadded⟩ ⟨others, hothers⟩
    rw [h.channel, ← hallOn.handle_withActive]
    exact q.channel.handle_congr message trusted h.book
  | elsewhere change => simp [Turn.isHeard] at hheard

/-- Installing a sink moves the first run only, and nothing that the channel could see. -/
theorem Unmoved.install (h : p.Unmoved q) (active : Sink) :
    (p.step (.install active)).Unmoved q := by
  refine ⟨h.results, h.channel, ?_, h.made⟩
  have hbook : (p.book.withActive active).Alike (q.book.withActive active) :=
    ⟨h.book.threshold, rfl, h.book.processId, h.book.issued, h.book.happened⟩
  exact (alike_addNote _ _).trans hbook

/-- **A run beside which sinks are installed goes as if none was.** -/
theorem unmoved_run (h : p.Unmoved q) (hkeeps : q.KeepsTo sink) {turns : List Turn}
    (hturns : ∀ turn ∈ turns, turn.isHeard = true ∨ ∃ active, turn = .install active) :
    (p.run turns).Unmoved (q.run (turns.filter Turn.isHeard)) := by
  induction turns generalizing p q with
  | nil => exact h
  | cons turn turns ih =>
    obtain ⟨hturn, hrest⟩ := List.forall_mem_cons.mp hturns
    rcases hturn with hheard | ⟨active, rfl⟩
    · rw [List.filter_cons_of_pos hheard]
      exact ih (h.step hkeeps.allOn hheard) (hkeeps.step turn) hrest
    · rw [List.filter_cons_of_neg (by simp [Turn.install, Turn.isHeard])]
      exact ih (h.install active) hkeeps hrest

/-- The ends of both runs agree as well. -/
theorem Unmoved.close (h : p.Unmoved q) : p.close.Unmoved q.close := by
  have halike := q.channel.close_congr h.book
  rw [Channel.close_withActive] at halike
  have hactive : (q.channel.close p.book).active = p.book.active := halike.active
  have hbook : (q.channel.close p.book).AlikeButActive (q.channel.close q.book) := by
    rw [AlikeButActive, hactive]
    exact halike
  obtain ⟨added, hadded, -⟩ := Channel.close_entries q.channel p.book
  obtain ⟨others, hothers, -⟩ := Channel.close_entries q.channel q.book
  refine ⟨h.results, ?_, ?_, ?_⟩
  · show { p.channel with running := [] } = { q.channel with running := [] }
    rw [h.channel]
  · show (p.channel.close p.book).AlikeButActive (q.channel.close q.book)
    rw [h.channel]
    exact hbook
  · show withoutNotes (p.made ++ Logbook.since p.book (p.channel.close p.book))
      = withoutNotes (q.made ++ Logbook.since q.book (q.channel.close q.book))
    rw [h.channel, withoutNotes_append, withoutNotes_append, h.made,
      h.book.withoutNotes_since hbook ⟨added, hadded⟩ ⟨others, hothers⟩]

end Progress

end Worklog
