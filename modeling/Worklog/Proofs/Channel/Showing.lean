import Worklog.Proofs.Channel.Registry
import Worklog.Proofs.Channel.Replay

/-!
# What a reader sees

A plain sink writes the same text for calls that reach it directly and for calls that another program
sends, and a channel repeats: the numbers of the activities are others then, and reports have become
messages, but neither shows.

* `tells_run` — a channel with everything on one sink tells no other sink anything.
* `Tells.textOn` — what a plain sink writes is what its calls have to say.
* `textOn_replay` — the text of the calls, and the text of their replay.
-/

namespace Worklog

namespace Logbook

/-! ## Telling one sink -/

/-- From one book to another, nothing is done but to tell one sink these calls, to take notes and to
give out numbers. -/
inductive Tells (sink : Sink) (before : Logbook) : List Call → Logbook → Prop where
  | nothing : Tells sink before [] before
  | call {calls : List Call} {after : Logbook} (h : Tells sink before calls after)
      (issuer : Issuer) (said : Call) :
      Tells sink before (calls ++ [said]) (emit issuer sink said after).2
  | note {calls : List Call} {after : Logbook} (h : Tells sink before calls after) (note : Note) :
      Tells sink before calls (after.addNote note)
  | number {calls : List Call} {after : Logbook} (h : Tells sink before calls after) :
      Tells sink before calls after.nextId.2

variable {sink : Sink} {a b c : Logbook} {calls more : List Call}

theorem Tells.trans (h : Tells sink a calls b) (h' : Tells sink b more c) :
    Tells sink a (calls ++ more) c := by
  induction h' with
  | nothing =>
    rw [List.append_nil]
    exact h
  | call h' issuer said ih =>
    rw [← List.append_assoc]
    exact ih.call issuer said
  | note h' note ih => exact ih.note note
  | number h' ih => exact ih.number

theorem tells_emit (issuer : Issuer) (sink : Sink) (said : Call) (book : Logbook) :
    Tells sink book [said] (emit issuer sink said book).2 :=
  Tells.nothing.call issuer said

/-- Calls that are made one after the other are told one after the other. -/
theorem tells_tellAll (issuer : Issuer) (sink : Sink) (calls : List Call) (book : Logbook) :
    Tells sink book calls (tellAll issuer sink calls book) := by
  induction calls generalizing book with
  | nil => exact .nothing
  | cons said calls ih => exact (tells_emit issuer sink said book).trans (ih _)

/-- A sink that listens hears what it is told. -/
theorem Tells.heard {heard : Logbook → List Call} (hl : Listens sink heard)
    (h : Tells sink a calls b) : heard b = heard a ++ calls := by
  induction h with
  | nothing => rw [List.append_nil]
  | call h issuer said ih => rw [hl.hears, ih, List.append_assoc]
  | note h note ih => rw [hl.note, ih]
  | number h ih => rw [hl.nextId, ih]

end Logbook

/-! ## Channels with everything on one sink -/

open Logbook

/-- A start tells its sink only, if anything. -/
theorem tells_start (sink : Sink) (level : Level) (kind : ActivityKind) (text : String)
    (fields : List Field) (parent : UInt64) (book : Logbook) :
    ∃ calls, Tells sink book calls (Activity.start sink level kind text fields parent book).2 := by
  have htells : Tells sink book [.start book.nextId.1 level kind text fields parent] _ :=
    Tells.nothing.number.call .handle _
  simp only [Activity.start]
  split
  next hemit =>
    rw [hemit] at htells
    exact ⟨_, htells⟩
  next hemit =>
    rw [hemit] at htells
    exact ⟨_, htells.note _⟩

/-- A stop tells the sink of the activity, also if it fails there. -/
theorem tells_stop (activity : Activity) (book : Logbook) :
    Tells activity.sink book [.stop activity.id] (activity.stop book) := by
  have htells := tells_emit .handle activity.sink (.stop activity.id) book
  rcases activity.stop_eq book with hstop | ⟨note, hstop⟩
  · rw [hstop]
    exact htells
  · rw [hstop]
    exact htells.note note

namespace Channel

/-- All that a channel does goes to one sink. -/
structure AllOn (channel : Channel) (sink : Sink) : Prop where
  target : channel.target = some sink
  phases : channel.phaseSink = sink
  running : ∀ entry ∈ channel.running, entry.2.sink = sink

variable {channel : Channel} {sink : Sink}

theorem allOn_pinned (parent : UInt64) (sink : Sink) {place : UInt64 → Nat} :
    (pinned parent sink place).AllOn sink :=
  ⟨rfl, rfl, by simp [pinned]⟩

theorem AllOn.targetSink (h : channel.AllOn sink) (book : Logbook) :
    channel.targetSink book = sink := by
  rw [Channel.targetSink, h.target, Option.getD_some]

/-- Whatever runs on a channel with one sink, runs on that sink. -/
theorem AllOn.find (h : channel.AllOn sink) {remote : UInt64} {activity : Activity}
    (hfind : channel.find remote = some activity) : activity.sink = sink := by
  obtain ⟨older, newer, hrunning, -⟩ := exists_of_find hfind
  exact h.running (remote, activity) (by simp [hrunning])

theorem AllOn.started (h : channel.AllOn sink) (remote id : UInt64) :
    (channel.started remote ⟨id, sink⟩).AllOn sink := by
  refine ⟨h.target, h.phases, fun entry hentry => ?_⟩
  rcases List.mem_append.mp hentry with hentry | hentry
  · exact h.running entry hentry
  · rw [List.mem_singleton.mp hentry]

theorem AllOn.stopped (h : channel.AllOn sink) (remote : UInt64) :
    (channel.stopped remote).AllOn sink :=
  ⟨h.target, h.phases, fun entry hentry => h.running entry (List.mem_of_mem_filter hentry)⟩

/-- A start for a message tells the one sink, and the new activity is on it. -/
theorem tells_accept (h : channel.AllOn sink) (remote : UInt64) (level : Level)
    (kind : ActivityKind) (text : String) (values : Option (List Json)) (book : Logbook) :
    (∃ calls, Tells sink book calls (channel.accept remote level kind text values book).book)
      ∧ (channel.accept remote level kind text values book).channel.AllOn sink := by
  unfold accept
  split
  · exact ⟨⟨[], .nothing⟩, h⟩
  next fields hdecode =>
    obtain ⟨calls, htells⟩ := tells_start sink level kind text fields channel.parent book
    rw [h.targetSink]
    split
    next hstart =>
      rw [hstart] at htells
      exact ⟨⟨calls, htells⟩, h⟩
    next activity after hstart =>
      rw [hstart] at htells
      refine ⟨⟨calls, htells⟩, ?_⟩
      simp only [Activity.start] at hstart
      split at hstart
      next => cases hstart
      next =>
        cases hstart
        exact h.started remote _

/-- **A message leads to calls on the one sink only.** -/
theorem tells_handle (h : channel.AllOn sink) (message : Wire.Message) (trusted : Bool)
    (book : Logbook) :
    (∃ calls, Tells sink book calls (channel.handle message trusted book).book)
      ∧ (channel.handle message trusted book).channel.AllOn sink := by
  cases message with
  | start remote level kind text parent values =>
    simp only [handle]
    split
    · exact ⟨⟨[], .note .nothing _⟩, h⟩
    · split
      · exact ⟨⟨[], .note .nothing _⟩, h⟩
      · exact tells_accept h remote level kind text values book
  | stop remote =>
    simp only [handle]
    split
    · exact ⟨⟨[], .nothing⟩, h⟩
    next activity hfind =>
      have htells := tells_stop activity book
      rw [h.find hfind] at htells
      exact ⟨⟨_, htells⟩, h.stopped remote⟩
  | update remote kind values =>
    simp only [handle]
    split
    · exact ⟨⟨[], .nothing⟩, h⟩
    next activity hfind =>
      split
      · exact ⟨⟨[], .nothing⟩, h⟩
      · rw [passedOn_book, passedOn_channel, Activity.update, h.find hfind]
        exact ⟨⟨_, tells_emit _ _ _ _⟩, h⟩
  | phase name =>
    rw [handle, passedOn_book, passedOn_channel, h.phases]
    exact ⟨⟨_, tells_emit _ _ _ _⟩, h⟩
  | message level text raw =>
    rw [handle, passedOn_book, passedOn_channel, h.targetSink]
    exact ⟨⟨_, tells_emit _ _ _ _⟩, h⟩
  | unknown => exact ⟨⟨[], .nothing⟩, h⟩

/-- A warning goes to the one sink, too. -/
theorem tells_warn (h : channel.AllOn sink) (text : String) (book : Logbook) :
    ∃ calls, Tells sink book calls (channel.warn text book) := by
  have htells := tells_emit .channel sink (.warning text) book
  rw [← h.targetSink book] at htells ⊢
  rcases channel.warn_eq text book with hwarn | ⟨note, hwarn⟩
  · rw [hwarn]
    exact ⟨_, htells⟩
  · rw [hwarn]
    exact ⟨_, htells.note note⟩

/-- Whatever a line says, the one sink is told and no other. -/
theorem tells_handleLine (h : channel.AllOn sink) (line source : String) (trusted : Bool)
    (book : Logbook) :
    (∃ calls, Tells sink book calls (channel.handleLine line source trusted book).book)
      ∧ (channel.handleLine line source trusted book).channel.AllOn sink := by
  cases hheard : heard? line with
  | some message =>
    rw [handleLine_of_heard hheard]
    exact tells_handle h message trusted book
  | none =>
    rcases handleLine_of_unheard hheard channel source trusted book with ⟨-, hleft⟩ | ⟨_, _, hleft⟩
    · rw [hleft]
      exact ⟨⟨[], .nothing⟩, h⟩
    · rw [hleft]
      exact ⟨tells_warn h _ book, h⟩

end Channel

/-- **Lines lead to calls on the one sink only.** -/
theorem Progress.tells_run {sink : Sink} {p : Progress} (h : p.channel.AllOn sink)
    (trusted : Bool) (feed : List (String × String)) :
    ∃ calls, Tells sink p.book calls (p.run (Turn.ofLines trusted feed)).book := by
  induction feed generalizing p with
  | nil => exact ⟨[], .nothing⟩
  | cons line feed ih =>
    obtain ⟨line, source⟩ := line
    obtain ⟨⟨first, hfirst⟩, hallOn⟩ := Channel.tells_handleLine h line source trusted p.book
    obtain ⟨others, hothers⟩ := ih (p := p.step (.line line source trusted)) hallOn
    exact ⟨first ++ others, hfirst.trans hothers⟩

/-! ## Plain text -/

/-- The output that a target stands for. -/
def Target.output? (id : Nat) : Target → Option Output
  | .buffer => some (.buffer id)
  | .stderr => some .stderr
  | .closed => none

namespace Logbook

variable {id : Nat} {settings : Settings} {target : Target} {a b : Logbook} {calls : List Call}

theorem textOn_add_call (book : Logbook) (issuer : Issuer) (sink : Sink) (call : Call)
    (result : Except Failure Unit) (output : Output) :
    (book.add (.call issuer sink call result)).textOn output = book.textOn output := by
  simp [textOn]

theorem textOn_addNote (book : Logbook) (note : Note) (output : Output) :
    (book.addNote note).textOn output = book.textOn output := by
  simp [textOn]

/-- A text adds to its own output, and to no other. -/
theorem textOn_add_text (book : Logbook) (place : Output) (text : String) (output : Output) :
    (book.add (.text place text)).textOn output
      = book.textOn output ++ if some place = some output then text else "" := by
  by_cases h : place = output
  · simp [textOn, h]
  · simp [textOn, h]

/-- What is written goes to the output of the target. A closed one takes nothing. -/
theorem textOn_write (book : Logbook) (id : Nat) (target : Target) (text : String)
    (output : Output) :
    (book.write id target text).textOn output
      = book.textOn output ++ if target.output? id = some output then text else "" := by
  cases target with
  | buffer => exact textOn_add_text book _ text output
  | stderr => exact textOn_add_text book _ text output
  | closed =>
    rw [write, textOn_addNote, Target.output?, if_neg (by simp), String.append_empty]

/-- What calls add to an output, when a plain sink is told them. -/
def shown (id : Nat) (settings : Settings) (target : Target) (threshold : Level)
    (output : Output) (calls : List Call) : String :=
  String.join ((calls.filterMap (PlainText.written settings threshold)).map fun text =>
    if target.output? id = some output then text else "")

/-- What calls show is put together from what each of them shows. -/
theorem shown_append (threshold : Level) (output : Output) (calls more : List Call) :
    shown id settings target threshold output (calls ++ more)
      = shown id settings target threshold output calls
        ++ shown id settings target threshold output more := by
  rw [shown, List.filterMap_append, List.map_append, String.join_append]
  rfl

/-- A call on a plain sink adds to its output what the call shows. -/
theorem textOn_emit_plain (issuer : Issuer) (call : Call) (book : Logbook) (output : Output) :
    (emit issuer (.plain id settings target) call book).2.textOn output
      = book.textOn output ++ shown id settings target book.threshold output [call] := by
  simp only [emit, textOn_add_call, shown, List.filterMap_cons, List.filterMap_nil]
  cases PlainText.written settings book.threshold call with
  | none => simp
  | some text => simp [textOn_write]

/-- **A plain sink writes what its calls have to say**, and the threshold stays as it is. -/
theorem Tells.textOn (h : Tells (.plain id settings target) a calls b) (output : Output) :
    b.threshold = a.threshold
      ∧ b.textOn output = a.textOn output
        ++ shown id settings target a.threshold output calls := by
  induction h with
  | nothing => simp [shown]
  | call h issuer said ih =>
    obtain ⟨hthreshold, htext⟩ := ih
    refine ⟨(extends_emit issuer _ said _).threshold.trans hthreshold, ?_⟩
    rw [textOn_emit_plain, htext, hthreshold, shown_append, String.append_assoc]
  | note h note ih =>
    rw [textOn_addNote]
    exact ih
  | number h ih => exact ih

/-! ## Replays -/

/-- The calls on a sink, whether it keeps them or not. -/
def callsOn (id : Nat) (book : Logbook) : List Call :=
  book.entries.filterMap fun entry => match entry with
    | .call _ sink call _ => if sink.id = id then some call else none
    | _ => none

theorem callsOn_add_call {sink : Sink} (h : sink.id = id) (book : Logbook) (issuer : Issuer)
    (call : Call) (result : Except Failure Unit) :
    (book.add (.call issuer sink call result)).callsOn id = book.callsOn id ++ [call] := by
  simp [callsOn, h]

/-- What a sink writes is no call. -/
theorem callsOn_write (book : Logbook) (sink : Nat) (target : Target) (text : String) :
    (book.write sink target text).callsOn id = book.callsOn id := by
  cases target <;> simp [write, callsOn]

theorem listens_plain (id : Nat) (settings : Settings) (target : Target) :
    Listens (.plain id settings target) (callsOn id) where
  takes _ _ _ := rfl
  hears issuer call book := by
    have hid : (Sink.plain id settings target).id = id := rfl
    rw [emit, callsOn_add_call hid]
    cases PlainText.written settings book.threshold call with
    | none => rfl
    | some text => rw [callsOn_write]
  note book note := by simp [callsOn]
  nextId book := rfl

end Logbook

variable {parent : UInt64} {settings : Settings} {latest latest' : UInt64 → Option UInt64}
variable {running : List UInt64} {call : Call} {calls copies : List Call}

/-- A copy has to say what its call has to say. -/
theorem Copied.written (h : Copied parent settings.showTrace true latest call copies latest')
    (ht : Tracks true running latest) (hcall : call.InOrder running) (threshold : Level) :
    copies.filterMap (PlainText.written settings threshold)
      = [call].filterMap (PlainText.written settings threshold) := by
  cases h with
  | log => rfl
  | report =>
    -- The copy is a message, whose text is there from the beginning.
    rw [List.filterMap_cons, List.filterMap_cons, PlainText.written_eq, PlainText.written_eq]
    rfl
  | start allowed => rfl
  | refused untrusted other => simp at untrusted
  | update running => rfl
  | stop running => rfl
  | lostUpdate absent => exact (ht.complete rfl _ hcall.1 absent).elim
  | lostStop absent => rfl

/-- All copies together write what their calls write, under every threshold. -/
theorem Copies.written (h : Copies parent settings.showTrace true latest calls copies)
    (ht : Tracks true running latest) (hcalls : Call.WellFormed running calls)
    (threshold : Level) :
    copies.filterMap (PlainText.written settings threshold)
      = calls.filterMap (PlainText.written settings threshold) := by
  induction h generalizing running with
  | nil => rfl
  | cons first others ih =>
    obtain ⟨hcall, hcalls⟩ := hcalls
    rw [List.filterMap_append, first.written ht hcall,
      ih (first.tracks ht hcall) hcalls, ← List.filterMap_append, List.singleton_append]

/--
**Sending calls over the wire does not change what a reader sees.**

The calls in order are made on a plain sink; or they are made by another program on a wire sink that
shows traces iff the plain one does, in front of a sink that keeps lines, and its lines reach a
trusted channel with everything on the plain sink, also with other lines between them that carry no
message. Either way the same text is written, to the buffer of the sink or to the error output,
whatever the settings of the sink and the threshold are.
-/
theorem textOn_replay {behind : Sink} {read : Logbook → List String}
    (hbehind : KeepsLines behind read) (issuer : Issuer) (front : Nat) (settings : Settings)
    {calls : List Call} (hcalls : Call.WellFormed [] calls) (there : Logbook)
    {lines : List String}
    (hlines : read (tellAll issuer (.wire front settings.showTrace behind) calls there)
      = read there ++ lines)
    {feed : List (String × String)} (hfeed : (feed.map Prod.fst).filter Wire.isMarked = lines)
    (parent : UInt64) (id : Nat) (target : Target) (here : Logbook) (output : Output) :
    let sink : Sink := .plain id settings target
    let start : Progress := { channel := .pinned parent sink, book := here }
    (start.run (Turn.ofLines true feed)).book.textOn output
      = (tellAll issuer sink calls here).textOn output := by
  intro sink start
  rw [read_tellAll hbehind, List.append_cancel_left_eq] at hlines
  obtain ⟨-, copies, hheard, hcopies, -⟩ :=
    Progress.copies_run (p := start) (listens_plain id settings target)
      (Channel.follows_pinned parent sink) (tracks_nil true) hcalls (hfeed.trans hlines.symm)
  -- What the sink is told in the replay are the copies of the calls.
  obtain ⟨told, htold⟩ := Progress.tells_run (p := start) (Channel.allOn_pinned parent sink)
    true feed
  obtain rfl : told = copies :=
    List.append_cancel_left ((htold.heard (listens_plain id settings target)).symm.trans hheard)
  rw [(htold.textOn output).2, ((tells_tellAll issuer sink calls here).textOn output).2, shown,
    shown, hcopies.written (tracks_nil true) hcalls]

/-- A build that fails, with a report of how it came to it. -/
def failedBuild : List Call :=
  [.start 7 .info .build "building" [] 0, .update 7 .buildLogLine [.text "cc: out of memory"],
    .log .debug "retry?", .report ⟨.error, "failed", none, [⟨"while building", none⟩]⟩, .stop 7]

theorem textOn_replay_failedBuild :
    let sink : Sink := .plain 2 ⟨true, true, true, false⟩ .buffer
    let start : Progress := { channel := .pinned 500 sink, book := {} }
    let feed := failedBuild.map fun call => ((call.record true).line, "builder")
    (start.run (Turn.ofLines true feed)).book.textOn (.buffer 2)
      = "<5>building...\n<3>cc: out of memory\n<3>error: failed\n       … while building\n" := by
  intro sink start feed
  have hcalls : Call.WellFormed [] failedBuild := by decide
  have hlines : feed.map Prod.fst = failedBuild.map fun call => (call.record true).line := by
    simp [feed]
  have hfeed : (feed.map Prod.fst).filter Wire.isMarked
      = failedBuild.map fun call => (call.record true).line := by
    rw [hlines, List.filter_eq_self]
    intro line hline
    obtain ⟨call, -, rfl⟩ := List.mem_map.mp hline
    exact Wire.isMarked_line _
  rw [textOn_replay (keepsLines_recorder 1) .user 9 ⟨true, true, true, false⟩ hcalls {}
    (read_tellAll (keepsLines_recorder 1) .user 9 true failedBuild {}) hfeed 500 2 .buffer {}
    (.buffer 2)]
  rfl

end Worklog
