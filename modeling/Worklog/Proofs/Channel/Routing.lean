import Worklog.Proofs.Channel.Failing
import Worklog.Proofs.Channel.History
import Worklog.Proofs.Channel.Pinned
import Worklog.Proofs.Lifecycle.Handles

/-!
# Which sink is told

A channel under an activity uses three kinds of sinks. What the other program says, and warnings
about it, go to the sink that is active at that time, and so do starts. What becomes of an activity
that was started goes to the sink that was told of its start. The phases go to the sink of the
parent. Sinks may be installed at any time.

A channel with a sink of its own uses that sink only.

* `Routed` — where the calls of a turn go, by what is heard in it.
* `routed_step` — every turn goes where it should.
* `acts_close` — an activity is stopped once, where it was started.
* `routing` — all of it together.
-/

namespace Worklog

open Logbook

/-! ## The active sink -/

theorem Activity.start_active (sink : Sink) (level : Level) (kind : ActivityKind) (text : String)
    (fields : List Field) (parent : UInt64) (book : Logbook) :
    (start sink level kind text fields parent book).2.active = book.active := by
  have hemit := (extends_emit .handle sink
    (.start book.nextId.1 level kind text fields parent) book.nextId.2).active
  simp only [start]
  split
  next failure after hfailed =>
    rw [hfailed] at hemit
    exact hemit
  next after hdone =>
    rw [hdone] at hemit
    exact hemit

theorem Activity.stop_active (activity : Activity) (book : Logbook) :
    (activity.stop book).active = book.active := by
  have hemit := (extends_emit .handle activity.sink (.stop activity.id) book).active
  rcases activity.stop_eq book with hstop | ⟨note, hstop⟩
  · rw [hstop, hemit]
  · rw [hstop]
    exact hemit

namespace Channel

theorem accept_active (channel : Channel) (remote : UInt64) (level : Level) (kind : ActivityKind)
    (text : String) (values : Option (List Json)) (book : Logbook) :
    (channel.accept remote level kind text values book).book.active = book.active := by
  unfold accept
  cases Field.decode values with
  | error unsupported => rfl
  | ok fields =>
    have hstart := Activity.start_active (channel.targetSink book) level kind text fields
      channel.parent book
    simp only
    split
    next hfailed =>
      rw [hfailed] at hstart
      exact hstart
    next hdone =>
      rw [hdone] at hstart
      exact hstart

theorem handle_active (channel : Channel) (message : Wire.Message) (trusted : Bool)
    (book : Logbook) : (channel.handle message trusted book).book.active = book.active := by
  cases message with
  | start remote level kind text parent values =>
    simp only [handle]
    split
    · rfl
    · split
      · rfl
      · exact channel.accept_active remote level kind text values book
  | stop remote =>
    simp only [handle]
    split
    · rfl
    · exact Activity.stop_active _ book
  | update remote kind values =>
    simp only [handle]
    split
    · rfl
    · split
      · rfl
      · rw [passedOn_book]
        exact (extends_emit ..).active
  | phase name =>
    rw [handle, passedOn_book]
    exact (extends_emit ..).active
  | message level text raw =>
    rw [handle, passedOn_book]
    exact (extends_emit ..).active
  | unknown => rfl

theorem handleLine_active (channel : Channel) (line source : String) (trusted : Bool)
    (book : Logbook) :
    (channel.handleLine line source trusted book).book.active = book.active := by
  cases hheard : heard? line with
  | some message =>
    rw [handleLine_of_heard hheard]
    exact channel.handle_active message trusted book
  | none =>
    rcases handleLine_of_unheard hheard channel source trusted book with ⟨-, hleft⟩ | ⟨_, _, hleft⟩
    · rw [hleft]
    · rw [hleft]
      exact (channel.extends_warn _ book).active

/-- No effect gives the channel another parent or other sinks. -/
theorem Effect.sinks_eq {channel after : Channel} {trusted : Bool} {book : Logbook}
    {message? : Option Wire.Message} {added : List Entry}
    (heffect : Effect channel trusted book message? after added) :
    after.parent = channel.parent ∧ after.phaseSink = channel.phaseSink
      ∧ after.target = channel.target := by
  cases heffect <;> exact ⟨rfl, rfl, rfl⟩

end Channel

namespace Progress

/-- **Only who installs a sink makes another one active.** -/
theorem step_active (p : Progress) {turn : Turn} (hheard : turn.isHeard = true) :
    (p.step turn).book.active = p.book.active := by
  cases turn with
  | line text source trusted => exact p.channel.handleLine_active text source trusted p.book
  | message message trusted => exact p.channel.handle_active message trusted p.book
  | elsewhere change => simp [Turn.isHeard] at hheard

/-- Where a channel sends things is settled when it is opened. -/
theorem sinks_run (p : Progress) (turns : List Turn) :
    (p.run turns).channel.parent = p.channel.parent
      ∧ (p.run turns).channel.phaseSink = p.channel.phaseSink
      ∧ (p.run turns).channel.target = p.channel.target := by
  induction turns generalizing p with
  | nil => exact ⟨rfl, rfl, rfl⟩
  | cons turn turns ih =>
    obtain ⟨added, -, heffect⟩ := p.effect_step turn
    obtain ⟨hparent, hphase, htarget⟩ := heffect.sinks_eq
    rw [run_cons, ← hparent, ← hphase, ← htarget]
    exact ih (p.step turn)

/-! ## Where calls go -/

/-- A run under an activity that nothing has reached yet. -/
def under (parent : Activity) (book : Logbook) (place : UInt64 → Nat := fun _ => 0) : Progress :=
  { channel := .under parent place, book }

variable {parent : Activity} {start : Logbook} {place : UInt64 → Nat}

/-- What a turn adds after others, by what is heard in it: which call is made, and which sink is
told. -/
inductive Routed (parent : Activity) (start : Logbook) (place : UInt64 → Nat)
    (before : List Turn) : Turn → List Entry → Prop where
  /-- A line without a marker is nothing to the channel. -/
  | unmarked {line source : String} {trusted : Bool} (unmarked : Wire.payload? line = none) :
      Routed parent start place before (.line line source trusted) []
  | warning {line source text : String} {trusted : Bool} {result : Except Failure Unit}
      {added : List Entry} (marked : Wire.payload? line ≠ none)
      (unheard : Channel.heard? line = none)
      (told : Told .channel ((under parent start place).run before).book.active (.warning text)
        result added) :
      Routed parent start place before (.line line source trusted) added
  | message {turn : Turn} {level : Level} {text : String} {raw : Option String}
      {result : Except Failure Unit} {added : List Entry}
      (said : turn.message? = some (.message level text raw))
      (told : Told .channel ((under parent start place).run before).book.active (.log level text)
        result added) :
      Routed parent start place before turn added
  | phase {turn : Turn} {name : String} {result : Except Failure Unit} {added : List Entry}
      (said : turn.message? = some (.phase name))
      (told : Told .channel parent.sink
        (.update parent.id .setPhase (Activity.phaseFields name)) result added) :
      Routed parent start place before turn added
  | start {turn : Turn} {remote : UInt64} {level : Level} {kind : ActivityKind} {text : String}
      {origin : UInt64} {values : Option (List Json)} {fields : List Field}
      {result : Except Failure Unit} {added : List Entry}
      (said : turn.message? = some (.start remote level kind text origin values))
      (allowed : turn.trusted = true ∨ kind = .fileTransfer)
      (absent : ∀ activity, ¬ (under parent start place).AdmittedSince before remote activity)
      (decoded : Field.decode values = .ok fields)
      (told : Told .handle ((under parent start place).run before).book.active
        (.start ((under parent start place).run before).book.nextId.1 level kind text fields
          parent.id) result added) :
      Routed parent start place before turn added
  /-- A start that is refused, repeated or not understood is not passed on. -/
  | unstarted {turn : Turn} {remote : UInt64} {level : Level} {kind : ActivityKind} {text : String}
      {origin : UInt64} {values : Option (List Json)} {added : List Entry}
      (said : turn.message? = some (.start remote level kind text origin values))
      (why : turn.trusted = false ∧ kind ≠ .fileTransfer
        ∨ (∃ activity, (under parent start place).AdmittedSince before remote activity)
        ∨ ∃ unsupported, Field.decode values = .error unsupported)
      (notes : ∀ entry ∈ added, entry.isNote) :
      Routed parent start place before turn added
  | update {turn : Turn} {remote : UInt64} {kind : UpdateKind} {values : Option (List Json)}
      {fields : List Field} {activity : Activity} {result : Except Failure Unit}
      {added : List Entry} (said : turn.message? = some (.update remote kind values))
      (running : (under parent start place).AdmittedSince before remote activity)
      (decoded : Field.decode values = .ok fields)
      (told : Told .handle activity.sink (.update activity.id kind fields) result added) :
      Routed parent start place before turn added
  | stop {turn : Turn} {remote : UInt64} {activity : Activity} {result : Except Failure Unit}
      {added : List Entry} (said : turn.message? = some (.stop remote))
      (running : (under parent start place).AdmittedSince before remote activity)
      (told : Told .handle activity.sink (.stop activity.id) result added) :
      Routed parent start place before turn added
  /-- An update for nothing that runs, or one that is not understood. -/
  | ignored {turn : Turn} {remote : UInt64} {kind : UpdateKind} {values : Option (List Json)}
      (said : turn.message? = some (.update remote kind values))
      (why : (∀ activity, ¬ (under parent start place).AdmittedSince before remote activity)
        ∨ ∃ unsupported, Field.decode values = .error unsupported) :
      Routed parent start place before turn []
  /-- A stop for nothing that runs. -/
  | unstopped {turn : Turn} {remote : UInt64} (said : turn.message? = some (.stop remote))
      (absent : ∀ activity, ¬ (under parent start place).AdmittedSince before remote activity) :
      Routed parent start place before turn []
  | unknown {turn : Turn} (said : turn.message? = some .unknown) :
      Routed parent start place before turn []
  | elsewhere (change : Logbook → Logbook) : Routed parent start place before (.elsewhere change) []

theorem step_of_said (p : Progress) {turn : Turn} {message : Wire.Message}
    (hsaid : turn.message? = some message) :
    p.step turn = p.enter (p.channel.handle message turn.trusted p.book) := by
  cases turn with
  | line text source trusted => rw [step, Channel.handleLine_of_heard hsaid]; rfl
  | message said trusted =>
    rw [Turn.message?, Option.some.injEq] at hsaid
    rw [step, hsaid]
    rfl
  | elsewhere change => simp [Turn.message?] at hsaid

variable {before : List Turn}

/-- What is registered after a run under an activity, is what was admitted and not stopped since. -/
theorem find_under_iff (parent : Activity) (start : Logbook) (place : UInt64 → Nat)
    (turns : List Turn) (remote : UInt64) (activity : Activity) :
    ((under parent start place).run turns).channel.find remote = some activity
      ↔ (under parent start place).AdmittedSince turns remote activity :=
  (history_run parent.id parent.sink none start place turns).found remote activity

/-- An id that the registry does not have stands for no activity that has been admitted since. -/
theorem not_admitted_of_find {turns : List Turn} {remote : UInt64}
    (h : ((under parent start place).run turns).channel.find remote = none) (activity : Activity) :
    ¬ (under parent start place).AdmittedSince turns remote activity := by
  intro hadmitted
  rw [← find_under_iff, h] at hadmitted
  simp at hadmitted

/-- After a run under an activity, the channel still has no sink of its own. -/
theorem targetSink_under (parent : Activity) (start : Logbook) (place : UInt64 → Nat)
    (turns : List Turn) (book : Logbook) :
    ((under parent start place).run turns).channel.targetSink book = book.active := by
  obtain ⟨-, -, htarget⟩ := (under parent start place).sinks_run turns
  rw [Channel.targetSink, htarget]
  rfl

/-- A start goes where it should. -/
theorem routed_start (parent : Activity) (start : Logbook) (place : UInt64 → Nat)
    (before : List Turn) {turn : Turn}
    {remote : UInt64} {level : Level} {kind : ActivityKind} {text : String} {origin : UInt64}
    {values : Option (List Json)}
    (hsaid : turn.message? = some (.start remote level kind text origin values)) :
    let q := (under parent start place).run before
    ∃ added, (q.channel.handle (.start remote level kind text origin values) turn.trusted
        q.book).book.entries = q.book.entries ++ added
      ∧ Routed parent start place before turn added := by
  intro q
  simp only [Channel.handle]
  split
  next hrefused =>
    rw [Channel.mayStart_eq_false_iff] at hrefused
    exact ⟨_, rfl, .unstarted hsaid (.inl hrefused) (by simp [Entry.isNote])⟩
  next hallowed =>
    rw [Bool.not_eq_false, Channel.mayStart_eq_true_iff] at hallowed
    split
    next hrunning =>
      obtain ⟨activity, hfind⟩ := Option.isSome_iff_exists.mp hrunning
      have hadmitted := (find_under_iff parent start place before remote activity).mp hfind
      exact ⟨_, rfl, .unstarted hsaid (.inr (.inl ⟨activity, hadmitted⟩))
        (by simp [Entry.isNote])⟩
    next hidle =>
      have hnone : q.channel.find remote = none := by
        simpa [Channel.isRunning] using hidle
      cases hdecode : Field.decode values with
      | error unsupported =>
        refine ⟨[], ?_, .unstarted hsaid (.inr (.inr ⟨unsupported, hdecode⟩)) (by simp)⟩
        simp only [Channel.accept, hdecode, List.append_nil]
      | ok fields =>
        obtain ⟨added, hentries, htold⟩ :=
          (Channel.attempt_accept hdecode q.channel remote level kind text q.book).told
        obtain ⟨hparent, -, -⟩ := (under parent start place).sinks_run before
        rw [targetSink_under, Channel.startCall, hparent] at htold
        exact ⟨added, hentries,
          .start hsaid hallowed (not_admitted_of_find hnone) hdecode htold⟩

/-- **A message goes where it should.** -/
theorem routed_said (parent : Activity) (start : Logbook) (place : UInt64 → Nat)
    (before : List Turn) {turn : Turn}
    {message : Wire.Message} (hsaid : turn.message? = some message) :
    let q := (under parent start place).run before
    ∃ added, (q.channel.handle message turn.trusted q.book).book.entries
        = q.book.entries ++ added
      ∧ Routed parent start place before turn added := by
  intro q
  cases message with
  | start remote level kind text origin values => exact routed_start parent start place before hsaid
  | stop remote =>
    simp only [Channel.handle]
    split
    next hfind => exact ⟨[], by simp, .unstopped hsaid (not_admitted_of_find hfind)⟩
    next activity hfind =>
      obtain ⟨added, result, hentries, htold⟩ := told_stop activity q.book
      exact ⟨added, hentries, .stop hsaid ((find_under_iff ..).mp hfind) htold⟩
  | update remote kind values =>
    simp only [Channel.handle]
    split
    next hfind => exact ⟨[], by simp, .ignored hsaid (.inl (not_admitted_of_find hfind))⟩
    next activity hfind =>
      split
      next unsupported hdecode =>
        exact ⟨[], by simp, .ignored hsaid (.inr ⟨unsupported, hdecode⟩)⟩
      next fields hdecode =>
        obtain ⟨added, hentries, htold⟩ :=
          told_emit .handle activity.sink (.update activity.id kind fields) q.book
        rw [Channel.passedOn_book]
        exact ⟨added, hentries, .update hsaid ((find_under_iff ..).mp hfind) hdecode htold⟩
  | phase name =>
    -- Parent and sink are those that the channel was opened with.
    obtain ⟨added, hentries, htold⟩ := told_emit .channel q.channel.phaseSink
      (.update q.channel.parent .setPhase (Activity.phaseFields name)) q.book
    obtain ⟨hparent, hphase, -⟩ := (under parent start place).sinks_run before
    rw [Channel.handle, Channel.passedOn_book]
    rw [hparent, hphase] at htold
    exact ⟨added, hentries, .phase hsaid htold⟩
  | message level text raw =>
    obtain ⟨added, hentries, htold⟩ :=
      told_emit .channel (q.channel.targetSink q.book) (.log level text) q.book
    rw [Channel.handle, Channel.passedOn_book]
    rw [targetSink_under] at htold
    exact ⟨added, hentries, .message hsaid htold⟩
  | unknown => exact ⟨[], by simp [Channel.handle], .unknown hsaid⟩

/-- **Every turn goes where it should.** -/
theorem routed_step (parent : Activity) (start : Logbook) (place : UInt64 → Nat)
    (before : List Turn) (turn : Turn) :
    let q := (under parent start place).run before
    ∃ added, (q.step turn).made = q.made ++ added
      ∧ Routed parent start place before turn added := by
  intro q
  cases hsaid : turn.message? with
  | some message =>
    obtain ⟨added, hentries, hrouted⟩ := routed_said parent start place before hsaid
    exact ⟨added, by rw [step_of_said q hsaid, enter, Logbook.since_eq hentries], hrouted⟩
  | none =>
    cases turn with
    | line line source trusted =>
      cases hpayload : Wire.payload? line with
      | none =>
        have hleft : q.channel.handleLine line source trusted q.book
            = ⟨.ok false, q.channel, q.book⟩ := by
          simp only [Channel.handleLine, hpayload]
        exact ⟨[], by simp [step, enter, hleft, Logbook.since], .unmarked hpayload⟩
      | some payload =>
        rcases Channel.handleLine_of_unheard hsaid q.channel source trusted q.book with
          ⟨hnone, -⟩ | ⟨what, problem, hleft⟩
        · simp [hpayload] at hnone
        · obtain ⟨added, hentries, htold⟩ := Channel.told_warn q.channel _ q.book
          rw [targetSink_under] at htold
          refine ⟨added, ?_, .warning (by simp [hpayload]) hsaid htold⟩
          rw [step, hleft, enter]
          exact congrArg (q.made ++ ·) (Logbook.since_eq hentries)
    | message message trusted => simp [Turn.message?] at hsaid
    | elsewhere change => exact ⟨[], by simp [step], .elsewhere change⟩

theorem run_concat (p : Progress) (turns : List Turn) (turn : Turn) :
    p.run (turns ++ [turn]) = (p.run turns).step turn := by
  rw [run, List.foldl_append]
  rfl

/-! ## Starts and stops -/

/-- The activity was started in one of the turns, and has the sink that was active then and was told
of the start. -/
def StartedIn (parent : Activity) (start : Logbook) (place : UInt64 → Nat) (turns : List Turn)
    (activity : Activity) :
    Prop :=
  ∃ before turn after, turns = before ++ turn :: after
    ∧ activity.sink = ((under parent start place).run before).book.active
    ∧ ∃ added level kind text fields,
      ((under parent start place).run (before ++ [turn])).made
        = ((under parent start place).run before).made ++ added
      ∧ Told .handle activity.sink (.start activity.id level kind text fields parent.id) (.ok ())
        added

/-- **The sink of an activity is the one that was told of its start.** -/
theorem startedIn_of_admitted {turns : List Turn} {remote : UInt64} {activity : Activity}
    (h : (under parent start place).AdmittedSince turns remote activity) :
    StartedIn parent start place turns activity := by
  obtain ⟨before, turn, after, hturns, ⟨message, hsaid, hadmits⟩, -⟩ := h
  have hstep := step_of_said ((under parent start place).run before) hsaid
  cases hadmits with
  | @start _ level kind text origin values fields allowed absent decoded taken =>
    refine ⟨before, turn, after, hturns, targetSink_under parent start place before _, ?_⟩
    obtain ⟨added, hentries, htold⟩ :=
      (Channel.attempt_accept decoded ((under parent start place).run before).channel remote level
        kind text ((under parent start place).run before).book).told
    obtain ⟨hparent, -, -⟩ := (under parent start place).sinks_run before
    rw [Channel.startReply, Channel.startCall, taken, hparent] at htold
    refine ⟨added, level, kind, text, fields, ?_, htold⟩
    rw [run_concat, hstep, Channel.handle_start_of_absent allowed absent, enter,
      Logbook.since_eq hentries]

/-- The handles in the registry at the end are those at the start after what was done in between. -/
theorem acts_run {p : Progress} (h : p.channel.Tidy) (turns : List Turn) :
    ∃ added, (p.run turns).made = p.made ++ added
      ∧ Acts p.channel.handles (didIn added) (p.run turns).channel.handles := by
  induction turns generalizing p with
  | nil => exact ⟨[], by simp, .nil _⟩
  | cons turn turns ih =>
    obtain ⟨added, hmade, heffect⟩ := p.effect_step turn
    obtain ⟨hacts, htidy⟩ := heffect.acts h
    obtain ⟨others, hothers, hacts'⟩ := ih htidy
    refine ⟨added ++ others, ?_, ?_⟩
    · rw [run_cons, hothers, hmade, List.append_assoc]
    · rw [didIn_append]
      exact hacts.trans hacts'

/-- **An activity is updated and stopped where it was started**, and in the end each is stopped. -/
theorem acts_close (parent : Activity) (start : Logbook) (place : UInt64 → Nat)
    (turns : List Turn) :
    Acts 0 (didIn ((under parent start place).run turns).close.made) 0 := by
  have htidy : (under parent start place).channel.Tidy := List.nodup_nil
  obtain ⟨added, hmade, hacts⟩ := acts_run htidy turns
  obtain ⟨others, hothers, hacts'⟩ := ((under parent start place).run turns).channel.leads_close
    ((under parent start place).run turns).book
  have hclosed : ((under parent start place).run turns).close.made = added ++ others := by
    rw [close, hmade, Logbook.since_eq hothers]
    rfl
  rw [hclosed, didIn_append]
  exact hacts.trans hacts'

/-! ## The whole routing -/

/-- What holds of every run of a channel under an activity. -/
structure RoutesUnder (parent : Activity) (start : Logbook) (place : UInt64 → Nat) : Prop where
  /-- The sink that was installed last is active. -/
  installed : ∀ before sink,
    ((under parent start place).run (before ++ [.install sink])).book.active = sink
  kept : ∀ before turn, turn.isHeard = true →
    ((under parent start place).run (before ++ [turn])).book.active
      = ((under parent start place).run before).book.active
  routed : ∀ before turn, ∃ added,
    ((under parent start place).run (before ++ [turn])).made
      = ((under parent start place).run before).made ++ added
    ∧ Routed parent start place before turn added
  /-- What runs under a remote number has the sink that was told of its start. -/
  started : ∀ turns remote activity,
    (under parent start place).AdmittedSince turns remote activity →
      StartedIn parent start place turns activity
  /-- Handles come by starts that are taken, only they give updates, and each goes with one stop. A
  handle is a number together with the sink that was told of the start. -/
  once : ∀ turns, Acts 0 (didIn ((under parent start place).run turns).close.made) 0
  /-- At the end, what still runs is stopped, each on its own sink, and no other call is made. -/
  closed : ∀ turns, ∃ (added : List Entry) (running : List (UInt64 × Activity)),
    ((under parent start place).run turns).close.made
        = ((under parent start place).run turns).made ++ added
      ∧ (running.map Prod.fst).Nodup
      ∧ (∀ remote activity, (remote, activity) ∈ running ↔
        (under parent start place).AdmittedSince turns remote activity)
      ∧ added.filterMap Entry.stopped?
        = running.map (fun entry => (entry.2.sink, entry.2.id))
      ∧ ∀ entry ∈ added, entry.stopped? = none →
        ∃ held ∈ running, entry.IsPassedOn held.2.sink

theorem routesUnder (parent : Activity) (start : Logbook) (place : UInt64 → Nat) :
    RoutesUnder parent start place where
  installed before sink := by
    rw [run_concat]
    rfl
  kept before turn hheard := by
    rw [run_concat]
    exact step_active _ hheard
  routed before turn := by
    rw [run_concat]
    exact routed_step parent start place before turn
  started _ _ _ hadmitted := startedIn_of_admitted hadmitted
  once turns := acts_close parent start place turns
  closed turns := by
    have hkept := kept_run (kept_fresh parent.id parent.sink none start place) turns
    obtain ⟨added, hentries, hstops, hothers⟩ :=
      ((under parent start place).run turns).channel.close_entries
        ((under parent start place).run turns).book
    refine ⟨added, _, ?_, ?_, fun remote activity => ?_, hstops, hothers⟩
    · rw [close, Logbook.since_eq hentries]
    · exact ((Channel.leaving_perm _).map _).nodup_iff.mpr hkept.once
    · rw [Channel.mem_leaving, ← find_under_iff]
      exact hkept.find_iff.symm

/-- A run with a sink of its own that nothing has reached yet. -/
def pinned (id : UInt64) (sink : Sink) (book : Logbook) (place : UInt64 → Nat := fun _ => 0) :
    Progress :=
  { channel := .pinned id sink place, book }

/-- What holds of every run of a channel with a sink of its own. -/
structure RoutesPinned (id : UInt64) (sink : Sink) (start : Logbook) (place : UInt64 → Nat) :
    Prop where
  /-- All that it adds, to its end, comes from calls on its sink. -/
  own : ∀ turns, ∀ entry ∈ ((pinned id sink start place).run turns).close.made,
    entry.ComesFrom sink
  /-- Without the sinks that are installed in between, there are the same results and the same
  calls, to its end. -/
  unmoved : ∀ turns : List Turn,
    (∀ turn ∈ turns, turn.isHeard = true ∨ ∃ active, turn = .install active) →
    ((pinned id sink start place).run turns).Unmoved
        ((pinned id sink start place).run (turns.filter Turn.isHeard))
      ∧ ((pinned id sink start place).run turns).close.Unmoved
        ((pinned id sink start place).run (turns.filter Turn.isHeard)).close

theorem routesPinned (id : UInt64) (sink : Sink) (start : Logbook) (place : UInt64 → Nat) :
    RoutesPinned id sink start place := by
  have hkeeps : (pinned id sink start place).KeepsTo sink :=
    ⟨Channel.allOn_pinned id sink, by simp [pinned]⟩
  refine ⟨fun turns => (hkeeps.run turns).close, fun turns hturns => ?_⟩
  have hunmoved := unmoved_run (unmoved_refl (pinned id sink start place)) hkeeps hturns
  exact ⟨hunmoved, hunmoved.close⟩

/--
**Calls go where they should while sinks are installed.**

On a channel under an activity, whatever the lines are and whatever the rest of the program does in
between, also if the activity is stopped: messages, warnings and starts go to the sink that is
active when the line is handled. Updates and the one stop of an activity go to the sink that was told
of its start, at the end of the channel, too, whatever the order is in which activities end there.
Phases of the parent go to the parent's sink as updates under its number.

On a channel with a sink of its own every call goes to that sink, and what the channel does is not
changed by sinks that are installed.
-/
theorem routing (parent : Activity) (id : UInt64) (sink : Sink) (start : Logbook)
    (place : UInt64 → Nat) :
    RoutesUnder parent start place ∧ RoutesPinned id sink start place :=
  ⟨routesUnder parent start place, routesPinned id sink start place⟩

/-- A download is started, another sink is installed, and then there is news of the download and a
message, until the channel is let go of. -/
example :
    let old : Sink := .willing 1
    let new : Sink := .willing 2
    let turns : List Turn := [.message (.start 1 .info .fileTransfer "source" 0 none) false,
      .install new, .message (.update 1 .progress none) false,
      .message (.message .info "hello" none) false]
    ((under ⟨500, old⟩ { active := old }).run turns).close.made.filterMap Entry.kept?
      = [(1, .start 0x100000000 .info .fileTransfer "source" [] 500),
        (1, .update 0x100000000 .progress []), (2, .log .info "hello"), (1, .stop 0x100000000)] := by
  decide

end Progress

end Worklog
