import Worklog.Proofs.Channel.Turn

/-!
# What a turn can do

A turn of a channel starts an activity, stops one, makes one call that changes nothing in the
registry, or makes no call at all. All that holds of every turn follows from this.

* `effect_handle` — a message has one of these effects.
* `effect_step` — and so has every turn.
-/

namespace Worklog

/-! ## Calls and their traces -/

/-- Entries that come from one call: what its sink passes on, the call, and notes about it. -/
def Told (issuer : Issuer) (sink : Sink) (call : Call) (result : Except Failure Unit)
    (added : List Entry) : Prop :=
  ∃ passed notes, added = passed ++ .call issuer sink call result :: notes
    ∧ (∀ entry ∈ passed, entry.IsPassedOn sink) ∧ ∀ entry ∈ notes, entry.isNote

theorem told_emit (issuer : Issuer) (sink : Sink) (call : Call) (book : Logbook) :
    ∃ added, (Logbook.emit issuer sink call book).2.entries = book.entries ++ added
      ∧ Told issuer sink call (Logbook.emit issuer sink call book).1 added := by
  obtain ⟨passed, hentries, hpassed⟩ := Logbook.emit_entries issuer sink call book
  exact ⟨_, hentries, passed, [], rfl, hpassed, by simp⟩

theorem Told.note {issuer : Issuer} {sink : Sink} {call : Call} {result : Except Failure Unit}
    {added : List Entry} (h : Told issuer sink call result added) (note : Note) :
    Told issuer sink call result (added ++ [.note note]) := by
  obtain ⟨passed, notes, rfl, hpassed, hnotes⟩ := h
  refine ⟨passed, notes ++ [.note note], by simp, hpassed, fun entry hentry => ?_⟩
  rcases List.mem_append.mp hentry with hentry | hentry
  · exact hnotes entry hentry
  · rw [List.mem_singleton.mp hentry]
    rfl

/-- Besides the call itself there is only what its sink passes on. -/
theorem Told.isPassedOn {issuer : Issuer} {sink : Sink} {call : Call}
    {result : Except Failure Unit} {added : List Entry} (h : Told issuer sink call result added) :
    ∀ entry ∈ added, entry = .call issuer sink call result ∨ entry.IsPassedOn sink := by
  obtain ⟨passed, notes, rfl, hpassed, hnotes⟩ := h
  intro entry hentry
  rcases List.mem_append.mp hentry with hentry | hentry
  · exact .inr (hpassed entry hentry)
  · rcases List.mem_cons.mp hentry with hentry | hentry
    · exact .inl hentry
    · exact .inr (entry.isPassedOn_of_isNote (hnotes entry hentry) sink)

/-- Who looks only for what no sink passes on, finds nothing but the call itself. -/
theorem Told.filterMap {α : Type} {f : Entry → Option α} {issuer : Issuer} {sink : Sink}
    {call : Call} {result : Except Failure Unit} {added : List Entry}
    (hf : ∀ entry : Entry, entry.IsPassedOn sink → f entry = none)
    (h : Told issuer sink call result added) :
    added.filterMap f = (f (.call issuer sink call result)).toList := by
  obtain ⟨passed, notes, rfl, hpassed, hnotes⟩ := h
  have hbefore : passed.filterMap f = [] :=
    List.filterMap_eq_nil_iff.mpr fun entry hentry => hf entry (hpassed entry hentry)
  have hafter : notes.filterMap f = [] :=
    List.filterMap_eq_nil_iff.mpr fun entry hentry =>
      hf entry (entry.isPassedOn_of_isNote (hnotes entry hentry) sink)
  rw [List.filterMap_append, hbefore, List.nil_append, List.filterMap_cons, hafter]
  cases f (.call issuer sink call result) <;> rfl

/-- After a stop there is the call, and a note if it failed. -/
theorem Activity.stop_eq (activity : Activity) (book : Logbook) :
    activity.stop book = (Logbook.emit .handle activity.sink (.stop activity.id) book).2
      ∨ ∃ note, activity.stop book
        = (Logbook.emit .handle activity.sink (.stop activity.id) book).2.addNote note := by
  unfold Activity.stop
  split
  next failure after hemit =>
    rw [hemit]
    exact .inr ⟨_, rfl⟩
  next after hemit =>
    rw [hemit]
    exact .inl rfl

/-- Stopping an activity makes one call, whatever becomes of it. -/
theorem told_stop (activity : Activity) (book : Logbook) :
    ∃ added result, (activity.stop book).entries = book.entries ++ added
      ∧ Told .handle activity.sink (.stop activity.id) result added := by
  obtain ⟨added, hentries, htold⟩ := told_emit .handle activity.sink (.stop activity.id) book
  rcases activity.stop_eq book with hstop | ⟨note, hstop⟩
  · rw [hstop]
    exact ⟨added, _, hentries, htold⟩
  · rw [hstop, Logbook.addNote_entries, hentries, List.append_assoc]
    exact ⟨_, _, rfl, htold.note note⟩

namespace Channel

/-- After a warning there is the call, and a note if it failed. -/
theorem warn_eq (channel : Channel) (text : String) (book : Logbook) :
    channel.warn text book
        = (Logbook.emit .channel (channel.targetSink book) (.warning text) book).2
      ∨ ∃ note, channel.warn text book
        = (Logbook.emit .channel (channel.targetSink book) (.warning text) book).2.addNote note := by
  unfold warn
  split
  next failure after hemit =>
    rw [hemit]
    exact .inr ⟨_, rfl⟩
  next after hemit =>
    rw [hemit]
    exact .inl rfl

/-- A warning is one call, whatever becomes of it. -/
theorem told_warn (channel : Channel) (text : String) (book : Logbook) :
    ∃ added, (channel.warn text book).entries = book.entries ++ added
      ∧ Told .channel (channel.targetSink book) (.warning text)
        (Logbook.emit .channel (channel.targetSink book) (.warning text) book).1 added := by
  obtain ⟨added, hentries, htold⟩ :=
    told_emit .channel (channel.targetSink book) (.warning text) book
  rcases channel.warn_eq text book with hwarn | ⟨note, hwarn⟩
  · rw [hwarn]
    exact ⟨added, hentries, htold⟩
  · rw [hwarn, Logbook.addNote_entries, hentries, List.append_assoc]
    exact ⟨_, rfl, htold.note note⟩

theorem extends_warn (channel : Channel) (text : String) (book : Logbook) :
    Logbook.Extends book (channel.warn text book) := by
  have hemit := Logbook.extends_emit .channel (channel.targetSink book) (.warning text) book
  rcases channel.warn_eq text book with hwarn | ⟨note, hwarn⟩
  · rw [hwarn]
    exact hemit
  · rw [hwarn]
    exact hemit.trans (Logbook.extends_add _ _)

/-! ## The effects -/

/-- A message that starts an activity here: it may do so, nothing runs yet for its number, its
fields are understood, and the sink takes the call. -/
inductive Admits (channel : Channel) (trusted : Bool) (book : Logbook) :
    Wire.Message → UInt64 → Activity → Prop where
  | start {remote : UInt64} {level : Level} {kind : ActivityKind} {text : String}
      {parent : UInt64} {values : Option (List Json)} {fields : List Field}
      (allowed : trusted = true ∨ kind = .fileTransfer)
      (absent : channel.isRunning remote = false)
      (decoded : Field.decode values = .ok fields)
      (taken : (Logbook.emit .handle (channel.targetSink book)
        (.start book.nextId.1 level kind text fields channel.parent) book.nextId.2).1 = .ok ()) :
      Admits channel trusted book (.start remote level kind text parent values) remote
        ⟨book.nextId.1, channel.targetSink book⟩

/-- What a turn does that a message may be heard in: the channel after it, and the entries that it
adds. -/
inductive Effect (channel : Channel) (trusted : Bool) (book : Logbook) :
    Option Wire.Message → Channel → List Entry → Prop where
  /-- No call is made. -/
  | quiet {message? : Option Wire.Message} {added : List Entry}
      (notes : ∀ entry ∈ added, entry.isNote)
      (rejects : ∀ message ∈ message?, ∀ remote activity,
        ¬ Admits channel trusted book message remote activity)
      (absent : ∀ remote, message? = some (.stop remote) → channel.find remote = none) :
      Effect channel trusted book message? channel added
  /-- A message is passed on, or a warning is given. -/
  | logged {message? : Option Wire.Message} {level : Level} {text : String}
      {result : Except Failure Unit} {added : List Entry}
      (plain : ∀ message ∈ message?, ∃ level text raw, message = .message level text raw)
      (told : Told .channel (channel.targetSink book) (.log level text) result added) :
      Effect channel trusted book message? channel added
  /-- The parent enters a phase. -/
  | phase {name : String} {result : Except Failure Unit} {added : List Entry}
      (told : Told .channel channel.phaseSink
        (.update channel.parent .setPhase (Activity.phaseFields name)) result added) :
      Effect channel trusted book (some (.phase name)) channel added
  | updated {remote : UInt64} {kind : UpdateKind} {values : Option (List Json)}
      {activity : Activity} {fields : List Field} {result : Except Failure Unit}
      {added : List Entry} (running : channel.find remote = some activity)
      (told : Told .handle activity.sink (.update activity.id kind fields) result added) :
      Effect channel trusted book (some (.update remote kind values)) channel added
  /-- The sink refuses a start. -/
  | failed {remote : UInt64} {level : Level} {kind : ActivityKind} {text : String}
      {parent : UInt64} {values : Option (List Json)} {fields : List Field} {failure : Failure}
      {added : List Entry} (allowed : trusted = true ∨ kind = .fileTransfer)
      (rejects : ∀ remote' activity,
        ¬ Admits channel trusted book (.start remote level kind text parent values) remote'
          activity)
      (told : Told .handle (channel.targetSink book)
        (.start book.nextId.1 level kind text fields channel.parent) (.error failure) added) :
      Effect channel trusted book (some (.start remote level kind text parent values)) channel
        added
  | admitted {remote : UInt64} {level : Level} {kind : ActivityKind} {text : String}
      {parent : UInt64} {values : Option (List Json)} {fields : List Field} {added : List Entry}
      (admits : Admits channel trusted book (.start remote level kind text parent values) remote
        ⟨book.nextId.1, channel.targetSink book⟩)
      (told : Told .handle (channel.targetSink book)
        (.start book.nextId.1 level kind text fields channel.parent) (.ok ()) added) :
      Effect channel trusted book (some (.start remote level kind text parent values))
        (channel.started remote ⟨book.nextId.1, channel.targetSink book⟩) added
  | stopped {remote : UInt64} {activity : Activity} {result : Except Failure Unit}
      {added : List Entry} (running : channel.find remote = some activity)
      (told : Told .handle activity.sink (.stop activity.id) result added) :
      Effect channel trusted book (some (.stop remote)) (channel.stopped remote) added

variable {channel : Channel} {trusted : Bool} {book : Logbook}

@[simp] theorem mayStart_eq_true_iff {kind : ActivityKind} :
    mayStart trusted kind = true ↔ trusted = true ∨ kind = .fileTransfer := by
  simp [mayStart]

@[simp] theorem mayStart_eq_false_iff {kind : ActivityKind} :
    mayStart trusted kind = false ↔ trusted = false ∧ kind ≠ .fileTransfer := by
  simp [mayStart]

/-- A channel stays under its parent. -/
theorem Effect.parent_eq {message? : Option Wire.Message} {after : Channel} {added : List Entry}
    (heffect : Effect channel trusted book message? after added) :
    after.parent = channel.parent := by
  cases heffect <;> rfl

theorem Admits.absent {message : Wire.Message} {remote : UInt64} {activity : Activity}
    (h : Admits channel trusted book message remote activity) :
    channel.isRunning remote = false := by
  cases h
  assumption

@[simp] theorem passedOn_channel (channel : Channel) (outcome : Except Failure Unit × Logbook) :
    (channel.passedOn outcome).channel = channel := by
  obtain ⟨_ | _, _⟩ := outcome <;> rfl

@[simp] theorem passedOn_book (channel : Channel) (outcome : Except Failure Unit × Logbook) :
    (channel.passedOn outcome).book = outcome.2 := by
  obtain ⟨_ | _, _⟩ := outcome <;> rfl

/-! ## Starts -/

/-- The call that a start is passed on as, under the next number. -/
def startCall (channel : Channel) (level : Level) (kind : ActivityKind) (text : String)
    (fields : List Field) (book : Logbook) : Call :=
  .start book.nextId.1 level kind text fields channel.parent

/-- What the sink replies to a start. -/
def startReply (channel : Channel) (level : Level) (kind : ActivityKind) (text : String)
    (fields : List Field) (book : Logbook) : Except Failure Unit :=
  (Logbook.emit .handle (channel.targetSink book) (channel.startCall level kind text fields book)
    book.nextId.2).1

/-- What has become of a start that was passed on: the sink is told of it, and an activity runs for
it if the sink takes the call. -/
structure Attempt (channel : Channel) (remote : UInt64) (level : Level) (kind : ActivityKind)
    (text : String) (fields : List Field) (book : Logbook) (handled : Handled) : Prop where
  told : ∃ added, handled.book.entries = book.entries ++ added
    ∧ Told .handle (channel.targetSink book) (channel.startCall level kind text fields book)
      (channel.startReply level kind text fields book) added
  taken : channel.startReply level kind text fields book = .ok () →
    handled.result = .ok true
      ∧ handled.channel = channel.started remote ⟨book.nextId.1, channel.targetSink book⟩
  failed : ∀ failure, channel.startReply level kind text fields book = .error failure →
    handled.result = .error (.failed failure) ∧ handled.channel = channel

theorem attempt_accept {values : Option (List Json)} {fields : List Field}
    (hdecode : Field.decode values = .ok fields) (channel : Channel) (remote : UInt64)
    (level : Level) (kind : ActivityKind) (text : String) (book : Logbook) :
    channel.Attempt remote level kind text fields book
      (channel.accept remote level kind text values book) := by
  obtain ⟨added, hentries, htold⟩ := told_emit .handle (channel.targetSink book)
    (channel.startCall level kind text fields book) book.nextId.2
  rw [Logbook.nextId_entries] at hentries
  have hreply : (Logbook.emit .handle (channel.targetSink book)
      (channel.startCall level kind text fields book) book.nextId.2).1
      = channel.startReply level kind text fields book := rfl
  rw [hreply] at htold
  simp only [accept, hdecode, Activity.start]
  rw [startCall] at hentries hreply
  split
  next failure after hstart =>
    split at hstart
    next failure' after' hemit =>
      cases hstart
      rw [hemit] at hentries hreply
      refine ⟨⟨added, hentries, htold⟩, ?_, ?_⟩
      · intro htaken
        simp [← hreply] at htaken
      · intro other hfailed
        obtain rfl := Except.error.inj (hreply.trans hfailed)
        exact ⟨rfl, rfl⟩
    next => simp at hstart
  next activity after hstart =>
    split at hstart
    next => simp at hstart
    next after' hemit =>
      cases hstart
      rw [hemit] at hentries hreply
      refine ⟨⟨added ++ [.note (.activityStarted book.nextId.1 channel.parent kind)], ?_,
        htold.note _⟩, fun _ => ⟨rfl, rfl⟩, ?_⟩
      · rw [Logbook.addNote_entries, hentries, List.append_assoc]
      · intro failure hfailed
        simp [← hreply] at hfailed

/-- A start that is neither refused nor repeated. -/
theorem effect_accept {remote : UInt64} {level : Level} {kind : ActivityKind} {text : String}
    {parent : UInt64} {values : Option (List Json)}
    (hallowed : trusted = true ∨ kind = .fileTransfer)
    (habsent : channel.isRunning remote = false) :
    ∃ added, (channel.accept remote level kind text values book).book.entries
        = book.entries ++ added
      ∧ Effect channel trusted book (some (.start remote level kind text parent values))
        (channel.accept remote level kind text values book).channel added := by
  cases hdecode : Field.decode values with
  | error unsupported =>
    simp only [accept, hdecode]
    refine ⟨[], by simp, .quiet (by simp) ?_ (by simp)⟩
    intro message hmessage remote' activity hadmits
    rw [← Option.some.inj hmessage] at hadmits
    cases hadmits with
    | start allowed absent decoded taken => simp [hdecode] at decoded
  | ok fields =>
    obtain ⟨⟨added, hentries, htold⟩, htaken, hfailed⟩ :=
      attempt_accept hdecode channel remote level kind text book
    refine ⟨added, hentries, ?_⟩
    cases hreply : channel.startReply level kind text fields book with
    | error failure =>
      rw [hreply] at htold
      rw [(hfailed failure hreply).2]
      refine .failed hallowed (fun remote' activity hadmits => ?_) htold
      cases hadmits with
      | start allowed absent decoded taken =>
        obtain rfl := Except.ok.inj (hdecode.symm.trans decoded)
        exact absurd (hreply.symm.trans taken) (by simp)
    | ok done =>
      rw [hreply] at htold
      rw [(htaken hreply).2]
      exact .admitted (.start hallowed habsent hdecode hreply) htold

/-- A message that makes no call. -/
theorem Effect.ofQuiet {message : Wire.Message} {added : List Entry}
    (notes : ∀ entry ∈ added, entry.isNote)
    (rejects : ∀ remote activity, ¬ Admits channel trusted book message remote activity)
    (absent : ∀ remote, message = .stop remote → channel.find remote = none) :
    Effect channel trusted book (some message) channel added := by
  refine .quiet notes (fun said hsaid => ?_) fun remote hsaid => absent remote ?_
  · rw [← Option.some.inj hsaid]
    exact rejects
  · exact Option.some.inj hsaid

theorem effect_start (channel : Channel) (remote : UInt64) (level : Level) (kind : ActivityKind)
    (text : String) (parent : UInt64) (values : Option (List Json)) (trusted : Bool)
    (book : Logbook) :
    ∃ added, (channel.handle (.start remote level kind text parent values) trusted book).book.entries
        = book.entries ++ added
      ∧ Effect channel trusted book (some (.start remote level kind text parent values))
        (channel.handle (.start remote level kind text parent values) trusted book).channel
        added := by
  -- The checks come in this order: a start that is refused is not looked up, and one that is
  -- refused or repeated does not have its fields read.
  simp only [handle]
  split
  next hrefused =>
    refine ⟨_, rfl, .ofQuiet (by simp [Entry.isNote]) ?_ (by simp)⟩
    intro remote' activity hadmits
    cases hadmits with
    | start allowed absent decoded taken => simp_all
  next hallowed =>
    rw [Bool.not_eq_false, mayStart_eq_true_iff] at hallowed
    split
    next hrunning =>
      refine ⟨_, rfl, .ofQuiet (by simp [Entry.isNote]) ?_ (by simp)⟩
      intro remote' activity hadmits
      cases hadmits with
      | start allowed absent decoded taken => simp [hrunning] at absent
    next habsent => exact effect_accept hallowed (by simpa using habsent)

/-- **Every message has one of the effects.** -/
theorem effect_handle (channel : Channel) (message : Wire.Message) (trusted : Bool)
    (book : Logbook) :
    ∃ added, (channel.handle message trusted book).book.entries = book.entries ++ added
      ∧ Effect channel trusted book (some message)
        (channel.handle message trusted book).channel added := by
  cases message with
  | start remote level kind text parent values =>
    exact effect_start channel remote level kind text parent values trusted book
  | stop remote =>
    simp only [handle]
    split
    next hfind =>
      refine ⟨[], by simp, .ofQuiet (by simp) (fun _ _ hadmits => by cases hadmits) ?_⟩
      rintro _ ⟨⟩
      exact hfind
    next activity hfind =>
      obtain ⟨added, result, hentries, htold⟩ := told_stop activity book
      exact ⟨added, hentries, .stopped hfind htold⟩
  | update remote kind values =>
    simp only [handle]
    split
    next hfind =>
      exact ⟨[], by simp, .ofQuiet (by simp) (fun _ _ hadmits => by cases hadmits) (by simp)⟩
    next activity hfind =>
      split
      next =>
        exact ⟨[], by simp, .ofQuiet (by simp) (fun _ _ hadmits => by cases hadmits) (by simp)⟩
      next fields hdecode =>
        obtain ⟨added, hentries, htold⟩ :=
          told_emit .handle activity.sink (.update activity.id kind fields) book
        rw [passedOn_book, passedOn_channel]
        exact ⟨added, hentries, .updated hfind htold⟩
  | phase name =>
    obtain ⟨added, hentries, htold⟩ := told_emit .channel channel.phaseSink
      (.update channel.parent .setPhase (Activity.phaseFields name)) book
    rw [handle, passedOn_book, passedOn_channel]
    exact ⟨added, hentries, .phase htold⟩
  | message level text raw =>
    obtain ⟨added, hentries, htold⟩ :=
      told_emit .channel (channel.targetSink book) (.log level text) book
    rw [handle, passedOn_book, passedOn_channel]
    refine ⟨added, hentries, .logged (fun said hsaid => ?_) htold⟩
    exact ⟨level, text, raw, (Option.some.inj hsaid).symm⟩
  | unknown =>
    exact ⟨[], by simp [handle],
      .ofQuiet (by simp) (fun _ _ hadmits => by cases hadmits) (by simp)⟩

theorem effect_handleLine (channel : Channel) (line source : String) (trusted : Bool)
    (book : Logbook) :
    ∃ added, (channel.handleLine line source trusted book).book.entries = book.entries ++ added
      ∧ Effect channel trusted book (heard? line)
        (channel.handleLine line source trusted book).channel added := by
  cases hheard : heard? line with
  | some message =>
    rw [handleLine_of_heard hheard]
    exact effect_handle channel message trusted book
  | none =>
    rcases handleLine_of_unheard hheard channel source trusted book with ⟨-, h⟩ | ⟨_, _, h⟩
    · rw [h]
      exact ⟨[], by simp, .quiet (by simp) (by simp) (by simp)⟩
    · rw [h]
      obtain ⟨added, hentries, htold⟩ := told_warn channel _ book
      exact ⟨added, hentries, .logged (by simp) htold⟩

end Channel

namespace Progress

/-- **Every turn has one of the effects.** -/
theorem effect_step (p : Progress) (turn : Turn) :
    ∃ added, (p.step turn).made = p.made ++ added
      ∧ Channel.Effect p.channel turn.trusted p.book turn.message? (p.step turn).channel added := by
  cases turn with
  | line text source trusted =>
    obtain ⟨added, hentries, heffect⟩ :=
      Channel.effect_handleLine p.channel text source trusted p.book
    exact ⟨added, by rw [step, enter, Logbook.since_eq hentries], heffect⟩
  | message message trusted =>
    obtain ⟨added, hentries, heffect⟩ := Channel.effect_handle p.channel message trusted p.book
    exact ⟨added, by rw [step, enter, Logbook.since_eq hentries], heffect⟩
  | elsewhere change =>
    exact ⟨[], by simp [step], .quiet (by simp) (by simp [Turn.message?]) (by simp [Turn.message?])⟩

end Progress

end Worklog
