import Worklog.Proofs.Channel.Effect
import Worklog.Proofs.Reading.Fields

/-!
# Lines and messages that fail

A message fails for one of two reasons: its fields are read and one of them is none, or the one call
that it is passed on as fails. Either way the registry stays as it was, and the next message finds the
channel as if this one had never come.

* `failsCleanly_handle`, `failsCleanly_handleLine` — what can be said of a message or a line that fails.
* `fails_cleanly` — both of them.
-/

namespace Worklog.Channel

variable {channel : Channel} {trusted : Bool} {book : Logbook} {handled : Handled}
variable {message : Wire.Message} {message? : Option Wire.Message}

/-! ## The fields that are read -/

/-- The channel reads the fields of a message, and these are their values. A start has its fields
read if it may start and nothing runs yet for its number, and an update if something does. -/
inductive ReadsFields (channel : Channel) (trusted : Bool) : Wire.Message → List Json → Prop where
  | start {remote : UInt64} {level : Level} {kind : ActivityKind} {text : String}
      {parent : UInt64} {values : Option (List Json)}
      (allowed : trusted = true ∨ kind = .fileTransfer)
      (absent : channel.isRunning remote = false) :
      ReadsFields channel trusted (.start remote level kind text parent values) (values.getD [])
  | update {remote : UInt64} {kind : UpdateKind} {values : Option (List Json)}
      (running : channel.isRunning remote = true) :
      ReadsFields channel trusted (.update remote kind values) (values.getD [])

/-- The message has its fields read, and the first of them that is none has this kind. -/
def Refuses (channel : Channel) (trusted : Bool) (message : Wire.Message)
    (kind : Field.Unsupported) : Prop :=
  ∃ values, channel.ReadsFields trusted message values ∧ Field.FirstRefused values kind

theorem refuses_start_iff {remote : UInt64} {level : Level} {kind : ActivityKind} {text : String}
    {parent : UInt64} {values : Option (List Json)} {unsupported : Field.Unsupported} :
    channel.Refuses trusted (.start remote level kind text parent values) unsupported
      ↔ (trusted = true ∨ kind = .fileTransfer) ∧ channel.isRunning remote = false
        ∧ Field.decode values = .error unsupported := by
  rw [Field.decode_eq_error_iff]
  constructor
  · rintro ⟨_, hreads, hrefused⟩
    cases hreads with
    | start allowed absent => exact ⟨allowed, absent, hrefused⟩
  · rintro ⟨hallowed, habsent, hrefused⟩
    exact ⟨_, .start hallowed habsent, hrefused⟩

theorem refuses_update_iff {remote : UInt64} {kind : UpdateKind} {values : Option (List Json)}
    {unsupported : Field.Unsupported} :
    channel.Refuses trusted (.update remote kind values) unsupported
      ↔ channel.isRunning remote = true ∧ Field.decode values = .error unsupported := by
  rw [Field.decode_eq_error_iff]
  constructor
  · rintro ⟨_, hreads, hrefused⟩
    cases hreads with
    | update running => exact ⟨running, hrefused⟩
  · rintro ⟨hrunning, hrefused⟩
    exact ⟨_, .update hrunning, hrefused⟩

/-! ## What a failure leaves behind -/

/-- What can be said of a line or a message in which `message?` was heard. -/
structure FailsCleanly (channel : Channel) (trusted : Bool) (message? : Option Wire.Message)
    (book : Logbook) (handled : Handled) : Prop where
  /-- Unless it is handled, the registry stays as it is. -/
  unchanged : handled.result ≠ .ok true → handled.channel = channel
  /-- It fails for a field iff its fields are read and one of them is none. -/
  unsupported : (∃ kind, handled.result = .error (.unsupported kind)) ↔
    ∃ message ∈ message?, ∃ values, channel.ReadsFields trusted message values
      ∧ ∃ v ∈ values, ¬ Field.IsField v
  /-- Then the first such field is named. No sink was told anything, no number was given out, and not
  even a note was taken. -/
  named : ∀ kind, handled.result = .error (.unsupported kind) →
    handled.book = book ∧ ∃ message ∈ message?, channel.Refuses trusted message kind
  /-- Any other failure is that of the one call that was made. -/
  failed : ∀ failure, handled.result = .error (.failed failure) →
    ∃ issuer sink call added, handled.book.entries = book.entries ++ added
      ∧ Told issuer sink call (.error failure) added
  /-- A start that failed so is tried anew whenever it comes again, as a message or in a line. -/
  again : ∀ remote level kind text parent values failure,
    message? = some (.start remote level kind text parent values) →
    handled.result = .error (.failed failure) →
    ∃ fields, Field.decode values = .ok fields
      ∧ ∀ later, handled.channel.Attempt remote level kind text fields later
          (handled.channel.handle (.start remote level kind text parent values) trusted later)
        ∧ ∀ line source, heard? line = some (.start remote level kind text parent values) →
          handled.channel.Attempt remote level kind text fields later
            (handled.channel.handleLine line source trusted later)

/-- Where no fields are read that are none, nothing may fail for a field. -/
theorem unsupported_iff_of_accepts
    (hresult : ∀ kind, handled.result ≠ .error (.unsupported kind))
    (haccepts : ∀ message ∈ message?, ∀ kind, ¬ channel.Refuses trusted message kind) :
    (∃ kind, handled.result = .error (.unsupported kind)) ↔
      ∃ message ∈ message?, ∃ values, channel.ReadsFields trusted message values
        ∧ ∃ v ∈ values, ¬ Field.IsField v := by
  constructor
  · rintro ⟨kind, hkind⟩
    exact (hresult kind hkind).elim
  · rintro ⟨message, hmessage, values, hreads, hbad⟩
    obtain ⟨kind, hrefused⟩ := Field.exists_firstRefused_iff.mpr hbad
    exact (haccepts message hmessage kind ⟨values, hreads, hrefused⟩).elim

/-- A message that is handled, and whose fields are fields as far as they are read. -/
theorem FailsCleanly.ofDone (hresult : handled.result = .ok true)
    (haccepts : ∀ message ∈ message?, ∀ kind, ¬ channel.Refuses trusted message kind) :
    channel.FailsCleanly trusted message? book handled where
  unchanged h := absurd hresult h
  unsupported := unsupported_iff_of_accepts (by simp [hresult]) haccepts
  named kind h := by simp [hresult] at h
  failed failure h := by simp [hresult] at h
  again := by
    intro remote level kind text parent values failure _ h
    simp [hresult] at h

/-- A message whose one call fails. -/
theorem FailsCleanly.ofFailed {failure : Failure}
    (hresult : handled.result = .error (.failed failure)) (hchannel : handled.channel = channel)
    (hcall : ∃ issuer sink call added, handled.book.entries = book.entries ++ added
      ∧ Told issuer sink call (.error failure) added)
    (haccepts : ∀ message ∈ message?, ∀ kind, ¬ channel.Refuses trusted message kind)
    (hagain : ∀ remote level kind text parent values,
      message? = some (.start remote level kind text parent values) →
      ∃ fields, Field.decode values = .ok fields
        ∧ ∀ later, channel.Attempt remote level kind text fields later
            (channel.handle (.start remote level kind text parent values) trusted later)) :
    channel.FailsCleanly trusted message? book handled where
  unchanged _ := hchannel
  unsupported := unsupported_iff_of_accepts (by simp [hresult]) haccepts
  named kind h := by simp [hresult] at h
  failed other h := by
    obtain rfl : failure = other := by simpa [hresult] using h
    exact hcall
  again := by
    intro remote level kind text parent values _ hstart _
    obtain ⟨fields, hdecode, hanew⟩ := hagain remote level kind text parent values hstart
    rw [hchannel]
    refine ⟨fields, hdecode, fun later => ⟨hanew later, fun line source hheard => ?_⟩⟩
    rw [handleLine_of_heard hheard]
    exact hanew later

/-- A message that has a field read which is none. -/
theorem FailsCleanly.ofRefused {kind : Field.Unsupported}
    (hrefuses : channel.Refuses trusted message kind) :
    channel.FailsCleanly trusted (some message) book
      ⟨.error (.unsupported kind), channel, book⟩ where
  unchanged _ := rfl
  unsupported := by
    obtain ⟨values, hreads, hrefused⟩ := hrefuses
    have hbad := Field.exists_firstRefused_iff.mp ⟨kind, hrefused⟩
    exact ⟨fun _ => ⟨message, rfl, values, hreads, hbad⟩, fun _ => ⟨kind, rfl⟩⟩
  named other h := by
    obtain rfl : kind = other := by simpa using h
    exact ⟨rfl, message, rfl, hrefuses⟩
  failed failure h := by simp at h
  again := by
    intro remote level other text parent values failure _ h
    simp at h

/-- A message that is no start, and is passed on as a call. -/
theorem FailsCleanly.ofPassedOn (haccepts : ∀ kind, ¬ channel.Refuses trusted message kind)
    (hstart : ∀ remote level kind text parent values,
      message ≠ .start remote level kind text parent values)
    (issuer : Issuer) (sink : Sink) (call : Call) (book : Logbook) :
    channel.FailsCleanly trusted (some message) book
      (channel.passedOn (Logbook.emit issuer sink call book)) := by
  have haccepted : ∀ said ∈ some message, ∀ kind, ¬ channel.Refuses trusted said kind := by
    intro said hsaid
    obtain rfl := Option.some.inj hsaid
    exact haccepts
  obtain ⟨added, hentries, htold⟩ := told_emit issuer sink call book
  cases hemit : Logbook.emit issuer sink call book with
  | mk result after =>
    rw [hemit] at hentries htold
    cases result with
    | ok done => exact .ofDone rfl haccepted
    | error failure =>
      refine .ofFailed rfl rfl ⟨issuer, sink, call, added, hentries, htold⟩ haccepted ?_
      intro remote level kind text parent values hsaid
      exact absurd (Option.some.inj hsaid) (hstart remote level kind text parent values)

/-! ## Messages -/

/-- A start that may start, and for whose number nothing runs, is accepted. -/
theorem handle_start_of_absent {remote : UInt64} {kind : ActivityKind}
    (hallowed : trusted = true ∨ kind = .fileTransfer) (habsent : channel.isRunning remote = false)
    (level : Level) (text : String) (parent : UInt64) (values : Option (List Json))
    (book : Logbook) :
    channel.handle (.start remote level kind text parent values) trusted book
      = channel.accept remote level kind text values book := by
  have hmay : ¬ mayStart trusted kind = false := by
    rw [Bool.not_eq_false]
    exact mayStart_eq_true_iff.mpr hallowed
  rw [handle, if_neg hmay, if_neg (by simp [habsent])]

theorem failsCleanly_start (channel : Channel) (remote : UInt64) (level : Level)
    (kind : ActivityKind) (text : String) (parent : UInt64) (values : Option (List Json))
    (trusted : Bool) (book : Logbook) :
    channel.FailsCleanly trusted (some (.start remote level kind text parent values)) book
      (channel.handle (.start remote level kind text parent values) trusted book) := by
  -- A start that is refused or repeated is handled, whatever its fields are.
  by_cases hmay : mayStart trusted kind = false
  · rw [handle, if_pos hmay]
    refine .ofDone rfl fun message hmessage unsupported hrefuses => ?_
    obtain rfl := Option.some.inj hmessage
    obtain ⟨hallowed, -⟩ := refuses_start_iff.mp hrefuses
    rw [mayStart_eq_true_iff.mpr hallowed] at hmay
    simp at hmay
  have hallowed : trusted = true ∨ kind = .fileTransfer := by
    rw [Bool.not_eq_false] at hmay
    exact mayStart_eq_true_iff.mp hmay
  by_cases hrunning : channel.isRunning remote = true
  · rw [handle, if_neg hmay, if_pos hrunning]
    refine .ofDone rfl fun message hmessage unsupported hrefuses => ?_
    obtain rfl := Option.some.inj hmessage
    obtain ⟨-, habsent, -⟩ := refuses_start_iff.mp hrefuses
    simp [habsent] at hrunning
  have habsent : channel.isRunning remote = false := by simpa using hrunning
  rw [handle_start_of_absent hallowed habsent]
  cases hdecode : Field.decode values with
  | error unsupported =>
    simp only [accept, hdecode]
    exact .ofRefused (refuses_start_iff.mpr ⟨hallowed, habsent, hdecode⟩)
  | ok fields =>
    have hattempt := attempt_accept hdecode channel remote level kind text book
    have haccepts : ∀ message ∈ some (Wire.Message.start remote level kind text parent values),
        ∀ kind, ¬ channel.Refuses trusted message kind := by
      intro message hmessage unsupported hrefuses
      obtain rfl := Option.some.inj hmessage
      obtain ⟨-, -, hrefused⟩ := refuses_start_iff.mp hrefuses
      simp [hdecode] at hrefused
    cases hreply : channel.startReply level kind text fields book with
    | ok done => exact .ofDone (hattempt.taken hreply).1 haccepts
    | error failure =>
      obtain ⟨hresult, hchannel⟩ := hattempt.failed failure hreply
      obtain ⟨added, hentries, htold⟩ := hattempt.told
      rw [hreply] at htold
      refine .ofFailed hresult hchannel ⟨_, _, _, added, hentries, htold⟩ haccepts ?_
      intro remote' level' kind' text' parent' values' hsaid
      obtain ⟨rfl, rfl, rfl, rfl, rfl, rfl⟩ := by simpa using hsaid
      refine ⟨fields, hdecode, fun later => ?_⟩
      rw [handle_start_of_absent hallowed habsent]
      exact attempt_accept hdecode channel remote level kind text later

/-- **A message that fails leaves the channel as it was.** -/
theorem failsCleanly_handle (channel : Channel) (message : Wire.Message) (trusted : Bool)
    (book : Logbook) :
    channel.FailsCleanly trusted (some message) book (channel.handle message trusted book) := by
  cases message with
  | start remote level kind text parent values =>
    exact failsCleanly_start channel remote level kind text parent values trusted book
  | stop remote =>
    have haccepts : ∀ message ∈ some (Wire.Message.stop remote), ∀ kind,
        ¬ channel.Refuses trusted message kind := by
      rintro _ ⟨⟩ kind ⟨values, hreads, -⟩
      cases hreads
    rw [handle]
    split
    · exact .ofDone rfl haccepts
    · exact .ofDone rfl haccepts
  | update remote kind values =>
    rw [handle]
    split
    next hfind =>
      -- Nothing runs for the number, so the fields are not read.
      refine .ofDone rfl fun message hmessage unsupported hrefuses => ?_
      obtain rfl := Option.some.inj hmessage
      obtain ⟨hrunning, -⟩ := refuses_update_iff.mp hrefuses
      simp [isRunning, hfind] at hrunning
    next activity hfind =>
      have hrunning : channel.isRunning remote = true := by simp [isRunning, hfind]
      split
      next unsupported hdecode =>
        exact .ofRefused (refuses_update_iff.mpr ⟨hrunning, hdecode⟩)
      next fields hdecode =>
        refine .ofPassedOn (fun unsupported hrefuses => ?_) (by simp) _ _ _ book
        obtain ⟨-, hrefused⟩ := refuses_update_iff.mp hrefuses
        simp [hdecode] at hrefused
  | phase name =>
    refine .ofPassedOn ?_ (by simp) _ _ _ book
    rintro kind ⟨values, hreads, -⟩
    cases hreads
  | message level text raw =>
    refine .ofPassedOn ?_ (by simp) _ _ _ book
    rintro kind ⟨values, hreads, -⟩
    cases hreads
  | unknown =>
    refine .ofDone rfl ?_
    rintro _ ⟨⟩ kind ⟨values, hreads, -⟩
    cases hreads

/-! ## Lines -/

/-- **A line that fails leaves the channel as it was.** -/
theorem failsCleanly_handleLine (channel : Channel) (line source : String) (trusted : Bool)
    (book : Logbook) :
    channel.FailsCleanly trusted (heard? line) book
      (channel.handleLine line source trusted book) := by
  cases hheard : heard? line with
  | some message =>
    rw [handleLine_of_heard hheard]
    exact failsCleanly_handle channel message trusted book
  | none =>
    have hleft : (channel.handleLine line source trusted book).result = .ok false
        ∧ (channel.handleLine line source trusted book).channel = channel := by
      rcases handleLine_of_unheard hheard channel source trusted book with ⟨-, h⟩ | ⟨_, _, h⟩
      · rw [h]
        exact ⟨rfl, rfl⟩
      · rw [h]
        exact ⟨rfl, rfl⟩
    obtain ⟨hresult, hchannel⟩ := hleft
    exact ⟨fun _ => hchannel, unsupported_iff_of_accepts (by simp [hresult]) (by simp),
      by simp [hresult], by simp [hresult], by simp⟩

/--
**What fails leaves the registry as it was.**

This holds for every message and every line, on every channel, with every sink and whichever of its
calls fail. The only failures are a field that is none, among fields that are read, and the failure
of the one call that was made.
-/
theorem fails_cleanly (channel : Channel) (trusted : Bool) (book : Logbook) :
    (∀ message, channel.FailsCleanly trusted (some message) book
      (channel.handle message trusted book))
    ∧ ∀ line source, channel.FailsCleanly trusted (heard? line) book
      (channel.handleLine line source trusted book) :=
  ⟨fun message => failsCleanly_handle channel message trusted book,
    fun line source => failsCleanly_handleLine channel line source trusted book⟩

end Worklog.Channel
