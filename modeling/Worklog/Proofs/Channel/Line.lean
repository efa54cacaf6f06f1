import Worklog.Proofs.Channel.Effect
import Worklog.Proofs.Reading.Listed
import Worklog.Proofs.Roundtrip.Record

/-!
# Lines, and the messages in them

A line can be handed to a channel as it is, or as the message that is read from it. The channel reads
a line as a value first; this makes no difference, but for an object that has a key twice. A line
that cannot be read is left to the caller after one warning.

* `heard?_eq_none_of_ofLine?` — what cannot be read directly is not heard either.
* `handleLine_by_reading` — what becomes of a line, by what is read from it.
* `handleLine_of_no_object` — what becomes of a line whose payload is no object.
-/

namespace Worklog

/-- A marked line whose payload is an object with a key that comes more than once. -/
def Wire.RepeatsKey (line : String) : Prop :=
  ∃ payload v, Wire.payload? line = some payload ∧ Json.parse payload = .ok v ∧ v.Repeats

namespace Channel

/-- **What cannot be read directly is not heard**, unless a key comes twice. -/
theorem heard?_eq_none_of_ofLine? {line : String} {problem : Json.Problem}
    (h : Wire.Message.ofLine? line = some (.error problem)) (honce : ¬ Wire.RepeatsKey line) :
    heard? line = none := by
  obtain ⟨payload, hpayload, hproblem⟩ := Option.map_eq_some_iff.mp h
  unfold heard?
  rw [hpayload]
  simp only
  split
  · rfl
  · next v hdata =>
    split
    · rfl
    · next message hmessage =>
      -- A message in the value would have been read from the text.
      unfold Json.parseData at hdata
      split at hdata
      next => simp at hdata
      next raw hparse =>
        obtain rfl := Except.ok.inj hdata
        have hraw : ¬ raw.Repeats := fun hrepeats => honce ⟨payload, raw, hpayload, hparse, hrepeats⟩
        rw [Wire.ofPayload_of_ofJson hparse hraw hmessage] at hproblem
        simp at hproblem

/-- A line was complained about: it is left to the caller after one warning to the sink for messages,
whatever becomes of that, and the warning names where the line comes from. -/
structure Complained (channel : Channel) (source : String) (book : Logbook) (handled : Handled) :
    Prop where
  result : handled.result = .ok false
  unchanged : handled.channel = channel
  issued : handled.book.issued = book.issued
  warned : ∃ before after added, handled.book.entries = book.entries ++ added
    ∧ Told .channel (channel.targetSink book) (.warning (before ++ source ++ after))
      (Logbook.emit .channel (channel.targetSink book) (.warning (before ++ source ++ after))
        book).1 added

theorem complained_complain (channel : Channel) (what source : String) (problem : Json.Problem)
    (book : Logbook) :
    channel.Complained source book (channel.complain what source problem book) where
  result := rfl
  unchanged := rfl
  issued := (channel.extends_warn _ book).issued
  warned := by
    obtain ⟨added, hentries, htold⟩ := channel.told_warn
      (what ++ " from " ++ source ++ ": " ++ problem.message) book
    refine ⟨what ++ " from ", ": " ++ problem.message, added, hentries, ?_⟩
    rw [← String.append_assoc]
    exact htold

/--
**A line is handled as the message that is read from it.**

A line without a marker is left to the caller, and nothing happens. A line that is read as a message
has the same result, makes the same calls and changes the channel in the same way as that message. A
line that cannot be read is complained about, unless it is an object with a key that comes twice.
-/
theorem handleLine_by_reading (channel : Channel) (line source : String) (trusted : Bool)
    (book : Logbook) :
    (Wire.Message.ofLine? line = none →
        channel.handleLine line source trusted book = ⟨.ok false, channel, book⟩)
      ∧ (∀ message, Wire.Message.ofLine? line = some (.ok message) →
        channel.handleLine line source trusted book = channel.handle message trusted book)
      ∧ ∀ problem, Wire.Message.ofLine? line = some (.error problem) → ¬ Wire.RepeatsKey line →
        channel.Complained source book (channel.handleLine line source trusted book) := by
  refine ⟨fun hplain => ?_, fun message hmessage => ?_, fun problem hproblem honce => ?_⟩
  · have hpayload : Wire.payload? line = none := Option.map_eq_none_iff.mp hplain
    simp only [handleLine, hpayload]
  · exact handleLine_of_heard (heard?_of_ofLine? hmessage) channel source trusted book
  · have hunheard := heard?_eq_none_of_ofLine? hproblem honce
    rcases handleLine_of_unheard hunheard channel source trusted book with
      ⟨hpayload, -⟩ | ⟨what, cause, hcomplain⟩
    · -- A line without a payload is not read at all.
      simp [Wire.Message.ofLine?, hpayload] at hproblem
    · rw [hcomplain]
      exact channel.complained_complain what source cause book

/-- A sink that takes nothing. -/
def brokenSink : Sink := .foreign 1 false fun _ _ => .error (.reported "broken")

theorem handleLine_by_reading_broken :
    let channel := pinned 500 brokenSink
    channel.handleLine "hello" "builder" true {} = ⟨.ok false, channel, {}⟩
      ∧ channel.handleLine (Wire.Record.stop 7).line "builder" true {}
        = channel.handle (.stop 7) true {}
      ∧ channel.Complained "builder" {} (channel.handleLine "@nix x" "builder" true {}) := by
  intro channel
  obtain ⟨hplain, -, -⟩ := handleLine_by_reading channel "hello" "builder" true {}
  obtain ⟨-, hstop, -⟩ :=
    handleLine_by_reading channel (Wire.Record.stop 7).line "builder" true {}
  obtain ⟨-, -, hmalformed⟩ := handleLine_by_reading channel "@nix x" "builder" true {}
  refine ⟨hplain (by decide), hstop _ (Wire.ofLine?_line _), hmalformed _ rfl ?_⟩
  rintro ⟨payload, v, hpayload, hparse, -⟩
  have hx : Wire.payload? "@nix x" = some "x" := by decide
  obtain rfl := Option.some.inj (hpayload.symm.trans hx)
  simp [show Json.parse "x" = .error ⟨.malformed .noValue, some ⟨1, 1⟩⟩ by rfl] at hparse

/-! ## Payloads that are no object -/

theorem heard?_mark_eq_some_iff {payload : String} {message : Wire.Message} :
    heard? (Wire.mark payload) = some message
      ↔ ∃ v, Json.parse payload = .ok v ∧ Wire.Message.ofJson v.normal = .ok message := by
  cases hparse : Json.parse payload with
  | error problem => simp [heard?, Json.parseData, hparse]
  | ok v => cases hsaid : Wire.Message.ofJson v.normal <;> simp [heard?, Json.parseData, hparse, hsaid]

/-- A payload that is no object is heard iff it is a list that says a message. -/
theorem heard?_of_no_object {payload : String}
    (hobject : ∀ members, Json.parse payload ≠ .ok (.object members)) {message : Wire.Message} :
    heard? (Wire.mark payload) = some message
      ↔ ∃ items, Json.parse payload = .ok (.list items) ∧ Wire.ListSays items message := by
  rw [heard?_mark_eq_some_iff]
  constructor
  · rintro ⟨v, hparse, hmessage⟩
    cases v with
    | list items => exact ⟨items, hparse, Wire.ofJson_list_iff.mp hmessage⟩
    | object members => exact absurd hparse (hobject members)
    | _ => simp [Json.normal, Wire.Message.ofJson] at hmessage
  · rintro ⟨items, hparse, hsaid⟩
    exact ⟨.list items, hparse, Wire.ofJson_list_iff.mpr hsaid⟩

/-- What is passed on is handled, or fails. -/
theorem passedOn_result_ne (channel : Channel) (outcome : Except Failure Unit × Logbook) :
    (channel.passedOn outcome).result ≠ .ok false := by
  obtain ⟨_ | _, _⟩ := outcome <;> simp [passedOn]

/-- A message is never left to the caller. -/
theorem handle_result_ne (channel : Channel) (message : Wire.Message) (trusted : Bool)
    (book : Logbook) : (channel.handle message trusted book).result ≠ .ok false := by
  unfold handle
  split
  · split
    · simp
    · split
      · simp
      · unfold accept
        split
        · simp
        · split <;> simp
  · split <;> simp
  · split
    · simp
    · split
      · simp
      · exact channel.passedOn_result_ne _
  · exact channel.passedOn_result_ne _
  · exact channel.passedOn_result_ne _
  · simp

/--
**A payload that is no object is complained about, unless it is a list that says a message.**

So it is with a text that is malformed, cut off or followed by something else, with a scalar, and with
most lists: the line is left to the caller after one warning that names its source, and the channel is
as it was, with no number given out. But a list of the name of an action and of the values of its keys
is no longer left to the caller: the line is handled as the message that the list says.
-/
theorem handleLine_of_no_object {payload : String}
    (hobject : ∀ members, Json.parse payload ≠ .ok (.object members)) (channel : Channel)
    (source : String) (trusted : Bool) (book : Logbook) :
    (channel.Complained source book
        (channel.handleLine (Wire.mark payload) source trusted book)
      ↔ ¬ ∃ items message, Json.parse payload = .ok (.list items) ∧ Wire.ListSays items message)
    ∧ ∀ items message, Json.parse payload = .ok (.list items) → Wire.ListSays items message →
      channel.handleLine (Wire.mark payload) source trusted book
        = channel.handle message trusted book := by
  have hlisted {items : List Json} {message : Wire.Message}
      (hparse : Json.parse payload = .ok (.list items)) (hsaid : Wire.ListSays items message) :
      channel.handleLine (Wire.mark payload) source trusted book
        = channel.handle message trusted book :=
    handleLine_of_heard ((heard?_of_no_object hobject).mpr ⟨items, hparse, hsaid⟩) _ _ _ _
  refine ⟨⟨?_, fun hunlisted => ?_⟩, fun items message => hlisted⟩
  · rintro hcomplained ⟨items, message, hparse, hsaid⟩
    have hleft := hcomplained.result
    rw [hlisted hparse hsaid] at hleft
    exact channel.handle_result_ne message trusted book hleft
  · have hunheard : heard? (Wire.mark payload) = none := by
      rw [Option.eq_none_iff_forall_ne_some]
      intro message hheard
      obtain ⟨items, hparse, hsaid⟩ := (heard?_of_no_object hobject).mp hheard
      exact hunlisted ⟨items, message, hparse, hsaid⟩
    rcases handleLine_of_unheard hunheard channel source trusted book with
      ⟨hpayload, -⟩ | ⟨what, problem, hcomplain⟩
    · simp at hpayload
    · rw [hcomplain]
      exact channel.complained_complain what source problem book

/-- A message with a bracket too many, on a channel whose sink takes nothing. -/
theorem handleLine_of_no_object_trailing :
    let channel := (pinned 500 brokenSink).started 5 ⟨9, brokenSink⟩
    (∀ members, Json.parse "\x7b\"action\":\"stop\",\"id\":5\x7d]" ≠ .ok (.object members))
      ∧ channel.Complained "child" {}
        (channel.handleLine (Wire.mark "\x7b\"action\":\"stop\",\"id\":5\x7d]") "child" true {}) := by
  intro channel
  have hparse : Json.parse "\x7b\"action\":\"stop\",\"id\":5\x7d]"
      = .error ⟨.malformed .trailingCharacters, some ⟨1, 25⟩⟩ := by
    with_unfolding_all rfl
  have hobject : ∀ members,
      Json.parse "\x7b\"action\":\"stop\",\"id\":5\x7d]" ≠ .ok (.object members) := by
    simp [hparse]
  obtain ⟨hiff, -⟩ := handleLine_of_no_object hobject channel "child" true {}
  refine ⟨hobject, hiff.mpr ?_⟩
  rintro ⟨items, message, hlist, -⟩
  simp [hparse] at hlist

/-- A list starts an activity, even for a program that is not trusted. -/
theorem handleLine_startInList :
    let channel := pinned 500 (.recorder 1 fun _ _ => false)
    let handled := channel.handleLine (Wire.mark "[\"start\",1,3,101,\"x\"]") "child" false {}
    (∀ members, Json.parse "[\"start\",1,3,101,\"x\"]" ≠ .ok (.object members))
      ∧ ¬ channel.Complained "child" {} handled
      ∧ handled.result = .ok true ∧ handled.channel.isRunning 1 = true ∧ handled.book.issued = 1 := by
  intro channel handled
  have hparse : Json.parse "[\"start\",1,3,101,\"x\"]" = .ok (.list [.string "start",
      .number (.natural 1), .number (.natural 3), .number (.natural 101), .string "x"]) := by
    with_unfolding_all rfl
  have hheard : heard? (Wire.mark "[\"start\",1,3,101,\"x\"]")
      = some (.start 1 .info .fileTransfer "x" 0 none) :=
    heard?_mark_eq_some_iff.mpr ⟨_, hparse, by rfl⟩
  have hhandled : handled = channel.handle (.start 1 .info .fileTransfer "x" 0 none) false {} :=
    handleLine_of_heard hheard channel "child" false {}
  have hresult : handled.result = .ok true := by
    rw [hhandled]
    rfl
  refine ⟨by simp [hparse], fun hcomplained => ?_, hresult, ?_, ?_⟩
  · simp [hcomplained.result] at hresult
  · rw [hhandled]
    rfl
  · rw [hhandled]
    rfl

end Channel

end Worklog
