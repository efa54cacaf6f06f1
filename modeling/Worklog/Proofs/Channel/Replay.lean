import Mathlib.Logic.Function.Basic
import Worklog.Proofs.Channel.Effect
import Worklog.Proofs.Channel.Sending

/-!
# Replaying the calls of another program

One program makes calls on a wire sink, another reads the lines into a channel. The channel repeats
the calls one by one, for activities of its own: which one stands for which is a map that changes
with every start and stop.

* `copied_handle` — one record is handled as a copy of its call.
* `copies_run` — so a whole output is a copy of all calls, with other lines in between.
* `replay_run` — the calls of one program, the lines in between, and the calls of the other.
-/

namespace Worklog

/-! ## Copies of calls -/

/-- What one call of another program becomes. The map says which activity here stands for which
one there; it follows the starts and the stops. -/
inductive Copied (parent : UInt64) (showTrace trusted : Bool) (latest : UInt64 → Option UInt64) :
    Call → List Call → (UInt64 → Option UInt64) → Prop where
  | log {level : Level} {text : String} :
    Copied parent showTrace trusted latest (.log level text) [.log level text] latest
  | report {error : ErrorReport} :
    Copied parent showTrace trusted latest (.report error)
      [.log error.level (error.render showTrace)] latest
  | start {remote id above : UInt64} {level : Level} {kind : ActivityKind} {text : String}
      {fields : List Field} (allowed : trusted = true ∨ kind = .fileTransfer) :
    Copied parent showTrace trusted latest (.start remote level kind text fields above)
      [.start id level kind text fields parent] (Function.update latest remote (some id))
  /-- An untrusted program may not start it. -/
  | refused {remote above : UInt64} {level : Level} {kind : ActivityKind} {text : String}
      {fields : List Field} (untrusted : trusted = false) (other : kind ≠ .fileTransfer) :
    Copied parent showTrace trusted latest (.start remote level kind text fields above) [] latest
  | update {remote id : UInt64} {kind : UpdateKind} {fields : List Field}
      (running : latest remote = some id) :
    Copied parent showTrace trusted latest (.update remote kind fields) [.update id kind fields]
      latest
  | stop {remote id : UInt64} (running : latest remote = some id) :
    Copied parent showTrace trusted latest (.stop remote) [.stop id]
      (Function.update latest remote none)
  /-- Its activity was refused. -/
  | lostUpdate {remote : UInt64} {kind : UpdateKind} {fields : List Field}
      (absent : latest remote = none) :
    Copied parent showTrace trusted latest (.update remote kind fields) [] latest
  | lostStop {remote : UInt64} (absent : latest remote = none) :
    Copied parent showTrace trusted latest (.stop remote) [] latest

/-- What a sequence of calls becomes. -/
inductive Copies (parent : UInt64) (showTrace trusted : Bool) :
    (UInt64 → Option UInt64) → List Call → List Call → Prop where
  | nil {latest : UInt64 → Option UInt64} : Copies parent showTrace trusted latest [] []
  | cons {latest latest' : UInt64 → Option UInt64} {call : Call} {calls copies rest : List Call}
      (first : Copied parent showTrace trusted latest call copies latest')
      (others : Copies parent showTrace trusted latest' calls rest) :
    Copies parent showTrace trusted latest (call :: calls) (copies ++ rest)

/-- The map knows only what is running there, and all of it if the program is trusted. -/
structure Tracks (trusted : Bool) (running : List UInt64) (latest : UInt64 → Option UInt64) :
    Prop where
  known : ∀ remote, latest remote ≠ none → remote ∈ running
  complete : trusted = true → ∀ remote ∈ running, latest remote ≠ none

variable {parent : UInt64} {showTrace trusted : Bool} {latest latest' : UInt64 → Option UInt64}
variable {running : List UInt64} {call : Call} {calls copies : List Call}

theorem tracks_nil (trusted : Bool) : Tracks trusted [] fun _ => none :=
  ⟨by simp, by simp⟩

/-- After a start, the map has the number of its activity. -/
theorem Tracks.start (h : Tracks trusted running latest) (remote id : UInt64) :
    Tracks trusted (remote :: running) (Function.update latest remote (some id)) := by
  refine ⟨fun other hother => ?_, fun htrusted other hother => ?_⟩
  · by_cases hremote : other = remote
    · exact hremote ▸ List.mem_cons_self
    · rw [Function.update_of_ne hremote] at hother
      exact List.mem_cons_of_mem _ (h.known other hother)
  · by_cases hremote : other = remote
    · subst hremote
      simp
    · rw [Function.update_of_ne hremote]
      exact h.complete htrusted other ((List.mem_cons.mp hother).resolve_left hremote)

/-- After a stop, the map has nothing for its number. -/
theorem Tracks.stop (h : Tracks trusted running latest) (remote : UInt64) :
    Tracks trusted (running.filter (· ≠ remote)) (Function.update latest remote none) := by
  refine ⟨fun other hother => ?_, fun htrusted other hother => ?_⟩
  · by_cases hremote : other = remote
    · subst hremote
      simp at hother
    · rw [Function.update_of_ne hremote] at hother
      simpa [hremote] using h.known other hother
  · have hremote : other ≠ remote := by simpa using (List.mem_filter.mp hother).2
    rw [Function.update_of_ne hremote]
    exact h.complete htrusted other (List.mem_filter.mp hother).1

/-- A call and its copies keep the map in step with what is running. -/
theorem Copied.tracks (hcopied : Copied parent showTrace trusted latest call copies latest')
    (h : Tracks trusted running latest) (hcall : call.InOrder running) :
    Tracks trusted (call.leaves running) latest' := by
  cases hcopied with
  | log => exact h
  | report => exact h
  | start allowed => exact h.start _ _
  | refused untrusted other =>
    refine ⟨fun remote hremote => List.mem_cons_of_mem _ (h.known remote hremote), ?_⟩
    simp [untrusted]
  | update running => exact h
  | stop running => exact h.stop _
  | lostUpdate absent => exact h
  | @lostStop remote absent =>
    have hstop := h.stop remote
    rw [← absent, Function.update_eq_self] at hstop
    exact hstop

/-- With trust, each call has one copy. -/
theorem Copied.length_eq_one (hcopied : Copied parent showTrace true latest call copies latest')
    (h : Tracks true running latest) (hcall : call.InOrder running) : copies.length = 1 := by
  cases hcopied with
  | log => rfl
  | report => rfl
  | start allowed => rfl
  | refused untrusted other => simp at untrusted
  | update running => rfl
  | stop running => rfl
  | lostUpdate absent => exact (h.complete rfl _ hcall.1 absent).elim
  | lostStop absent => exact (h.complete rfl _ hcall absent).elim

/-- From a trusted program each call is copied once. -/
theorem Copies.length_eq (hcopies : Copies parent showTrace true latest calls copies)
    (h : Tracks true running latest) (hcalls : Call.WellFormed running calls) :
    copies.length = calls.length := by
  induction hcopies generalizing running with
  | nil => rfl
  | cons first others ih =>
    obtain ⟨hcall, hcalls⟩ := hcalls
    rw [List.length_append, first.length_eq_one h hcall, ih (first.tracks h hcall) hcalls,
      List.length_cons, Nat.add_comm]

/-! ## The numbers of the starts -/

def Call.startId? : Call → Option UInt64
  | .start id _ _ _ _ _ => some id
  | _ => none

/-- The numbers with which activities are started. -/
def startIds (calls : List Call) : List UInt64 := calls.filterMap Call.startId?

/-- The lower halves of these numbers are counted on from a number. -/
def Numbered : UInt64 → List UInt64 → Prop
  | _, [] => True
  | next, id :: ids => id.toUInt32 = next.toUInt32 ∧ Numbered (next + 1) ids

/-- Numbers that follow others continue them. -/
theorem Numbered.append {next : UInt64} {ids rest : List UInt64} (h : Numbered next ids)
    (hrest : Numbered (next + UInt64.ofNat ids.length) rest) : Numbered next (ids ++ rest) := by
  induction ids generalizing next with
  | nil =>
    have hzero : next + UInt64.ofNat ([] : List UInt64).length = next := UInt64.add_zero next
    rwa [hzero] at hrest
  | cons id ids ih =>
    obtain ⟨hid, hids⟩ := h
    refine ⟨hid, ih hids ?_⟩
    rw [List.length_cons, UInt64.ofNat_add, UInt64.add_comm (UInt64.ofNat _),
      ← UInt64.add_assoc] at hrest
    exact hrest

/-- The lower half of a number is the count. -/
theorem toUInt32_nextId (book : Logbook) : book.nextId.1.toUInt32 = book.issued.toUInt32 := by
  -- The number of the process takes the upper half only.
  have hhigh : (book.processId.toUInt64 <<< 32).toUInt32 = 0 := by
    apply UInt32.toBitVec_inj.mp
    ext i hi
    simp
  rw [Logbook.nextId, UInt64.toUInt32_or, hhigh, UInt32.or_zero]

/-- So the lower half of a later number is further by as many as lie in between. -/
theorem Numbered.toUInt32_getElem? {next : UInt64} {ids : List UInt64} (h : Numbered next ids)
    {i : Nat} {id : UInt64} (hid : ids[i]? = some id) :
    id.toUInt32 = next.toUInt32 + UInt32.ofNat i := by
  induction ids generalizing next i with
  | nil => simp at hid
  | cons first ids ih =>
    obtain ⟨hfirst, hids⟩ := h
    cases i with
    | zero =>
      rw [List.getElem?_cons_zero, Option.some.injEq] at hid
      rw [← hid, hfirst]
      exact (UInt32.add_zero _).symm
    | succ i =>
      rw [List.getElem?_cons_succ] at hid
      rw [ih hids hid, UInt64.toUInt32_add, UInt32.add_assoc, UInt32.ofNat_add,
        UInt32.add_comm (UInt32.ofNat i)]
      rfl

/-- **Numbers repeat only after all lower halves are used up.** -/
theorem Numbered.ne {next : UInt64} {ids : List UInt64} (h : Numbered next ids) {i j : Nat}
    {a b : UInt64} (ha : ids[i]? = some a) (hb : ids[j]? = some b) (hij : i < j)
    (hnear : j < i + UInt32.size) : a ≠ b := by
  rintro rfl
  have hsame : next.toUInt32 + UInt32.ofNat i = next.toUInt32 + UInt32.ofNat j :=
    (h.toUInt32_getElem? ha).symm.trans (h.toUInt32_getElem? hb)
  have hmod := congrArg UInt32.toNat ((UInt32.add_right_inj _).mp hsame)
  rw [UInt32.toNat_ofNat', UInt32.toNat_ofNat'] at hmod
  simp only [UInt32.size] at hnear
  omega

/-- Between two books the numbers were given out in order, and no others. -/
structure Counted (before after : Logbook) (ids : List UInt64) : Prop where
  numbered : Numbered before.issued ids
  issued : after.issued = before.issued + UInt64.ofNat ids.length

theorem counted_nil {before after : Logbook} (h : after.issued = before.issued) :
    Counted before after [] :=
  ⟨trivial, h.trans (UInt64.add_zero _).symm⟩

theorem counted_nextId {before after : Logbook} (h : after.issued = before.issued + 1) :
    Counted before after [before.nextId.1] :=
  ⟨⟨toUInt32_nextId before, trivial⟩, h⟩

/-! ## One call -/

/-- A sink that takes every call and keeps it. -/
structure Listens (sink : Sink) (heard : Logbook → List Call) : Prop where
  takes : ∀ issuer call book, (Logbook.emit issuer sink call book).1 = .ok ()
  hears : ∀ issuer call book,
    heard (Logbook.emit issuer sink call book).2 = heard book ++ [call]
  note : ∀ book note, heard (Logbook.addNote book note) = heard book
  nextId : ∀ book, heard (Logbook.nextId book).2 = heard book

theorem listens_recorder (id : Nat) :
    Listens (Sink.willing id) fun book => book.keptOn id where
  takes _ _ _ := rfl
  hears issuer call book := Logbook.keptOn_emit_willing issuer id call book
  note book note := Logbook.keptOn_addNote book note id
  nextId book := Logbook.keptOn_nextId book id

variable {sink : Sink} {heard : Logbook → List Call}

/-- A sink that listens takes every call. -/
theorem Listens.emit (h : Listens sink heard) (issuer : Issuer) (call : Call) (book : Logbook) :
    ∃ after, Logbook.emit issuer sink call book = (.ok (), after)
      ∧ heard after = heard book ++ [call] ∧ after.issued = book.issued :=
  ⟨_, Prod.ext (h.takes issuer call book) rfl, h.hears issuer call book,
    (Logbook.extends_emit issuer sink call book).issued⟩

/-- So every start succeeds and is heard under the next number. -/
theorem Listens.start (h : Listens sink heard) (level : Level) (kind : ActivityKind)
    (text : String) (fields : List Field) (parent : UInt64) (book : Logbook) :
    ∃ after, Activity.start sink level kind text fields parent book
        = (.ok ⟨book.nextId.1, sink⟩, after)
      ∧ heard after = heard book ++ [.start book.nextId.1 level kind text fields parent]
      ∧ after.issued = book.issued + 1 := by
  obtain ⟨after, hemit, hheard, hissued⟩ :=
    h.emit .handle (.start book.nextId.1 level kind text fields parent) book.nextId.2
  refine ⟨after.addNote (.activityStarted book.nextId.1 parent kind), ?_, ?_, hissued⟩
  · simp only [Activity.start, hemit]
  · rw [h.note, hheard, h.nextId]

theorem Listens.stop (h : Listens sink heard) (id : UInt64) (book : Logbook) :
    heard (Activity.stop ⟨id, sink⟩ book) = heard book ++ [.stop id]
      ∧ (Activity.stop ⟨id, sink⟩ book).issued = book.issued := by
  obtain ⟨after, hemit, hheard, hissued⟩ := h.emit .handle (.stop id) book
  simp only [Activity.stop, hemit]
  exact ⟨hheard, hissued⟩

namespace Channel

/-- A channel that has everything on one sink, and whose registry is the map. -/
structure Follows (channel : Channel) (sink : Sink) (latest : UInt64 → Option UInt64) : Prop where
  target : channel.target = some sink
  found : ∀ remote, channel.find remote = (latest remote).map fun id => ⟨id, sink⟩

theorem follows_pinned (parent : UInt64) (sink : Sink) :
    (pinned parent sink).Follows sink fun _ => none :=
  ⟨rfl, fun _ => rfl⟩

variable {channel : Channel}

theorem Follows.targetSink (h : channel.Follows sink latest) (book : Logbook) :
    channel.targetSink book = sink := by
  rw [Channel.targetSink, h.target, Option.getD_some]

/-- A start that is copied is registered under its remote number. -/
theorem Follows.started (h : channel.Follows sink latest) {remote : UInt64}
    (habsent : channel.isRunning remote = false) (id : UInt64) :
    (channel.started remote ⟨id, sink⟩).Follows sink (Function.update latest remote (some id)) := by
  refine ⟨h.target, fun other => ?_⟩
  rw [find_started _ habsent, h.found, Function.update_apply]
  split <;> rfl

/-- A stop that is copied takes its number out of the registry. -/
theorem Follows.stopped (h : channel.Follows sink latest) (remote : UInt64) :
    (channel.stopped remote).Follows sink (Function.update latest remote none) := by
  refine ⟨h.target, fun other => ?_⟩
  rw [find_stopped, h.found, Function.update_apply]
  split <;> rfl

/-- What has become of one record: it is handled, as a copy of the call. -/
structure CopiedBy (channel : Channel) (showTrace trusted : Bool) (sink : Sink)
    (heard : Logbook → List Call) (latest : UInt64 → Option UInt64) (call : Call)
    (before : Logbook) (handled : Handled) : Prop where
  result : handled.result = .ok true
  parent : handled.channel.parent = channel.parent
  copied : ∃ copies latest', heard handled.book = heard before ++ copies
    ∧ Copied channel.parent showTrace trusted latest call copies latest'
    ∧ handled.channel.Follows sink latest'
    ∧ Counted before handled.book (startIds copies)

/-- A call that is neither a start nor a stop. -/
theorem copiedBy_passedOn (hl : Listens sink heard) (hf : channel.Follows sink latest)
    {call copy : Call} (hcopied : Copied channel.parent showTrace trusted latest call [copy] latest)
    (hcopy : copy.startId? = none) (issuer : Issuer) (book : Logbook) :
    channel.CopiedBy showTrace trusted sink heard latest call book
      (channel.passedOn (Logbook.emit issuer sink copy book)) := by
  obtain ⟨after, hemit, hheard, hissued⟩ := hl.emit issuer copy book
  rw [hemit]
  have hnone : startIds [copy] = [] := by simp [startIds, hcopy]
  refine ⟨rfl, rfl, [copy], latest, hheard, hcopied, hf, ?_⟩
  rw [hnone]
  exact counted_nil hissued

/-- **The record of a call is handled as a copy of the call.** -/
theorem copied_handle (hl : Listens sink heard) (hf : channel.Follows sink latest)
    (ht : Tracks trusted running latest) {call : Call} (hcall : call.InOrder running)
    (showTrace : Bool) (book : Logbook) :
    channel.CopiedBy showTrace trusted sink heard latest call book
      (channel.handle (call.record showTrace).understood trusted book) := by
  cases call with
  | log level text =>
    rw [Call.record, Wire.Record.understood, handle, hf.targetSink]
    exact copiedBy_passedOn hl hf .log rfl _ book
  | report error =>
    rw [Call.record, Wire.Record.understood, handle, hf.targetSink]
    exact copiedBy_passedOn hl hf .report rfl _ book
  | start remote level kind text fields above =>
    obtain ⟨hnew, hkind⟩ := hcall
    -- An id that is not running has no copy either, or the start would be taken for a second one.
    have hlatest : latest remote = none := by
      by_contra hsome
      exact hnew (ht.known remote hsome)
    have habsent : channel.isRunning remote = false := by
      rw [isRunning, hf.found, hlatest]
      rfl
    simp only [Call.record, Wire.Record.understood, handle,
      ActivityKind.ofCode_code_of_canonical hkind, habsent]
    split
    next hrefused =>
      obtain ⟨huntrusted, hother⟩ := mayStart_eq_false_iff.mp hrefused
      exact ⟨rfl, rfl, [], latest, by rw [List.append_nil, hl.note],
        .refused huntrusted hother, hf, counted_nil rfl⟩
    next hallowed =>
      have hmay : trusted = true ∨ kind = .fileTransfer := by
        rw [Bool.not_eq_false] at hallowed
        exact mayStart_eq_true_iff.mp hallowed
      obtain ⟨after, hstart, hheard, hissued⟩ :=
        hl.start level kind text fields channel.parent book
      simp only [accept, Wire.decode_understood, hf.targetSink, hstart]
      exact ⟨rfl, rfl, [_], _, hheard, .start hmay, hf.started habsent _, counted_nextId hissued⟩
  | stop remote =>
    simp only [Call.record, Wire.Record.understood, handle, hf.found]
    cases hlatest : latest remote with
    | none =>
      exact ⟨rfl, rfl, [], latest, (List.append_nil _).symm, .lostStop hlatest, hf,
        counted_nil rfl⟩
    | some id =>
      obtain ⟨hheard, hissued⟩ := hl.stop id book
      exact ⟨rfl, rfl, [.stop id], _, hheard, .stop hlatest, hf.stopped remote,
        counted_nil hissued⟩
  | update remote kind fields =>
    simp only [Call.record, Wire.Record.understood, handle, hf.found,
      UpdateKind.ofCode_code_of_canonical hcall.2]
    cases hlatest : latest remote with
    | none =>
      exact ⟨rfl, rfl, [], latest, (List.append_nil _).symm, .lostUpdate hlatest, hf,
        counted_nil rfl⟩
    | some id =>
      simp only [Option.map_some, Wire.decode_understood]
      exact copiedBy_passedOn hl hf (.update hlatest) rfl _ book

end Channel

/-! ## Whole outputs -/

/-- Whether a line carries a message. -/
def Wire.isMarked (line : String) : Bool := (Wire.payload? line).isSome

theorem Wire.isMarked_line (record : Wire.Record) : Wire.isMarked record.line = true := by
  rw [isMarked, Record.line, payload?_mark]
  rfl

namespace Progress

/-- A line without a marker is left to the caller, and nothing else happens. -/
theorem step_unmarked (p : Progress) {line : String} (h : Wire.isMarked line = false)
    (source : String) (trusted : Bool) :
    p.step (.line line source trusted) = { p with results := p.results ++ [.ok false] } := by
  have hpayload : Wire.payload? line = none := by simpa [Wire.isMarked] using h
  simp [step, enter, Channel.handleLine, hpayload, Logbook.since]

/-- The line of a record is handled as the message that it is read as. -/
theorem step_record (p : Progress) (record : Wire.Record) (source : String) (trusted : Bool) :
    p.step (.line record.line source trusted)
      = p.enter (p.channel.handle record.understood trusted p.book) := by
  rw [step, Channel.handleLine_of_heard (Channel.heard?_of_ofLine? (Wire.ofLine?_line record))]

/-- Lines without a message have no effect. -/
theorem run_marked {p q : Progress} (hchannel : p.channel = q.channel) (hbook : p.book = q.book)
    (trusted : Bool) (feed : List (String × String)) :
    (p.run (Turn.ofLines trusted feed)).channel
        = (q.run (Turn.ofLines trusted (feed.filter fun line => Wire.isMarked line.1))).channel
      ∧ (p.run (Turn.ofLines trusted feed)).book
        = (q.run (Turn.ofLines trusted (feed.filter fun line => Wire.isMarked line.1))).book := by
  induction feed generalizing p q with
  | nil => exact ⟨hchannel, hbook⟩
  | cons line feed ih =>
    obtain ⟨line, source⟩ := line
    rw [Turn.ofLines_cons, run_cons]
    cases hmarked : Wire.isMarked line with
    | false =>
      rw [List.filter_cons_of_neg (by simp [hmarked]), step_unmarked p hmarked]
      exact ih hchannel hbook
    | true =>
      rw [List.filter_cons_of_pos (by simp [hmarked]), Turn.ofLines_cons, run_cons]
      refine ih ?_ ?_
      · simp only [step, enter, hchannel, hbook]
      · simp only [step, enter, hchannel, hbook]

/-- **An output is repeated call by call.** -/
theorem copies_run (hl : Listens sink heard) {p : Progress} (hf : p.channel.Follows sink latest)
    (ht : Tracks trusted running latest) (hcalls : Call.WellFormed running calls)
    {feed : List (String × String)}
    (hfeed : (feed.map Prod.fst).filter Wire.isMarked
      = calls.map fun call => (call.record showTrace).line) :
    (p.run (Turn.ofLines trusted feed)).results
        = p.results ++ feed.map (fun line => .ok (Wire.isMarked line.1))
      ∧ ∃ copies, heard (p.run (Turn.ofLines trusted feed)).book = heard p.book ++ copies
        ∧ Copies p.channel.parent showTrace trusted latest calls copies
        ∧ Numbered p.book.issued (startIds copies) := by
  -- The feed is taken line by line: a marked line uses up one call, another line uses up none.
  induction feed generalizing p latest running calls with
  | nil =>
    obtain rfl : calls = [] := by simpa using hfeed.symm
    exact ⟨(List.append_nil _).symm, [], (List.append_nil _).symm, .nil, trivial⟩
  | cons line feed ih =>
    obtain ⟨line, source⟩ := line
    rw [Turn.ofLines_cons, run_cons]
    cases hmarked : Wire.isMarked line with
    | false =>
      rw [List.map_cons, List.filter_cons_of_neg (by simp [hmarked])] at hfeed
      rw [step_unmarked p hmarked]
      obtain ⟨hresults, hcopies⟩ := ih (p := { p with results := p.results ++ [.ok false] })
        hf ht hcalls hfeed
      refine ⟨?_, hcopies⟩
      rw [hresults, List.map_cons, hmarked, List.append_assoc, List.singleton_append]
    | true =>
      rw [List.map_cons, List.filter_cons_of_pos hmarked] at hfeed
      obtain ⟨call, calls, rfl, rfl, hrest⟩ := List.map_eq_cons_iff.mp hfeed.symm
      obtain ⟨hcall, hcalls⟩ := hcalls
      rw [step_record]
      obtain ⟨hresult, hparent, copies, latest', hheard, hcopied, hf', hcounted⟩ :=
        Channel.copied_handle hl hf ht hcall showTrace p.book
      obtain ⟨hresults, rest, hheards, hcopies, hnumbered⟩ :=
        ih (p := p.enter (p.channel.handle (call.record showTrace).understood trusted p.book))
          hf' (hcopied.tracks ht hcall) hcalls hrest.symm
      refine ⟨?_, copies ++ rest, ?_, .cons hcopied (hparent ▸ hcopies), ?_⟩
      · rw [hresults, enter, hresult, List.map_cons, hmarked, List.append_assoc,
          List.singleton_append]
      · rw [hheards, enter, hheard, List.append_assoc]
      · rw [startIds, List.filterMap_append]
        refine hcounted.numbered.append ?_
        rw [← hcounted.issued]
        exact hnumbered

/--
**Replaying what another program has sent repeats its calls.**

The other program makes any calls in order on a wire sink, in front of a sink that keeps lines. Its
lines, with any lines between them that carry no message, reach a new channel with everything on
a recorder. Then each line is answered according to its marker, those without one have no effect,
and the recorder has heard a copy of each call, in the same order; from a program that is not
trusted, of those calls that it may make. Activities that are started within 2³² starts of each
other have different numbers.
-/
theorem replay_run {behind : Sink} {read : Logbook → List String}
    (hbehind : Logbook.KeepsLines behind read) (issuer : Issuer) (front : Nat) (showTrace : Bool)
    {calls : List Call} (hcalls : Call.WellFormed [] calls) (there : Logbook)
    {lines : List String}
    (hlines : read (Logbook.tellAll issuer (.wire front showTrace behind) calls there)
      = read there ++ lines)
    {feed : List (String × String)} (hfeed : (feed.map Prod.fst).filter Wire.isMarked = lines)
    (parent : UInt64) (id : Nat) (here : Logbook) (trusted : Bool) :
    let start : Progress := { channel := .pinned parent (Sink.willing id), book := here }
    let p := start.run (Turn.ofLines trusted feed)
    let q := start.run (Turn.ofLines trusted (feed.filter fun line => Wire.isMarked line.1))
    p.results = feed.map (fun line => .ok (Wire.isMarked line.1))
      ∧ p.channel = q.channel ∧ p.book = q.book
      ∧ ∃ copies, p.book.keptOn id = here.keptOn id ++ copies
        ∧ Copies parent showTrace trusted (fun _ => none) calls copies
        ∧ (trusted = true → copies.length = calls.length)
        ∧ ∀ i j a b, (startIds copies)[i]? = some a → (startIds copies)[j]? = some b →
          i < j → j < i + UInt32.size → a ≠ b := by
  intro start p q
  rw [Logbook.read_tellAll hbehind, List.append_cancel_left_eq] at hlines
  obtain ⟨hresults, copies, hheard, hcopies, hnumbered⟩ :=
    copies_run (p := start) (listens_recorder id) (Channel.follows_pinned parent _)
      (tracks_nil trusted) hcalls (hfeed.trans hlines.symm)
  obtain ⟨hchannel, hbook⟩ := run_marked (p := start) (q := start) rfl rfl trusted feed
  refine ⟨hresults, hchannel, hbook, copies, hheard, hcopies, ?_, ?_⟩
  · rintro rfl
    exact hcopies.length_eq (tracks_nil true) hcalls
  · intro i j a b ha hb hij hnear
    exact hnumbered.ne ha hb hij hnear

/-- A build under a number that is used again, and a message that looks like one of its lines. -/
def rebuild : List Call :=
  [.start 7 .info .build "building" [.text "hello"] 0, .log .error "@nix \x7b\x7d",
    .update 7 .setPhase [.text "check"], .stop 7, .start 7 .info .build "building" [] 0]

/-- The lines of the build, after one that was printed. -/
def rebuildFeed : List (String × String) :=
  ("unpacking", "builder") :: rebuild.map fun call => ((call.record false).line, "builder")

theorem replay_run_rebuild :
    let start : Progress := { channel := .pinned 500 (Sink.willing 2), book := {} }
    (start.run (Turn.ofLines true rebuildFeed)).results
        = [.ok false, .ok true, .ok true, .ok true, .ok true, .ok true]
      ∧ ((start.run (Turn.ofLines true rebuildFeed)).book.keptOn 2).length = 5 := by
  have hmarked : ∀ call : Call, Wire.isMarked (call.record false).line = true :=
    fun call => Wire.isMarked_line _
  have hprinted : Wire.isMarked "unpacking" = false := by decide
  have hcalls : Call.WellFormed [] rebuild := by decide
  have hfeed : (rebuildFeed.map Prod.fst).filter Wire.isMarked
      = rebuild.map fun call => (call.record false).line := by
    simp [rebuildFeed, rebuild, hmarked, hprinted]
  obtain ⟨hresults, -, -, copies, hheard, -, hlength, -⟩ :=
    replay_run (Logbook.keepsLines_recorder 1) .user 9 false hcalls {}
      (Logbook.read_tellAll (Logbook.keepsLines_recorder 1) .user 9 false rebuild {}) hfeed
      500 2 {} true
  refine ⟨?_, ?_⟩
  · rw [hresults]
    simp [rebuildFeed, rebuild, hmarked, hprinted]
  · rw [hheard, List.length_append, hlength rfl]
    rfl

end Progress

end Worklog
