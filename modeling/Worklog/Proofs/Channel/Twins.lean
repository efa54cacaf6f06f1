import Mathlib.Logic.Equiv.Basic
import Worklog.Proofs.Channel.Pinned
import Worklog.Proofs.Lifecycle.Ledger

/-!
# A channel under other numbers

A recorder that does not look at the numbers of activities takes a call under one number as it takes
it under another. So a channel that numbers its activities in another way gives the same results for
the same lines, and its recorder hears the same calls, each under the number that the start of its
activity has.

Two runs of a channel are taken together, line by line. A list of pairs is carried along, with one
pair for each start: the numbers that it has in the one run and in the other.

* `exists_renaming` — the pairs make up one injective function.
* `mirrored_emit` — a call in both runs.
* `Twin.handle`, `Twin.handleLine` — a message and a line in both runs.
-/

namespace Worklog

open Logbook

/-! ## Renaming -/

/-- The call under another number. What it says of a parent stays. -/
def Call.renumbered (f : UInt64 → UInt64) : Call → Call
  | .start id level kind text fields parent => .start (f id) level kind text fields parent
  | .stop id => .stop (f id)
  | .update id kind fields => .update (f id) kind fields
  | .log level text => .log level text
  | .report error => .report error

/-- What a handle does, under another number. A channel by itself speaks of its parent only, and that
is no activity of the channel. -/
def Entry.renumbered (f : UInt64 → UInt64) : Entry → Entry
  | .call .handle sink said result => .call .handle sink (said.renumbered f) result
  | entry => entry

/-- Two lists of numbers without repetitions are renamed into each other by one injective function,
whatever it does elsewhere. -/
theorem exists_renaming {pairs : List (UInt64 × UInt64)} (hfirst : (pairs.map Prod.fst).Nodup)
    (hsecond : (pairs.map Prod.snd).Nodup) :
    ∃ f : UInt64 → UInt64, Function.Injective f ∧ ∀ pair ∈ pairs, f pair.1 = pair.2 := by
  suffices h : ∃ f : Equiv.Perm UInt64, ∀ pair ∈ pairs, f pair.1 = pair.2 by
    obtain ⟨f, hf⟩ := h
    exact ⟨f, f.injective, hf⟩
  induction pairs with
  | nil => exact ⟨Equiv.refl UInt64, by simp⟩
  | cons pair pairs ih =>
    obtain ⟨a, b⟩ := pair
    rw [List.map_cons, List.nodup_cons] at hfirst hsecond
    obtain ⟨f, hf⟩ := ih hfirst.2 hsecond.2
    -- The value at the new number is exchanged for the one that it should have.
    refine ⟨f.trans (Equiv.swap (f a) b), List.forall_mem_cons.mpr ⟨?_, fun other hother => ?_⟩⟩
    · simp
    · have hne : other.2 ≠ b := fun h =>
        hsecond.1 (List.mem_map.mpr ⟨other, hother, h⟩)
      have hne' : other.2 ≠ f a := by
        rw [← hf other hother]
        exact fun h => hfirst.1 (List.mem_map.mpr ⟨other, hother, f.injective h⟩)
      rw [Equiv.trans_apply, hf other hother, Equiv.swap_apply_of_ne_of_ne hne' hne]

variable {pairs more : List (UInt64 × UInt64)}

/-- Two entries that differ in the number of the activity at most, and then in a known way. -/
inductive Entry.Paired (pairs : List (UInt64 × UInt64)) : Entry → Entry → Prop where
  /-- No handle has made the call. -/
  | same {entry : Entry} (quiet : entry.did? = none) : Paired pairs entry entry
  | start {sink : Sink} {result : Except Failure Unit} {a b : UInt64} (pair : (a, b) ∈ pairs)
      (level : Level) (kind : ActivityKind) (text : String) (fields : List Field)
      (parent : UInt64) :
      Paired pairs (.call .handle sink (.start a level kind text fields parent) result)
        (.call .handle sink (.start b level kind text fields parent) result)
  | update {sink : Sink} {result : Except Failure Unit} {a b : UInt64} (pair : (a, b) ∈ pairs)
      (kind : UpdateKind) (fields : List Field) :
      Paired pairs (.call .handle sink (.update a kind fields) result)
        (.call .handle sink (.update b kind fields) result)
  | stop {sink : Sink} {result : Except Failure Unit} {a b : UInt64} (pair : (a, b) ∈ pairs) :
      Paired pairs (.call .handle sink (.stop a) result) (.call .handle sink (.stop b) result)

namespace Entry

variable {x y : Entry}

theorem renumbered_of_did?_eq_none (f : UInt64 → UInt64) (h : x.did? = none) :
    x.renumbered f = x := by
  cases x with
  | text output text => rfl
  | note note => rfl
  | call issuer sink said result =>
    cases issuer with
    | user => rfl
    | channel => rfl
    | handle =>
      cases said with
      | log level text => rfl
      | report error => rfl
      | start => cases h
      | stop => cases h
      | update => cases h

theorem Paired.mono (h : Paired pairs x y) {all : List (UInt64 × UInt64)} (hall : pairs ⊆ all) :
    Paired all x y := by
  cases h with
  | same quiet => exact .same quiet
  | start pair => exact .start (hall pair) ..
  | update pair => exact .update (hall pair) ..
  | stop pair => exact .stop (hall pair)

/-- Where a renaming agrees with the pairs, the one entry is the renamed other one. -/
theorem Paired.eq_renumbered (h : Paired pairs x y) {f : UInt64 → UInt64}
    (hf : ∀ pair ∈ pairs, f pair.1 = pair.2) : y = x.renumbered f := by
  cases h with
  | same quiet => exact (renumbered_of_did?_eq_none f quiet).symm
  | start pair => rw [renumbered, Call.renumbered, hf _ pair]
  | update pair => rw [renumbered, Call.renumbered, hf _ pair]
  | stop pair => rw [renumbered, Call.renumbered, hf _ pair]

/-- But for the numbers, the entries are the same. -/
theorem Paired.renumbered_zero (h : Paired pairs x y) :
    y.renumbered (fun _ => 0) = x.renumbered fun _ => 0 := by
  cases h <;> rfl

end Entry

/-! ## Recorders -/

/-- Whether a call is refused does not depend on the number of the activity. -/
def Blind (refuses : Nat → Call → Bool) : Prop :=
  ∀ count call f, refuses count (call.renumbered f) = refuses count call

namespace Logbook

/-- The entries of the calls that a sink keeps. -/
def entriesOn (book : Logbook) (sink : Nat) : List Entry :=
  book.entries.filter fun entry => (entry.keptOn? sink).isSome

@[simp] theorem entriesOn_addNote (book : Logbook) (note : Note) (sink : Nat) :
    (book.addNote note).entriesOn sink = book.entriesOn sink := by
  rw [entriesOn, addNote_entries, List.filter_append]
  exact List.append_nil _

/-- A recorder gets one entry for a call, with its own reply in it. -/
theorem entriesOn_emit_recorder (issuer : Issuer) (id : Nat) (refuses : Nat → Call → Bool)
    (said : Call) (book : Logbook) :
    (emit issuer (.recorder id refuses) said book).2.entriesOn id
      = book.entriesOn id ++ [.call issuer (.recorder id refuses) said
        (emit issuer (.recorder id refuses) said book).1] := by
  rw [entriesOn, emit, add_entries, List.filter_append, ← entriesOn]
  simp [Entry.keptOn?, Entry.kept?]

theorem length_keptOn (book : Logbook) (sink : Nat) :
    (book.keptOn sink).length = (book.entriesOn sink).length := by
  rw [keptOn_eq, List.length_filterMap_eq_countP, List.countP_eq_length_filter]
  rfl

/-- Who tells a sink adds nothing to another one that it does not pass on to. -/
theorem AddsFrom.entriesOn {sink : Sink} {other : Nat} {a b : Logbook} (h : AddsFrom sink a b)
    (hother : ∀ reached ∈ sink :: sink.behinds, reached.id ≠ other) :
    b.entriesOn other = a.entriesOn other := by
  obtain ⟨added, hentries, hfrom⟩ := h
  have hkept : ∀ (issuer : Issuer) (reached : Sink) (said : Call) (result : Except Failure Unit),
      reached.id ≠ other → ((Entry.call issuer reached said result).keptOn? other) = none := by
    intro issuer reached said result hne
    cases reached with
    | recorder id refuses => simpa [Entry.keptOn?, Entry.kept?, Sink.id] using hne
    | fuse id capacity =>
      cases result with
      | error failure => rfl
      | ok done =>
        simp only [Entry.keptOn?, Entry.kept?]
        split
        · simpa [Sink.id] using hne
        · rfl
    | plain id settings target => rfl
    | wire id showTrace behind => rfl
    | foreign id verbose replies => simpa [Entry.keptOn?, Entry.kept?, Sink.id] using hne
  have hnone : added.filter (fun entry => (entry.keptOn? other).isSome) = [] := by
    refine List.filter_eq_nil_iff.mpr fun entry hentry => ?_
    rcases hfrom entry hentry with ⟨issuer, said, result, rfl⟩ | hpassed
    · simp [hkept issuer sink said result (hother sink List.mem_cons_self)]
    · cases hpassed with
      | line behinds => simp [hkept _ _ _ _ (hother _ (List.mem_cons_of_mem _ behinds))]
      | text output text => simp [Entry.keptOn?, Entry.kept?]
      | note note => simp [Entry.keptOn?, Entry.kept?]
  rw [Logbook.entriesOn, hentries, List.filter_append, hnone, List.append_nil, Logbook.entriesOn]

/-- The entries of the calls that a sink has kept since an earlier book. -/
def heardSince (sink : Nat) (before after : Logbook) : List Entry :=
  (after.entriesOn sink).drop (before.entriesOn sink).length

theorem heardSince_eq {sink : Nat} {before after : Logbook} {heard : List Entry}
    (h : after.entriesOn sink = before.entriesOn sink ++ heard) :
    heardSince sink before after = heard := by
  rw [heardSince, h, List.drop_left]

/-- What a sink has heard since can be filtered from what was added. -/
theorem heardSince_of_entries {before after : Logbook} {added : List Entry}
    (h : after.entries = before.entries ++ added) (sink : Nat) :
    heardSince sink before after = added.filter fun entry => (entry.keptOn? sink).isSome :=
  heardSince_eq (by rw [entriesOn, h, List.filter_append, entriesOn])

/-- If all calls are made on one recorder, it hears of all starts. -/
theorem AddsFrom.startedIn_heardSince {id : Nat} {refuses : Nat → Call → Bool}
    {before after : Logbook} (h : AddsFrom (.recorder id refuses) before after) :
    startedIn (didIn (heardSince id before after))
      = startedIn (didIn (Logbook.since before after)) := by
  obtain ⟨added, hentries, hfrom⟩ := h
  rw [heardSince_of_entries hentries, since_eq hentries, didIn, didIn, List.filterMap_filter]
  refine congrArg startedIn (List.filterMap_congr fun entry hentry => ?_)
  rcases hfrom entry hentry with ⟨issuer, said, result, rfl⟩ | hpassed
  · simp [Entry.keptOn?, Entry.kept?]
  · rw [hpassed.did?, ite_self]

end Logbook

/-! ## Two books -/

section Books

variable {id : Nat} {refuses : Nat → Call → Bool} {before a b a' b' : Logbook}

/-- Since an earlier book, a recorder has heard the same in two books, but for the numbers of the
activities. There is one pair of numbers for each start. -/
structure Mirrored (id : Nat) (before : Logbook) (pairs : List (UInt64 × UInt64))
    (a b : Logbook) : Prop where
  first : a.entriesOn id = before.entriesOn id ++ heardSince id before a
  second : b.entriesOn id = before.entriesOn id ++ heardSince id before b
  paired : List.Forall₂ (Entry.Paired pairs) (heardSince id before a) (heardSince id before b)
  firstStarts : startedIn (didIn (heardSince id before a)) = pairs.map Prod.fst
  secondStarts : startedIn (didIn (heardSince id before b)) = pairs.map Prod.snd

theorem mirrored_refl (id : Nat) (book : Logbook) : Mirrored id book [] book book := by
  have hnothing : heardSince id book book = [] := heardSince_eq (List.append_nil _).symm
  refine ⟨?_, ?_, ?_, ?_, ?_⟩ <;> rw [hnothing]
  · exact (List.append_nil _).symm
  · exact (List.append_nil _).symm
  · exact .nil
  · rfl
  · rfl

theorem Mirrored.length_keptOn (h : Mirrored id before pairs a b) :
    (a.keptOn id).length = (b.keptOn id).length := by
  rw [Logbook.length_keptOn, Logbook.length_keptOn, h.first, h.second, List.length_append,
    List.length_append, h.paired.length_eq]

/-- What the recorder does not hear makes no difference. -/
theorem Mirrored.congr (h : Mirrored id before pairs a b)
    (ha : a'.entriesOn id = a.entriesOn id) (hb : b'.entriesOn id = b.entriesOn id) :
    Mirrored id before pairs a' b' := by
  have ha' : heardSince id before a' = heardSince id before a := by rw [heardSince, ha, heardSince]
  have hb' : heardSince id before b' = heardSince id before b := by rw [heardSince, hb, heardSince]
  refine ⟨?_, ?_, ?_, ?_, ?_⟩
  · rw [ha, ha', h.first]
  · rw [hb, hb', h.second]
  · rw [ha', hb']
    exact h.paired
  · rw [ha', h.firstStarts]
  · rw [hb', h.secondStarts]

/-- The numbers of the starts in one entry. -/
def Entry.startIds (entry : Entry) : List UInt64 := startedIn (didIn [entry])

/-- **A call in both runs** has the same result. The numbers of both are remembered if it is a
start. -/
theorem mirrored_emit (h : Mirrored id before pairs a b) (issuer : Issuer)
    (refuses : Nat → Call → Bool) (said said' : Call) (more : List (UInt64 × UInt64))
    (hrefuses : ∀ count, refuses count said = refuses count said')
    (hpaired : ∀ result, Entry.Paired (pairs ++ more)
      (.call issuer (.recorder id refuses) said result)
      (.call issuer (.recorder id refuses) said' result))
    (hfirst : ∀ result, Entry.startIds (.call issuer (.recorder id refuses) said result)
      = more.map Prod.fst)
    (hsecond : ∀ result, Entry.startIds (.call issuer (.recorder id refuses) said' result)
      = more.map Prod.snd) :
    (emit issuer (.recorder id refuses) said a).1 = (emit issuer (.recorder id refuses) said' b).1
      ∧ Mirrored id before (pairs ++ more) (emit issuer (.recorder id refuses) said a).2
        (emit issuer (.recorder id refuses) said' b).2 := by
  have hresult : (emit issuer (.recorder id refuses) said a).1
      = (emit issuer (.recorder id refuses) said' b).1 := by
    simp only [emit, h.length_keptOn, hrefuses]
  refine ⟨hresult, ?_⟩
  have ha := entriesOn_emit_recorder issuer id refuses said a
  have hb := entriesOn_emit_recorder issuer id refuses said' b
  rw [← hresult] at hb
  rw [h.first, List.append_assoc] at ha
  rw [h.second, List.append_assoc] at hb
  refine ⟨?_, ?_, ?_, ?_, ?_⟩
  · rw [heardSince_eq ha, ha]
  · rw [heardSince_eq hb, hb]
  · rw [heardSince_eq ha, heardSince_eq hb]
    refine List.rel_append (h.paired.imp fun x y hxy => hxy.mono (List.subset_append_left _ _)) ?_
    exact .cons (hpaired _) .nil
  · rw [heardSince_eq ha, didIn_append, startedIn_append, h.firstStarts, List.map_append]
    exact congrArg _ (hfirst _)
  · rw [heardSince_eq hb, didIn_append, startedIn_append, h.secondStarts, List.map_append]
    exact congrArg _ (hsecond _)

/-- A call that no handle makes is the same in both runs. -/
theorem mirrored_emit_channel (h : Mirrored id before pairs a b) (refuses : Nat → Call → Bool)
    (said : Call) :
    (emit .channel (.recorder id refuses) said a).1 = (emit .channel (.recorder id refuses) said b).1
      ∧ Mirrored id before pairs (emit .channel (.recorder id refuses) said a).2
        (emit .channel (.recorder id refuses) said b).2 := by
  have hcall := mirrored_emit h .channel refuses said said [] (fun _ => rfl) (fun _ => .same rfl)
    (fun _ => rfl) (fun _ => rfl)
  rwa [List.append_nil] at hcall

end Books

/-! ## Two channels -/

namespace Channel

variable {id : Nat} {refuses : Nat → Call → Bool} {before a b : Logbook} {own shared : Channel}

/-- Two channels on one recorder, with the same remote activities under paired numbers. -/
structure Twin (id : Nat) (refuses : Nat → Call → Bool) (pairs : List (UInt64 × UInt64))
    (own shared : Channel) : Prop where
  first : own.AllOn (.recorder id refuses)
  second : shared.AllOn (.recorder id refuses)
  parent : own.parent = shared.parent
  running : List.Forall₂ (fun x y => x.1 = y.1 ∧ (x.2.id, y.2.id) ∈ pairs) own.running
    shared.running

theorem Twin.append (h : Twin id refuses pairs own shared) (more : List (UInt64 × UInt64)) :
    Twin id refuses (pairs ++ more) own shared :=
  ⟨h.first, h.second, h.parent, h.running.imp fun _ _ hxy =>
    ⟨hxy.1, List.mem_append_left _ hxy.2⟩⟩

/-- Both channels know a remote activity, or none of them does. -/
theorem Twin.find (h : Twin id refuses pairs own shared) (remote : UInt64) :
    (own.find remote = none ∧ shared.find remote = none)
      ∨ ∃ x y, own.find remote = some ⟨x, .recorder id refuses⟩
        ∧ shared.find remote = some ⟨y, .recorder id refuses⟩ ∧ (x, y) ∈ pairs := by
  have hlookup : (own.find remote = none ∧ shared.find remote = none)
      ∨ ∃ x y, own.find remote = some x ∧ shared.find remote = some y ∧ (x.id, y.id) ∈ pairs := by
    have hrunning := h.running
    rw [Channel.find, Channel.find]
    generalize own.running = running, shared.running = running' at hrunning
    induction hrunning with
    | nil => exact .inl ⟨rfl, rfl⟩
    | @cons x y _ _ hxy _ ih =>
      obtain ⟨hkey, hpair⟩ := hxy
      rw [List.lookup_cons, List.lookup_cons, ← hkey]
      by_cases hremote : remote = x.1
      · rw [beq_iff_eq.mpr hremote]
        exact .inr ⟨x.2, y.2, rfl, rfl, hpair⟩
      · rw [beq_eq_false_iff_ne.mpr hremote]
        exact ih
  rcases hlookup with hnone | ⟨x, y, hx, hy, hpair⟩
  · exact .inl hnone
  · refine .inr ⟨x.id, y.id, ?_, ?_, hpair⟩
    · rw [hx, ← h.first.find hx]
    · rw [hy, ← h.second.find hy]

theorem Twin.isRunning (h : Twin id refuses pairs own shared) (remote : UInt64) :
    own.isRunning remote = shared.isRunning remote := by
  rcases h.find remote with ⟨hx, hy⟩ | ⟨x, y, hx, hy, -⟩
  · rw [Channel.isRunning, Channel.isRunning, hx, hy]
  · rw [Channel.isRunning, Channel.isRunning, hx, hy]
    rfl

/-- A start on both sides, with numbers that make a pair. -/
theorem Twin.started (h : Twin id refuses pairs own shared) (remote x y : UInt64) :
    Twin id refuses (pairs ++ [(x, y)]) (own.started remote ⟨x, .recorder id refuses⟩)
      (shared.started remote ⟨y, .recorder id refuses⟩) := by
  refine ⟨h.first.started remote x, h.second.started remote y, h.parent, ?_⟩
  exact List.rel_append (h.append _).running (.cons ⟨rfl, by simp⟩ .nil)

theorem Twin.stopped (h : Twin id refuses pairs own shared) (remote : UInt64) :
    Twin id refuses pairs (own.stopped remote) (shared.stopped remote) := by
  refine ⟨h.first.stopped remote, h.second.stopped remote, h.parent, ?_⟩
  refine List.rel_filter ?_ h.running
  intro x y hxy
  simp [hxy.1]

/-- What has become of the same line in both runs: the result is the same, and what was the same
before, is still. -/
def Handled.Paired (id : Nat) (refuses : Nat → Call → Bool) (before : Logbook)
    (pairs : List (UInt64 × UInt64)) (x y : Handled) : Prop :=
  ∃ more, x.result = y.result ∧ Twin id refuses (pairs ++ more) x.channel y.channel
    ∧ Mirrored id before (pairs ++ more) x.book y.book

/-- No start was made. -/
theorem Handled.Paired.ofQuiet {x y : Handled} (hresult : x.result = y.result)
    (hchannel : Twin id refuses pairs x.channel y.channel)
    (hbook : Mirrored id before pairs x.book y.book) :
    Handled.Paired id refuses before pairs x y :=
  ⟨[], hresult, by rwa [List.append_nil], by rwa [List.append_nil]⟩

theorem Twin.passedOn (h : Twin id refuses pairs own shared)
    {x y : Except Failure Unit × Logbook} (hresult : x.1 = y.1)
    (hbook : Mirrored id before pairs x.2 y.2) :
    Handled.Paired id refuses before pairs (own.passedOn x) (shared.passedOn y) := by
  obtain ⟨result, a⟩ := x
  obtain ⟨result', b⟩ := y
  obtain rfl : result = result' := hresult
  cases result with
  | error failure => exact .ofQuiet rfl h hbook
  | ok done => exact .ofQuiet rfl h hbook

/-- The same message starts an activity on both sides or on neither, with a new pair of numbers. -/
theorem Twin.accept (h : Twin id refuses pairs own shared) (hblind : Blind refuses)
    (hbook : Mirrored id before pairs a b) (remote : UInt64) (level : Level)
    (kind : ActivityKind) (text : String) (values : Option (List Json)) :
    Handled.Paired id refuses before pairs (own.accept remote level kind text values a)
      (shared.accept remote level kind text values b) := by
  unfold Channel.accept
  cases Field.decode values with
  | error unsupported => exact .ofQuiet rfl h hbook
  | ok fields =>
    -- Each run draws the next number of its own book, and the two numbers are a new pair.
    have hnext : Mirrored id before pairs a.nextId.2 b.nextId.2 := hbook.congr rfl rfl
    have hcall := mirrored_emit hnext .handle refuses
      (.start a.nextId.1 level kind text fields own.parent)
      (.start b.nextId.1 level kind text fields own.parent) [(a.nextId.1, b.nextId.1)]
      (fun count => hblind count (.start b.nextId.1 level kind text fields own.parent)
        fun _ => a.nextId.1)
      (fun _ => .start (by simp) level kind text fields own.parent) (fun _ => rfl) (fun _ => rfl)
    simp only [h.first.targetSink, h.second.targetSink, Activity.start, ← h.parent]
    generalize Logbook.emit .handle (.recorder id refuses)
      (.start a.nextId.1 level kind text fields own.parent) a.nextId.2 = x at hcall
    generalize Logbook.emit .handle (.recorder id refuses)
      (.start b.nextId.1 level kind text fields own.parent) b.nextId.2 = y at hcall
    obtain ⟨result, after⟩ := x
    obtain ⟨result', after'⟩ := y
    obtain ⟨hresult, hafter⟩ := hcall
    obtain rfl : result = result' := hresult
    cases result with
    | error failure => exact ⟨_, rfl, h.append _, hafter⟩
    | ok done =>
      refine ⟨_, rfl, h.started remote _ _, hafter.congr ?_ ?_⟩
      · rw [entriesOn_addNote]
      · rw [entriesOn_addNote]

theorem Twin.stop (hblind : Blind refuses) (hbook : Mirrored id before pairs a b) {x y : UInt64}
    (hpair : (x, y) ∈ pairs) :
    Mirrored id before pairs (Activity.stop ⟨x, .recorder id refuses⟩ a)
      (Activity.stop ⟨y, .recorder id refuses⟩ b) := by
  have hcall := mirrored_emit hbook .handle refuses (.stop x) (.stop y) []
    (fun count => hblind count (.stop y) fun _ => x)
    (fun _ => .stop (List.mem_append_left _ hpair)) (fun _ => rfl) (fun _ => rfl)
  rw [List.append_nil] at hcall
  have hafter : ∀ (book : Logbook) (number : UInt64),
      (Activity.stop ⟨number, .recorder id refuses⟩ book).entriesOn id
        = (emit .handle (.recorder id refuses) (.stop number) book).2.entriesOn id := by
    intro book number
    rcases Activity.stop_eq ⟨number, .recorder id refuses⟩ book with hstop | ⟨note, hstop⟩
    · rw [hstop]
    · rw [hstop, entriesOn_addNote]
  exact hcall.2.congr (hafter a x) (hafter b y)

/-- What is told of an activity on the one side is told of its pair on the other. -/
theorem Twin.update (h : Twin id refuses pairs own shared) (hblind : Blind refuses)
    (hbook : Mirrored id before pairs a b) {x y : UInt64} (hpair : (x, y) ∈ pairs)
    (kind : UpdateKind) (fields : List Field) :
    Handled.Paired id refuses before pairs
      (own.passedOn (Activity.update ⟨x, .recorder id refuses⟩ kind fields a))
      (shared.passedOn (Activity.update ⟨y, .recorder id refuses⟩ kind fields b)) := by
  have hcall := mirrored_emit hbook .handle refuses (.update x kind fields)
    (.update y kind fields) []
    (fun count => hblind count (.update y kind fields) fun _ => x)
    (fun _ => .update (List.mem_append_left _ hpair) kind fields) (fun _ => rfl) (fun _ => rfl)
  rw [List.append_nil] at hcall
  exact h.passedOn hcall.1 hcall.2

/-- **A message in both runs.** -/
theorem Twin.handle (h : Twin id refuses pairs own shared) (hblind : Blind refuses)
    (hbook : Mirrored id before pairs a b) (message : Wire.Message) (trusted : Bool) :
    Handled.Paired id refuses before pairs (own.handle message trusted a)
      (shared.handle message trusted b) := by
  have hnote : ∀ note : Note, Mirrored id before pairs (a.addNote note) (b.addNote note) :=
    fun note => hbook.congr (entriesOn_addNote a note id) (entriesOn_addNote b note id)
  cases message with
  | start remote level kind text parent values =>
    simp only [Channel.handle, h.isRunning remote]
    split
    · exact .ofQuiet rfl h (hnote _)
    · split
      · exact .ofQuiet rfl h (hnote _)
      · exact h.accept hblind hbook remote level kind text values
  | stop remote =>
    simp only [Channel.handle]
    rcases h.find remote with ⟨hx, hy⟩ | ⟨x, y, hx, hy, hpair⟩
    · rw [hx, hy]
      exact .ofQuiet rfl h hbook
    · rw [hx, hy]
      exact .ofQuiet rfl (h.stopped remote) (Twin.stop hblind hbook hpair)
  | update remote kind values =>
    simp only [Channel.handle]
    rcases h.find remote with ⟨hx, hy⟩ | ⟨x, y, hx, hy, hpair⟩
    · rw [hx, hy]
      exact .ofQuiet rfl h hbook
    · rw [hx, hy]
      cases Field.decode values with
      | error unsupported => exact .ofQuiet rfl h hbook
      | ok fields => exact h.update hblind hbook hpair kind fields
  | phase name =>
    have hcall := mirrored_emit_channel hbook refuses
      (.update own.parent .setPhase (Activity.phaseFields name))
    simp only [Channel.handle, h.first.phases, h.second.phases, ← h.parent]
    exact h.passedOn hcall.1 hcall.2
  | message level text raw =>
    have hcall := mirrored_emit_channel hbook refuses (.log level text)
    simp only [Channel.handle, h.first.targetSink, h.second.targetSink]
    exact h.passedOn hcall.1 hcall.2
  | unknown => exact .ofQuiet rfl h hbook

theorem Twin.complain (h : Twin id refuses pairs own shared)
    (hbook : Mirrored id before pairs a b) (what source : String) (problem : Json.Problem) :
    Handled.Paired id refuses before pairs (own.complain what source problem a)
      (shared.complain what source problem b) := by
  have hafter : ∀ {channel : Channel}, channel.AllOn (.recorder id refuses) →
      ∀ (text : String) (book : Logbook), (channel.warn text book).entriesOn id
        = (emit .channel (.recorder id refuses) (.warning text) book).2.entriesOn id := by
    intro channel hchannel text book
    rw [← hchannel.targetSink book]
    rcases channel.warn_eq text book with hwarn | ⟨note, hwarn⟩
    · rw [hwarn]
    · rw [hwarn, entriesOn_addNote]
  refine .ofQuiet rfl h ?_
  exact (mirrored_emit_channel hbook refuses (.warning _)).2.congr
    (hafter h.first _ a) (hafter h.second _ b)

/-- **A line in both runs.** -/
theorem Twin.handleLine (h : Twin id refuses pairs own shared) (hblind : Blind refuses)
    (hbook : Mirrored id before pairs a b) (line source : String) (trusted : Bool) :
    Handled.Paired id refuses before pairs (own.handleLine line source trusted a)
      (shared.handleLine line source trusted b) := by
  unfold Channel.handleLine
  split
  · exact .ofQuiet rfl h hbook
  · split
    · exact h.complain hbook _ source _
    · split
      · exact h.complain hbook _ source _
      · exact h.handle hblind hbook _ trusted

end Channel

end Worklog
