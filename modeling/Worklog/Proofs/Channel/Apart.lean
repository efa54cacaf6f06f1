import Worklog.Proofs.Channel.Entrywise
import Worklog.Proofs.Channel.Numbers
import Worklog.Proofs.Channel.Twins

/-!
# Channels side by side

Several channels share one book, and with it the counter that their activities are numbered from.
Each of them has a recorder of its own. What happens to one of them is then the same as if the others
were not there, but that its activities have other numbers: a number is given to each start, and who
speaks of the activity later uses the number of its start.

* `Beside.step` — one event, for a channel that is alone and for the same channel beside others.
* `beside_run` — both runs, at every moment.
* `Beside.nodup_started` — no number is given out twice, up to 2³² of them.
* `apart` — what is seen of a channel, with one renaming for the whole run.
-/

namespace Worklog

open Logbook

/-! ## Views -/

/-- What can be seen of a channel: the results for its lines, the remote activities that run, each
with its number here, and what its recorder has heard. -/
@[ext]
structure View where
  results : List (Except Channel.Trouble Bool)
  registered : List (UInt64 × UInt64)
  heard : List Entry

namespace View

/-- What is seen if the activities have other numbers. -/
def renumbered (f : UInt64 → UInt64) (view : View) : View where
  results := view.results
  registered := view.registered.map fun entry => (entry.1, f entry.2)
  heard := view.heard.map (Entry.renumbered f)

/-- What is seen, but for the numbers. -/
def unnumbered (view : View) : View := view.renumbered fun _ => 0

/-- The numbers of all starts, also of those that are refused. -/
def started (view : View) : List UInt64 := startedIn (didIn view.heard)

/-- Two views that differ in the numbers only, and those are in the list. -/
structure Paired (pairs : List (UInt64 × UInt64)) (x y : View) : Prop where
  results : x.results = y.results
  registered : List.Forall₂ (fun a b => a.1 = b.1 ∧ (a.2, b.2) ∈ pairs) x.registered y.registered
  heard : List.Forall₂ (Entry.Paired pairs) x.heard y.heard

variable {x y : View}

theorem Paired.mono (h : Paired pairs x y) {all : List (UInt64 × UInt64)} (hall : pairs ⊆ all) :
    Paired all x y :=
  ⟨h.results, h.registered.imp fun _ _ hab => ⟨hab.1, hall hab.2⟩,
    h.heard.imp fun _ _ hab => hab.mono hall⟩

/-- A renaming that maps the numbers to each other maps the views to each other. -/
theorem Paired.eq_renumbered (h : Paired pairs x y) {f : UInt64 → UInt64}
    (hf : ∀ pair ∈ pairs, f pair.1 = pair.2) : x.renumbered f = y := by
  refine View.ext h.results ?_ ?_
  · rw [← y.registered.map_id]
    exact map_eq_map_of_forall₂ h.registered fun a b hab => Prod.ext hab.1 (hf _ hab.2)
  · rw [← y.heard.map_id]
    exact map_eq_map_of_forall₂ h.heard fun a b hab => (hab.eq_renumbered hf).symm

/-- Entries that are paired differ in numbers only. -/
theorem Paired.unnumbered_eq (h : Paired pairs x y) : x.unnumbered = y.unnumbered := by
  refine View.ext h.results ?_ ?_
  · exact map_eq_map_of_forall₂ h.registered fun a b hab => Prod.ext hab.1 rfl
  · exact map_eq_map_of_forall₂ h.heard fun a b hab => hab.renumbered_zero.symm

end View

/-! ## Runs side by side -/

/-- What happens among several channels. -/
inductive Event (ι : Type) where
  /-- A line reaches one of the channels. -/
  | line (channel : ι) (text source : String) (trusted : Bool)
  /-- The rest of the program changes the book. -/
  | elsewhere (change : Logbook → Logbook)

/-- A change of which a recorder hears nothing. -/
def Spares (recorder : Nat) (change : Logbook → Logbook) : Prop :=
  ∀ book, (change book).entriesOn recorder = book.entriesOn recorder

/-- An activity on a sink that does not pass on to the recorder. -/
theorem spares_start {recorder : Nat} {sink : Sink}
    (hsink : ∀ reached ∈ sink :: sink.behinds, reached.id ≠ recorder) (level : Level)
    (kind : ActivityKind) (text : String) (fields : List Field) (parent : UInt64) :
    Spares recorder fun book =>
      (Activity.start sink level kind text fields parent book).2 := by
  intro book
  obtain ⟨calls, htells⟩ := tells_start sink level kind text fields parent book
  exact htells.addsFrom.entriesOn hsink

/-- Channels that share a book. -/
structure Hall (ι : Type) where
  book : Logbook
  channels : ι → Channel
  results : ι → List (Except Channel.Trouble Bool)

section Hall

variable {ι : Type}

namespace Hall

/-- Channels that have heard nothing yet, each with everything on its own recorder. -/
def opened (parents : ι → UInt64) (numbers : ι → Nat) (refuses : ι → Nat → Call → Bool)
    (book : Logbook) : Hall ι where
  book := book
  channels i := .pinned (parents i) (.recorder (numbers i) (refuses i))
  results _ := []

/-- What can be seen of one of the channels, from an earlier book on. -/
def view (hall : Hall ι) (i : ι) (recorder : Nat) (before : Logbook) : View where
  results := hall.results i
  registered := (hall.channels i).running.map fun entry => (entry.1, entry.2.id)
  heard := heardSince recorder before hall.book

end Hall

/-- What can be seen of a channel that is alone. -/
def Progress.view (p : Progress) (recorder : Nat) (before : Logbook) : View where
  results := p.results
  registered := p.channel.running.map fun entry => (entry.1, entry.2.id)
  heard := heardSince recorder before p.book

variable {numbers : ι → Nat} {refuses : ι → Nat → Call → Bool} {before : Logbook} {i : ι}
variable {p : Progress} {hall : Hall ι}

/-- A channel has come equally far in both runs. -/
structure Beside (id : Nat) (refuses : Nat → Call → Bool) (before : Logbook) (i : ι)
    (pairs : List (UInt64 × UInt64)) (p : Progress) (hall : Hall ι) : Prop where
  twin : Channel.Twin id refuses pairs p.channel (hall.channels i)
  book : Mirrored id before pairs p.book hall.book
  results : p.results = hall.results i

/-- Whoever looks at the channel alone sees what is seen among the others, up to the numbers. -/
theorem Beside.view (h : Beside (numbers i) (refuses i) before i pairs p hall) :
    (p.view (numbers i) before).Paired pairs (hall.view i (numbers i) before) := by
  refine ⟨h.results, ?_, h.book.paired⟩
  rw [Progress.view, Hall.view, List.forall₂_map_left_iff, List.forall₂_map_right_iff]
  exact h.twin.running

/-- The numbers of all starts since an earlier book, on any of the channels and elsewhere. -/
def Hall.startedSince (hall : Hall ι) (before : Logbook) : List UInt64 :=
  startedIn (didIn (since before hall.book))

/-- A sink hears of some of the starts. -/
theorem Logbook.Draws.startedIn_heardSince_sublist {before after : Logbook}
    (h : Draws before after) (sink : Nat) :
    (startedIn (didIn (heardSince sink before after))).Sublist
      (startedIn (didIn (since before after))) := by
  obtain ⟨added, hentries, -⟩ := h
  rw [heardSince_of_entries hentries, since_eq hentries]
  exact (List.filter_sublist.filterMap _).filterMap _

/-- Up to the bound, no number was given out twice in either run: alone the channel starts as much as
beside the others, and that is not more than there is in all. -/
theorem Beside.nodup_started (h : Beside (numbers i) (refuses i) before i pairs p hall)
    (hadds : AddsFrom (.recorder (numbers i) (refuses i)) before p.book)
    (halone : Draws before p.book) (hbeside : Draws before hall.book)
    (hfew : before.issued.toNat + (hall.startedSince before).length ≤ 2 ^ 32) :
    (p.view (numbers i) before).started.Nodup
      ∧ (hall.view i (numbers i) before).started.Nodup := by
  have hheard := hbeside.startedIn_heardSince_sublist (numbers i)
  refine ⟨?_, hheard.nodup (hbeside.nodup hfew)⟩
  have hsame : (startedIn (didIn (heardSince (numbers i) before p.book))).length
      = (startedIn (didIn (heardSince (numbers i) before hall.book))).length := by
    rw [h.book.firstStarts, h.book.secondStarts, List.length_map, List.length_map]
  rw [hadds.startedIn_heardSince] at hsame
  have hle : _ ≤ (hall.startedSince before).length := hheard.length_le
  show (startedIn (didIn (heardSince (numbers i) before p.book))).Nodup
  rw [hadds.startedIn_heardSince]
  exact halone.nodup (by omega)

/-- Each channel has everything on its own recorder. -/
def Hall.Ordered (numbers : ι → Nat) (refuses : ι → Nat → Call → Bool) (hall : Hall ι) : Prop :=
  ∀ j, (hall.channels j).AllOn (.recorder (numbers j) (refuses j))

variable [DecidableEq ι]

/-- The turn of this channel, if it is one. -/
def Event.turn? (i : ι) : Event ι → Option Turn
  | .line channel text source trusted =>
    if channel = i then some (.line text source trusted) else none
  | .elsewhere _ => none

/-- The lines for one channel. -/
def turnsOf (i : ι) (events : List (Event ι)) : List Turn := events.filterMap (Event.turn? i)

namespace Hall

def step (hall : Hall ι) : Event ι → Hall ι
  | .line channel text source trusted =>
    let handled := (hall.channels channel).handleLine text source trusted hall.book
    { book := handled.book
      channels := Function.update hall.channels channel handled.channel
      results := Function.update hall.results channel
        (hall.results channel ++ [handled.result]) }
  | .elsewhere change => { hall with book := change hall.book }

def run (hall : Hall ι) (events : List (Event ι)) : Hall ι := events.foldl step hall

theorem channels_line (hall : Hall ι) (i : ι) (text source : String) (trusted : Bool) :
    (hall.step (.line i text source trusted)).channels i
      = ((hall.channels i).handleLine text source trusted hall.book).channel :=
  Function.update_self ..

theorem channels_line_of_ne (hall : Hall ι) {i other : ι} (hne : i ≠ other)
    (text source : String) (trusted : Bool) :
    (hall.step (.line other text source trusted)).channels i = hall.channels i :=
  Function.update_of_ne hne ..

theorem results_line (hall : Hall ι) (i : ι) (text source : String) (trusted : Bool) :
    (hall.step (.line i text source trusted)).results i
      = hall.results i ++ [((hall.channels i).handleLine text source trusted hall.book).result] :=
  Function.update_self ..

/-- What comes in on one channel adds nothing to the results of another one. -/
theorem results_line_of_ne (hall : Hall ι) {i other : ι} (hne : i ≠ other)
    (text source : String) (trusted : Bool) :
    (hall.step (.line other text source trusted)).results i = hall.results i :=
  Function.update_of_ne hne ..

end Hall

/-- An event on any channel keeps every channel beside its own lonely run. -/
theorem Hall.Ordered.step (h : hall.Ordered numbers refuses) (event : Event ι) :
    (hall.step event).Ordered numbers refuses := by
  intro j
  cases event with
  | elsewhere change => exact h j
  | line channel text source trusted =>
    by_cases hj : j = channel
    · subst hj
      obtain ⟨-, hallOn⟩ := Channel.tells_handleLine (h j) text source trusted hall.book
      rw [Hall.channels_line]
      exact hallOn
    · rw [Hall.channels_line_of_ne hall hj]
      exact h j

/-- **One event in both runs.** A line for this channel is a line in both, and of all else the
recorder hears nothing. -/
theorem Beside.step (hnumbers : Function.Injective numbers) (hblind : Blind (refuses i))
    (hordered : hall.Ordered numbers refuses)
    (h : Beside (numbers i) (refuses i) before i pairs p hall) {event : Event ι}
    (hspares : ∀ change, event = .elsewhere change → Spares (numbers i) change) :
    ∃ more, Beside (numbers i) (refuses i) before i (pairs ++ more) (p.run (turnsOf i [event]))
      (hall.step event) := by
  cases event with
  | elsewhere change =>
    refine ⟨[], ?_⟩
    rw [List.append_nil]
    exact ⟨h.twin, h.book.congr rfl (hspares change rfl hall.book), h.results⟩
  | line channel text source trusted =>
    by_cases hchannel : channel = i
    · subst hchannel
      obtain ⟨more, hresult, htwin, hbook⟩ :=
        h.twin.handleLine hblind h.book text source trusted
      have hturns : turnsOf channel [.line channel text source trusted]
          = [.line text source trusted] := by simp [turnsOf, Event.turn?]
      rw [hturns]
      refine ⟨more, ?_, hbook, ?_⟩
      · rw [Hall.channels_line]
        exact htwin
      · rw [Hall.results_line, ← h.results, ← hresult]
        rfl
      -- A line on another channel tells only the sink of that one, which this one does not see.
    · have hne : i ≠ channel := fun heq => hchannel heq.symm
      have hturns : turnsOf i [.line channel text source trusted] = [] := by
        simp [turnsOf, Event.turn?, hchannel]
      obtain ⟨⟨calls, htells⟩, -⟩ :=
        Channel.tells_handleLine (hordered channel) text source trusted hall.book
      have hother : ∀ reached ∈ [Sink.recorder (numbers channel) (refuses channel)],
          reached.id ≠ numbers i := by
        intro reached hreached
        rw [List.mem_singleton.mp hreached]
        exact fun heq => hchannel (hnumbers heq)
      have hquiet := htells.addsFrom.entriesOn hother
      rw [hturns]
      refine ⟨[], ?_, ?_, ?_⟩
      · rw [List.append_nil, Hall.channels_line_of_ne hall hne]
        exact h.twin
      · rw [List.append_nil]
        exact h.book.congr rfl hquiet
      · rw [Hall.results_line_of_ne hall hne]
        exact h.results

theorem run_turnsOf_cons (p : Progress) (i : ι) (event : Event ι) (events : List (Event ι)) :
    p.run (turnsOf i (event :: events)) = (p.run (turnsOf i [event])).run (turnsOf i events) := by
  rw [Progress.run, Progress.run, Progress.run, ← List.foldl_append, turnsOf, turnsOf, turnsOf,
    ← List.filterMap_append]
  rfl

/-- **Both runs, at every moment.** The pairs of a moment stay to the end. -/
theorem beside_run (hnumbers : Function.Injective numbers) (hblind : Blind (refuses i))
    (hordered : hall.Ordered numbers refuses)
    (h : Beside (numbers i) (refuses i) before i pairs p hall) {events : List (Event ι)}
    (hspares : ∀ change, .elsewhere change ∈ events → Spares (numbers i) change) :
    ∃ all, pairs ⊆ all
      ∧ Beside (numbers i) (refuses i) before i all (p.run (turnsOf i events)) (hall.run events)
      ∧ ∀ moment, moment <+: events → ∃ known, known ⊆ all
        ∧ Beside (numbers i) (refuses i) before i known (p.run (turnsOf i moment))
          (hall.run moment) := by
  induction events generalizing p hall pairs with
  | nil =>
    refine ⟨pairs, List.Subset.refl _, h, fun moment hmoment => ?_⟩
    rw [List.prefix_nil.mp hmoment]
    exact ⟨pairs, List.Subset.refl _, h⟩
  | cons event events ih =>
    obtain ⟨more, hstep⟩ := h.step hnumbers hblind hordered fun change hchange =>
      hspares change (hchange ▸ List.mem_cons_self)
    obtain ⟨all, hall', hend, hmoments⟩ := ih (hordered.step event) hstep
      fun change hchange => hspares change (List.mem_cons_of_mem _ hchange)
    have hpairs : pairs ⊆ all := List.Subset.trans (List.subset_append_left pairs more) hall'
    refine ⟨all, hpairs, ?_, fun moment hmoment => ?_⟩
    · rw [run_turnsOf_cons]
      exact hend
    · rcases List.prefix_cons_iff.mp hmoment with rfl | ⟨rest, rfl, hrest⟩
      · exact ⟨pairs, hpairs, h⟩
      · obtain ⟨known, hknown, hbeside⟩ := hmoments rest hrest
        refine ⟨known, hknown, ?_⟩
        rw [run_turnsOf_cons]
        exact hbeside

/-! ## Numbers that are used up -/

theorem isHeard_of_mem_turnsOf {events : List (Event ι)} {turn : Turn}
    (h : turn ∈ turnsOf i events) : turn.isHeard = true := by
  obtain ⟨event, -, hturn⟩ := List.mem_filterMap.mp h
  cases event with
  | elsewhere change => simp [Event.turn?] at hturn
  | line channel text source trusted =>
    rw [Event.turn?, Option.ite_none_right_eq_some, Option.some.injEq] at hturn
    rw [← hturn.2]
    rfl

/-- A channel that is alone makes its calls on its own sink, and numbers are given to its starts. -/
theorem Progress.draws_run (p : Progress) {sink : Sink} (h : p.channel.AllOn sink)
    {turns : List Turn}
    (hheard : ∀ turn ∈ turns, turn.isHeard = true) :
    AddsFrom sink p.book (p.run turns).book ∧ Draws p.book (p.run turns).book := by
  induction turns generalizing p with
  | nil => exact ⟨addsFrom_refl sink p.book, draws_refl p.book⟩
  | cons turn turns ih =>
    obtain ⟨hturn, hturns⟩ := List.forall_mem_cons.mp hheard
    cases turn with
    | line text source trusted =>
      obtain ⟨⟨calls, htells⟩, hallOn⟩ := Channel.tells_handleLine h text source trusted p.book
      obtain ⟨hadds, hdraws⟩ := ih (p.step (.line text source trusted)) hallOn hturns
      exact ⟨htells.addsFrom.trans hadds,
        (p.channel.draws_handleLine text source trusted p.book).trans hdraws⟩
    | message said trusted =>
      obtain ⟨⟨calls, htells⟩, hallOn⟩ := Channel.tells_handle h said trusted p.book
      obtain ⟨hadds, hdraws⟩ := ih (p.step (.message said trusted)) hallOn hturns
      exact ⟨htells.addsFrom.trans hadds,
        (p.channel.draws_handle said trusted p.book).trans hdraws⟩
    | elsewhere change => simp [Turn.isHeard] at hturn

/-- Of what happens among channels, only starts use up numbers, if elsewhere it is so. -/
theorem Hall.draws_run (hall : Hall ι) {events : List (Event ι)}
    (hdraws : ∀ change, .elsewhere change ∈ events → ∀ book, Draws book (change book)) :
    Draws hall.book (hall.run events).book := by
  induction events generalizing hall with
  | nil => exact draws_refl hall.book
  | cons event events ih =>
    have hrest := ih (hall.step event) fun change hchange =>
      hdraws change (List.mem_cons_of_mem _ hchange)
    cases event with
    | line channel text source trusted =>
      exact ((hall.channels channel).draws_handleLine text source trusted hall.book).trans hrest
    | elsewhere change => exact (hdraws change List.mem_cons_self hall.book).trans hrest

/-! ## Channels apart -/

/--
**Channels do not interfere.**

Any number of channels, each with everything on a recorder of its own, share one book. Lines reach
them in any order, and in between the rest of the program does what it likes, as long as their
recorders hear nothing of it. At every moment one sees of each channel the same as when only its own
lines have been handled, but for the numbers of its activities. Each start has a number in the one run
and one in the other, and whatever is seen of its activity has the one here and the other there. If no
number was given out twice, this is one injective renaming, from the first moment to the last. And
none was, if the rest of the program uses up numbers by starts only, and there are no more than 2³² of
them in all.
-/
theorem apart (parents : ι → UInt64) (hnumbers : Function.Injective numbers)
    (hblind : ∀ i, Blind (refuses i)) {events : List (Event ι)}
    (hspares : ∀ change, .elsewhere change ∈ events → ∀ i, Spares (numbers i) change)
    (book : Logbook) (i : ι) :
    let start : Progress :=
      { channel := .pinned (parents i) (.recorder (numbers i) (refuses i)), book }
    let alone moment := (start.run (turnsOf i moment)).view (numbers i) book
    let beside moment :=
      ((Hall.opened parents numbers refuses book).run moment).view i (numbers i) book
    (∀ moment, moment <+: events → (beside moment).unnumbered = (alone moment).unnumbered)
      ∧ (∃ pairs : List (UInt64 × UInt64),
        pairs.map Prod.fst = (alone events).started ∧ pairs.map Prod.snd = (beside events).started
          ∧ ∀ moment, moment <+: events → (alone moment).Paired pairs (beside moment))
      ∧ ((alone events).started.Nodup → (beside events).started.Nodup →
        ∃ f : UInt64 → UInt64, Function.Injective f
          ∧ ∀ moment, moment <+: events → beside moment = (alone moment).renumbered f)
      ∧ ((∀ change, .elsewhere change ∈ events → ∀ book, Draws book (change book)) →
        book.issued.toNat + (((Hall.opened parents numbers refuses book).run events).startedSince
          book).length ≤ 2 ^ 32 →
        (alone events).started.Nodup ∧ (beside events).started.Nodup) := by
  intro start alone beside
  have hordered : (Hall.opened parents numbers refuses book).Ordered numbers refuses :=
    fun j => Channel.allOn_pinned _ _
  have hstart : Beside (numbers i) (refuses i) book i [] start
      (Hall.opened parents numbers refuses book) :=
    ⟨⟨Channel.allOn_pinned _ _, Channel.allOn_pinned _ _, rfl, .nil⟩, mirrored_refl _ book, rfl⟩
  obtain ⟨all, -, hend, hmoments⟩ := beside_run hnumbers (hblind i) hordered hstart
    fun change hchange => hspares change hchange i
  have hfirst : all.map Prod.fst = (alone events).started := hend.book.firstStarts.symm
  have hsecond : all.map Prod.snd = (beside events).started := hend.book.secondStarts.symm
  -- One pairing serves the whole run: the pairs known at a moment are among those of its end.
  have hpaired : ∀ moment, moment <+: events → (alone moment).Paired all (beside moment) := by
    intro moment hmoment
    obtain ⟨known, hknown, hbeside⟩ := hmoments moment hmoment
    exact hbeside.view.mono hknown
  refine ⟨fun moment hmoment => (hpaired moment hmoment).unnumbered_eq.symm,
    ⟨all, hfirst, hsecond, hpaired⟩, fun honce honce' => ?_, fun hdraws hfew => ?_⟩
  · obtain ⟨f, hf, hpairs⟩ := exists_renaming (hfirst ▸ honce) (hsecond ▸ honce')
    exact ⟨f, hf, fun moment hmoment => ((hpaired moment hmoment).eq_renumbered hpairs).symm⟩
  · have hturns : ∀ turn ∈ turnsOf i events, turn.isHeard = true := fun _ => isHeard_of_mem_turnsOf
    obtain ⟨hadds, halone⟩ := start.draws_run (Channel.allOn_pinned _ _) hturns
    exact hend.nodup_started hadds halone (Hall.draws_run _ hdraws) hfew

end Hall

/-- Two channels on the recorders `1` and `2`. -/
def recorderOf (left : Bool) : Nat := if left then 1 else 2

/-- Both other programs have an activity `7`, and a third activity is started in between. -/
def neighbours : List (Event Bool) :=
  [.line true (Wire.Record.start 7 .info .build "left" 0 []).line "left" true,
    .elsewhere fun book =>
      (Activity.start (.foreign 3 false fun _ _ => .ok ()) .info .build "unrelated" [] 0 book).2,
    .line false (Wire.Record.start 7 .info .fileTransfer "right" 0 []).line "right" false,
    .line true (Wire.Record.stop 7).line "left" true,
    .line false "@nix x" "right" false]

theorem apart_neighbours :
    let start : Progress := { channel := .pinned 600 (.recorder 2 fun _ _ => false), book := {} }
    let alone := (start.run (turnsOf false neighbours)).view 2 {}
    let beside := ((Hall.opened (fun left => if left then 500 else 600) recorderOf
      (fun _ _ _ => false) {}).run neighbours).view false 2 {}
    beside.unnumbered = alone.unnumbered
      ∧ alone.started = [0x100000000] ∧ beside.started = [0x100000002]
      ∧ ∃ f : UInt64 → UInt64, Function.Injective f ∧ beside = alone.renumbered f := by
  intro start alone beside
  have hspares : ∀ change, .elsewhere change ∈ neighbours → ∀ i, Spares (recorderOf i) change := by
    intro change hchange i
    simp only [neighbours, List.mem_cons, Event.elsewhere.injEq, reduceCtorEq, false_or,
      or_false, List.not_mem_nil] at hchange
    rw [hchange]
    refine spares_start ?_ .info .build "unrelated" [] 0
    cases i <;> simp [Sink.behinds, Sink.id, recorderOf]
  have hnumbers : Function.Injective recorderOf := by
    intro left right
    cases left <;> cases right <;> simp [recorderOf]
  have hblind : ∀ left : Bool, Blind ((fun _ _ _ => false : Bool → Nat → Call → Bool) left) :=
    fun _ _ _ _ => rfl
  have hdraws : ∀ change, .elsewhere change ∈ neighbours → ∀ book, Draws book (change book) := by
    intro change hchange book
    simp only [neighbours, List.mem_cons, Event.elsewhere.injEq, reduceCtorEq, false_or,
      or_false, List.not_mem_nil] at hchange
    rw [hchange]
    exact Activity.draws_start _ _ _ _ _ _ book
  obtain ⟨hsame, -, hrenamed, hfew⟩ :=
    apart (fun left => if left then 500 else 600) hnumbers hblind hspares {} false
  have halone : alone.started = [0x100000000] := by decide +kernel
  obtain ⟨hbeside, hall⟩ : beside.started = [0x100000002]
      ∧ (((Hall.opened (fun left => if left then 500 else 600) recorderOf (fun _ _ _ => false)
        {}).run neighbours).startedSince {}).length = 3 := by decide +kernel
  obtain ⟨honce, honce'⟩ := hfew hdraws (by rw [hall]; decide)
  obtain ⟨f, hf, hmoments⟩ := hrenamed honce honce'
  exact ⟨hsame _ (List.prefix_refl _), halone, hbeside, f, hf, hmoments _ (List.prefix_refl _)⟩

end Worklog
