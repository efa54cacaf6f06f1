import Worklog.Proofs.Channel.Registry

/-!
# The history of a channel

After any run, also one with lines that are not understood and calls that fail, the registry of a
channel is what the history of the run says. It can be read off the turns and off the calls.

* `find_run_iff` — an activity is found iff its start was admitted and no stop came since.
* `kept_run` — the registered activities are those that were started and not stopped.
* `close_eq_run` — the end of a channel is a stop for each of them.
* `history_run` — all of it together.
-/

namespace Worklog

/-! ## The registry after a run -/

namespace Turn

/-- The turn is a stop for this remote number. -/
def Stops (turn : Turn) (remote : UInt64) : Prop := turn.message? = some (.stop remote)

end Turn

namespace Progress

/-- A channel that has heard nothing yet. -/
def fresh (parent : UInt64) (phaseSink : Sink) (target : Option Sink) (book : Logbook)
    (place : UInt64 → Nat := fun _ => 0) : Progress :=
  { channel := ⟨parent, phaseSink, target, [], place⟩, book }

/-- The turn starts an activity here. -/
def Admits (p : Progress) (turn : Turn) (remote : UInt64) (activity : Activity) : Prop :=
  ∃ message ∈ turn.message?, p.channel.Admits turn.trusted p.book message remote activity

/-- A start was admitted for the number, and no stop for it came since. -/
def AdmittedSince (p : Progress) (turns : List Turn) (remote : UInt64) (activity : Activity) :
    Prop :=
  ∃ before turn after, turns = before ++ turn :: after
    ∧ (p.run before).Admits turn remote activity ∧ ∀ later ∈ after, ¬ later.Stops remote

theorem find_step_iff (p : Progress) (turn : Turn) (remote : UInt64) (activity : Activity) :
    (p.step turn).channel.find remote = some activity ↔
      p.Admits turn remote activity
        ∨ (p.channel.find remote = some activity ∧ ¬ turn.Stops remote) := by
  obtain ⟨added, -, heffect⟩ := p.effect_step turn
  exact heffect.find_iff

/-- **What is found after a run** was there before or was admitted, and was not stopped since. -/
theorem find_run_iff (p : Progress) (turns : List Turn) (remote : UInt64) (activity : Activity) :
    (p.run turns).channel.find remote = some activity ↔
      p.AdmittedSince turns remote activity
        ∨ (p.channel.find remote = some activity ∧ ∀ turn ∈ turns, ¬ turn.Stops remote) := by
  induction turns generalizing p with
  | nil => simp [AdmittedSince]
  | cons turn turns ih =>
    -- An admission in the first turn counts only if none of the other turns is a stop.
    rw [run_cons, ih, find_step_iff]
    constructor
    · rintro (⟨before, last, after, rfl, hadmits, hafter⟩ | ⟨hadmits | ⟨hfind, hstop⟩, hrest⟩)
      · exact .inl ⟨turn :: before, last, after, rfl, hadmits, hafter⟩
      · exact .inl ⟨[], turn, turns, rfl, hadmits, hrest⟩
      · exact .inr ⟨hfind, List.forall_mem_cons.mpr ⟨hstop, hrest⟩⟩
    · rintro (⟨before, last, after, hsplit, hadmits, hafter⟩ | ⟨hfind, hrest⟩)
      · rcases List.cons_eq_append_iff.mp hsplit with ⟨rfl, hlast⟩ | ⟨before', rfl, rfl⟩
        · cases hlast
          exact .inr ⟨.inl hadmits, hafter⟩
        · exact .inl ⟨before', last, after, rfl, hadmits, hafter⟩
      · obtain ⟨hstop, hrest⟩ := List.forall_mem_cons.mp hrest
        exact .inr ⟨.inr ⟨hfind, hstop⟩, hrest⟩

/-- **Runs keep the registry and the calls in agreement.** -/
theorem kept_run {p : Progress} (h : p.channel.Kept p.made) (turns : List Turn) :
    (p.run turns).channel.Kept (p.run turns).made := by
  induction turns generalizing p with
  | nil => exact h
  | cons turn turns ih =>
    obtain ⟨added, hmade, heffect⟩ := p.effect_step turn
    exact ih (hmade ▸ heffect.kept h)

theorem kept_fresh (parent : UInt64) (phaseSink : Sink) (target : Option Sink) (book : Logbook)
    (place : UInt64 → Nat) :
    (fresh parent phaseSink target book place).channel.Kept
      (fresh parent phaseSink target book place).made :=
  ⟨List.nodup_nil, List.Perm.nil⟩

theorem step_start_of_isRunning (p : Progress) {turn : Turn} {remote : UInt64} {level : Level}
    {kind : ActivityKind} {text : String} {parent : UInt64} {values : Option (List Json)}
    (hsaid : turn.message? = some (.start remote level kind text parent values))
    (h : p.channel.isRunning remote = true) :
    ∃ note, p.step turn = { p with
      book := p.book.addNote note
      results := p.results ++ [.ok true]
      made := p.made ++ [.note note] } := by
  have hnote : ∀ note : Note, Logbook.since p.book (p.book.addNote note) = [.note note] :=
    fun note => Logbook.since_eq (Logbook.addNote_entries _ _)
  cases turn with
  | line line source trusted =>
    obtain ⟨note, hnoted⟩ :=
      Channel.handle_start_of_isRunning h level kind text parent values trusted p.book
    exact ⟨note, by simp only [step, enter, Channel.handleLine_of_heard hsaid, hnoted, hnote]⟩
  | message message trusted =>
    obtain ⟨note, hnoted⟩ :=
      Channel.handle_start_of_isRunning h level kind text parent values trusted p.book
    rw [Turn.message?, Option.some.injEq] at hsaid
    exact ⟨note, by simp only [step, enter, hsaid, hnoted, hnote]⟩
  | elsewhere change => simp [Turn.message?] at hsaid

/-! ## Letting go -/

/-- The other program stops these activities. -/
def stopsFor (activities : List (UInt64 × Activity)) : List Turn :=
  activities.map fun entry => .message (.stop entry.1) false

theorem step_stop_of_find (p : Progress) {remote : UInt64} {activity : Activity}
    (h : p.channel.find remote = some activity) (trusted : Bool) :
    p.step (.message (.stop remote) trusted)
      = p.enter ⟨.ok true, p.channel.stopped remote, activity.stop p.book⟩ := by
  simp only [step, Channel.handle, h]

/-- Stops for all that is registered, in any order, leave nothing registered. -/
theorem run_stopsFor {p : Progress} (h : p.channel.Kept p.made)
    {activities : List (UInt64 × Activity)} (hall : activities.Perm p.channel.running) :
    let book := activities.foldl (fun book entry => entry.2.stop book) p.book
    ∃ results, p.run (stopsFor activities) =
      { channel := { p.channel with running := [] }, book, results
        made := p.made ++ Logbook.since p.book book } := by
  induction activities generalizing p with
  | nil =>
    obtain ⟨⟨parent, phaseSink, target, running, place⟩, book, results, made⟩ := p
    cases hall.nil_eq
    exact ⟨results, by simp [stopsFor, Logbook.since]⟩
  | cons entry rest ih =>
    obtain ⟨remote, activity⟩ := entry
    have hfind := h.find_iff.mpr (hall.mem_iff.mp List.mem_cons_self)
    obtain ⟨added, result, hentries, htold⟩ := told_stop activity p.book
    have hkept := h.stopped hfind htold
    rw [← Logbook.since_eq hentries] at hkept
    -- The first stop leaves the others in place.
    obtain ⟨older, newer, hrunning, -⟩ := Channel.exists_of_find hfind
    have hrest : rest.Perm (p.channel.stopped remote).running := by
      rw [h.running_stopped hrunning]
      rw [hrunning] at hall
      exact (hall.trans List.perm_middle).cons_inv
    obtain ⟨results, hrun⟩ := ih
      (p := p.enter ⟨.ok true, p.channel.stopped remote, activity.stop p.book⟩) hkept hrest
    obtain ⟨others, hothers, -⟩ := Channel.stops_entries rest (activity.stop p.book)
    have hsince := Logbook.since_trans hentries hothers
    refine ⟨results, ?_⟩
    rw [stopsFor, List.map_cons, run_cons, step_stop_of_find p hfind]
    refine hrun.trans ?_
    rw [List.foldl_cons, hsince, ← List.append_assoc]
    rfl

/-- **Letting go of a channel does what a stop for each registered activity does.** -/
theorem close_eq_run {p : Progress} (h : p.channel.Kept p.made) :
    p.close = { p.run (stopsFor p.channel.leaving) with results := p.results } := by
  obtain ⟨results, hrun⟩ := run_stopsFor h p.channel.leaving_perm
  rw [hrun]
  rfl

/-- Once a channel is let go of, nothing is underway. -/
theorem underway_close {p : Progress} (h : p.channel.Kept p.made) :
    underway p.close.made = [] := by
  have hclose := close_eq_run h
  have hleft : (p.run (stopsFor p.channel.leaving)).channel.running = [] :=
    (congrArg (fun q : Progress => q.channel.running) hclose).symm
  have hsame := (kept_run h (stopsFor p.channel.leaving)).same
  rw [Channel.ids, hleft] at hsame
  rw [hclose]
  exact List.map_eq_nil_iff.mp hsame.nil_eq.symm

/-! ## The whole history -/

/-- The registry after these turns is what their history says. -/
structure TellsHistory (start : Progress) (turns : List Turn) : Prop where
  /-- What is registered, and under which number of our own. -/
  found : ∀ remote activity, (start.run turns).channel.find remote = some activity ↔
    start.AdmittedSince turns remote activity
  /-- What runs is what was admitted after the last stop. -/
  runs : ∀ remote, (start.run turns).channel.isRunning remote = true ↔
    ∃ activity, start.AdmittedSince turns remote activity
  /-- Another start for a registered number is noted, and that is all. -/
  repeated : ∀ (turn : Turn) (remote : UInt64) (level : Level) (kind : ActivityKind)
    (text : String) (parent : UInt64) (values : Option (List Json)),
    turn.message? = some (.start remote level kind text parent values) →
    (start.run turns).channel.isRunning remote = true →
    ∃ note, (start.run turns).step turn = { start.run turns with
      book := (start.run turns).book.addNote note
      results := (start.run turns).results ++ [.ok true]
      made := (start.run turns).made ++ [.note note] }
  /-- If no number was given out twice, different remote activities have different numbers here. -/
  distinct : ((start.run turns).made.filterMap Entry.startId?).Nodup →
    ∀ remote activity remote' activity',
      (start.run turns).channel.find remote = some activity →
      (start.run turns).channel.find remote' = some activity' →
      remote ≠ remote' → activity.id ≠ activity'.id
  /-- The registered activities are those that were started and not stopped. -/
  same : (start.run turns).channel.ids.Perm ((underway (start.run turns).made).map Prod.fst)
  /-- At the end each of them is stopped once, in an order that only the places know, and no other
  call is made. Sinks may pass on what they are told. -/
  ending : ∃ added, (start.run turns).close.made = (start.run turns).made ++ added
    ∧ (added.filterMap Entry.stopped?).Perm
      ((start.run turns).channel.running.map fun entry => (entry.2.sink, entry.2.id))
    ∧ ∀ entry ∈ added, entry.stopped? = none →
      ∃ running ∈ (start.run turns).channel.running, entry.IsPassedOn running.2.sink
  /-- There is no order in which they cannot be stopped. -/
  anyOrder : ∀ order, order.Perm (start.run turns).channel.running →
    ∃ place, ({ (start.run turns).channel with place } : Channel).leaving = order
  /-- After the end nothing is underway. -/
  ended : underway (start.run turns).close.made = []

/--
**The registry of a channel is what its history says.**

This holds after every run of a new channel: whatever the lines and messages are, whichever of them
are trusted, whichever calls fail, and whatever the rest of the program does in between.
-/
theorem history_run (parent : UInt64) (phaseSink : Sink) (target : Option Sink) (book : Logbook)
    (place : UInt64 → Nat) (turns : List Turn) :
    (fresh parent phaseSink target book place).TellsHistory turns := by
  have hfind : ∀ remote activity,
      ((fresh parent phaseSink target book place).run turns).channel.find remote = some activity ↔
        (fresh parent phaseSink target book place).AdmittedSince turns remote activity := by
    intro remote activity
    rw [find_run_iff]
    simp [fresh, Channel.find]
  have hkept := kept_run (kept_fresh parent phaseSink target book place) turns
  refine ⟨hfind, ?_, ?_, ?_, hkept.same, ?_, fun order horder => ?_, underway_close hkept⟩
  · intro remote
    simp only [Channel.isRunning, Option.isSome_iff_exists, hfind]
  · intro turn remote level kind text origin values hsaid hrunning
    exact step_start_of_isRunning _ hsaid hrunning
  · intro hids remote activity remote' activity' hfound hfound' hne hid
    -- The registered numbers are among those that starts were made with.
    have hnodup : (Channel.ids _).Nodup :=
      hkept.same.nodup_iff.mpr (hids.sublist (underway_sublist _))
    have hentry := List.inj_on_of_nodup_map hnodup (hkept.find_iff.mp hfound)
      (hkept.find_iff.mp hfound') hid
    exact hne (congrArg Prod.fst hentry)
  · obtain ⟨added, hentries, hstops, hcalls⟩ := Channel.close_entries _ _
    refine ⟨added, by rw [close, Logbook.since_eq hentries], ?_, fun entry hentry hstopped => ?_⟩
    · rw [hstops]
      exact (Channel.leaving_perm _).map _
    · obtain ⟨running, hrunning, hpassed⟩ := hcalls entry hentry hstopped
      exact ⟨running, Channel.mem_leaving.mp hrunning, hpassed⟩
  · exact Channel.exists_leaving_eq hkept.once horder

/-- Two downloads, the second one started again while it is running. -/
def downloads : List Turn :=
  [.message (.start 1 .info .fileTransfer "first" 0 none) false,
    .message (.start 2 .info .fileTransfer "second" 0 none) false,
    .message (.start 2 .info .fileTransfer "again" 0 none) false]

theorem history_run_downloads :
    let recorder : Sink := .recorder 1 fun _ _ => false
    let p := (fresh 500 recorder none { active := recorder }).run downloads
    ∃ first second, p.channel.find 1 = some first ∧ p.channel.find 2 = some second
      ∧ first.id ≠ second.id := by
  intro recorder p
  obtain ⟨first, hfirst⟩ := Option.isSome_iff_exists.mp (by decide : (p.channel.find 1).isSome)
  obtain ⟨second, hsecond⟩ := Option.isSome_iff_exists.mp (by decide : (p.channel.find 2).isSome)
  exact ⟨first, second, hfirst, hsecond,
    (history_run 500 recorder none { active := recorder } _ downloads).distinct (by decide)
      1 _ 2 _ hfirst hsecond (by decide)⟩

end Progress

end Worklog
