import Worklog.Proofs.Channel.Registry
import Worklog.Proofs.Lifecycle.Ledger

/-!
# The handles of a channel

A channel holds the handles in its registry, and a message does at most one thing with them.

* `leads_handle`, `leads_handleLine` — what messages and lines do to the handles.
* `leads_close` — at its end a channel has no handles left.
-/

namespace Worklog

/-! ## Books -/

namespace Logbook

/-- From one book to the next, these calls of handles are made, and these handles come and go. -/
def Leads (held : Multiset Activity) (before : Logbook) (held' : Multiset Activity)
    (after : Logbook) : Prop :=
  ∃ added, after.entries = before.entries ++ added ∧ Acts held (didIn added) held'

variable {held held' : Multiset Activity} {a b c : Logbook}

theorem leads_refl (held : Multiset Activity) (book : Logbook) : Leads held book held book :=
  ⟨[], by simp, .nil held⟩

/-- What leads on from where another thing has led can follow it. -/
theorem Leads.trans {held'' : Multiset Activity} (h : Leads held a held' b)
    (h' : Leads held' b held'' c) : Leads held a held'' c := by
  obtain ⟨added, hentries, hacts⟩ := h
  obtain ⟨others, hothers, hacts'⟩ := h'
  refine ⟨added ++ others, ?_, ?_⟩
  · rw [hothers, hentries, List.append_assoc]
  · rw [didIn_append]
    exact hacts.trans hacts'

/-- Handles that are not touched may be held besides. -/
theorem Leads.frame (h : Leads held a held' b) (rest : Multiset Activity) :
    Leads (held + rest) a (held' + rest) b := by
  obtain ⟨added, hentries, hacts⟩ := h
  exact ⟨added, hentries, hacts.frame rest⟩

/-- From one book to the next, the stop of an activity comes from its handle. -/
def Stops (activity : Activity) (before after : Logbook) : Prop :=
  ∃ added, after.entries = before.entries ++ added ∧ (activity, .stop) ∈ didIn added

/-- A handle that has gone was stopped on the way. -/
theorem Leads.stops {activity : Activity} (h : Leads held a held' b) (hheld : activity ∈ held)
    (hgone : activity ∉ held') : Stops activity a b := by
  obtain ⟨added, hentries, hacts⟩ := h
  exact ⟨added, hentries, hacts.stopped_of_gone hheld hgone⟩

theorem Leads.then_stops {activity : Activity} (h : Leads held a held' b)
    (hstops : Stops activity b c) : Stops activity a c := by
  obtain ⟨added, hentries, -⟩ := h
  obtain ⟨others, hothers, hstop⟩ := hstops
  refine ⟨added ++ others, by rw [hothers, hentries, List.append_assoc], ?_⟩
  rw [didIn_append]
  exact List.mem_append_right _ hstop

/-- A note is about no handle. -/
theorem leads_note (held : Multiset Activity) (book : Logbook) (note : Note) :
    Leads held book held (book.addNote note) := ⟨_, rfl, .nil held⟩

/-- Who calls a sink without a handle does nothing to handles. -/
theorem leads_emit {issuer : Issuer} (hissuer : issuer ≠ .handle) (held : Multiset Activity)
    (sink : Sink) (call : Call) (book : Logbook) :
    Leads held book held (emit issuer sink call book).2 := by
  obtain ⟨added, hentries, htold⟩ := told_emit issuer sink call book
  refine ⟨added, hentries, ?_⟩
  rw [htold.didIn_eq_nil hissuer]
  exact .nil held

end Logbook

open Logbook

namespace Activity

theorem leads_update {activity : Activity} {held : Multiset Activity} (h : activity ∈ held)
    (kind : UpdateKind) (fields : List Field) (book : Logbook) :
    Leads held book held (activity.update kind fields book).2 := by
  obtain ⟨added, hentries, htold⟩ :=
    told_emit .handle activity.sink (.update activity.id kind fields) book
  refine ⟨added, hentries, ?_⟩
  rw [htold.didIn]
  exact (Act.updated h).acts

/-- A stop gives the handle away. -/
theorem leads_stop (activity : Activity) (held : Multiset Activity) (book : Logbook) :
    Leads (activity ::ₘ held) book held (activity.stop book) := by
  obtain ⟨added, result, hentries, htold⟩ := told_stop activity book
  refine ⟨added, hentries, ?_⟩
  rw [htold.didIn]
  exact (Act.stopped activity held).acts

theorem stops_stop (activity : Activity) (book : Logbook) :
    Stops activity book (activity.stop book) :=
  (activity.leads_stop 0 book).stops (Multiset.mem_cons_self _ _) (Multiset.notMem_zero _)

section Start

variable {sink : Sink} {level : Level} {kind : ActivityKind} {text : String}
variable {fields : List Field} {parent : UInt64} {book after : Logbook}

/-- A start that succeeds gives one more handle. -/
theorem leads_start_ok {activity : Activity}
    (h : start sink level kind text fields parent book = (.ok activity, after))
    (held : Multiset Activity) : Leads held book (activity ::ₘ held) after := by
  obtain ⟨added, hentries, htold⟩ := told_emit .handle sink
    (.start book.nextId.1 level kind text fields parent) book.nextId.2
  simp only [start] at h
  split at h
  next => cases h
  next hemit =>
    cases h
    rw [hemit] at hentries htold
    refine ⟨_, by rw [addNote_entries, hentries, List.append_assoc, nextId_entries], ?_⟩
    rw [(htold.note _).didIn]
    exact (Act.started ⟨book.nextId.1, sink⟩ held).acts

theorem leads_start_error {failure : Failure}
    (h : start sink level kind text fields parent book = (.error failure, after))
    (held : Multiset Activity) : Leads held book held after := by
  obtain ⟨added, hentries, htold⟩ := told_emit .handle sink
    (.start book.nextId.1 level kind text fields parent) book.nextId.2
  simp only [start] at h
  split at h
  next hemit =>
    cases h
    rw [hemit] at hentries htold
    refine ⟨added, hentries, ?_⟩
    rw [htold.didIn]
    exact (Act.refused ⟨book.nextId.1, sink⟩ failure held).acts
  next => cases h

end Start

end Activity

/-! ## Channels -/

namespace Channel

variable {channel after : Channel} {trusted : Bool} {book : Logbook}
variable {message? : Option Wire.Message} {remote : UInt64} {activity : Activity}
variable {added : List Entry}

/-- The handles that a channel holds. -/
def handles (channel : Channel) : Multiset Activity := channel.running.map Prod.snd

/-- The order in which a channel lets go of its handles does not matter for which these are. -/
theorem handles_eq_leaving (channel : Channel) :
    channel.handles = channel.leaving.map Prod.snd :=
  Multiset.coe_eq_coe.mpr (channel.leaving_perm.symm.map Prod.snd)

/-- No remote number is registered twice. -/
def Tidy (channel : Channel) : Prop := (channel.running.map Prod.fst).Nodup

theorem handles_started (channel : Channel) (remote : UInt64) (activity : Activity) :
    (channel.started remote activity).handles = activity ::ₘ channel.handles := by
  rw [handles, started, List.map_append]
  exact Multiset.coe_eq_coe.mpr (List.perm_append_singleton activity _)

/-- With one entry for each id, stopping it takes away one handle. -/
theorem Tidy.handles_stopped (h : channel.Tidy) (hfind : channel.find remote = some activity) :
    channel.handles = activity ::ₘ (channel.stopped remote).handles :=
  Multiset.coe_eq_coe.mpr ((perm_of_lookup h hfind).map Prod.snd)

theorem mem_handles_of_find (hfind : channel.find remote = some activity) :
    activity ∈ channel.handles := by
  obtain ⟨older, newer, hrunning, -⟩ := exists_of_find hfind
  simp [handles, hrunning]

/-- **An effect is at most one call of a handle.** -/
theorem Effect.acts (heffect : Effect channel trusted book message? after added)
    (h : channel.Tidy) : Acts channel.handles (didIn added) after.handles ∧ after.Tidy := by
  cases heffect with
  | quiet notes rejects absent =>
    have hnone : didIn added = [] := List.filterMap_eq_nil_iff.mpr fun entry hentry =>
      (entry.isPassedOn_of_isNote (notes entry hentry) .standard).did?
    rw [hnone]
    exact ⟨.nil _, h⟩
  | logged plain told =>
    rw [told.didIn]
    exact ⟨.nil _, h⟩
  | phase told =>
    rw [told.didIn]
    exact ⟨.nil _, h⟩
  | @updated _ _ _ activity _ _ _ running told =>
    rw [told.didIn]
    exact ⟨(Act.updated (mem_handles_of_find running)).acts, h⟩
  | failed allowed rejects told =>
    rw [told.didIn]
    exact ⟨(Act.refused ⟨_, _⟩ _ _).acts, h⟩
  | admitted admits told =>
    rw [told.didIn, handles_started]
    exact ⟨(Act.started ⟨_, _⟩ _).acts, nodup_started h admits.absent _⟩
  | stopped running told =>
    rw [told.didIn, h.handles_stopped running]
    exact ⟨(Act.stopped _ _).acts, nodup_filter_ne h _⟩

/-- A message does what it does to the handles in the registry, and keeps that tidy. -/
theorem leads_handle (h : channel.Tidy) (message : Wire.Message) (trusted : Bool)
    (book : Logbook) :
    Leads channel.handles book (channel.handle message trusted book).channel.handles
        (channel.handle message trusted book).book
      ∧ (channel.handle message trusted book).channel.Tidy := by
  obtain ⟨added, hentries, heffect⟩ := effect_handle channel message trusted book
  obtain ⟨hacts, htidy⟩ := heffect.acts h
  exact ⟨⟨added, hentries, hacts⟩, htidy⟩

theorem leads_handleLine (h : channel.Tidy) (line source : String) (trusted : Bool)
    (book : Logbook) :
    Leads channel.handles book (channel.handleLine line source trusted book).channel.handles
        (channel.handleLine line source trusted book).book
      ∧ (channel.handleLine line source trusted book).channel.Tidy := by
  obtain ⟨added, hentries, heffect⟩ := effect_handleLine channel line source trusted book
  obtain ⟨hacts, htidy⟩ := heffect.acts h
  exact ⟨⟨added, hentries, hacts⟩, htidy⟩

/-- **At its end a channel stops what it holds.** -/
theorem leads_close (channel : Channel) (book : Logbook) :
    Leads channel.handles book 0 (channel.close book) := by
  rw [channel.handles_eq_leaving]
  unfold close
  induction channel.leaving generalizing book with
  | nil => exact leads_refl _ _
  | cons entry rest ih => exact (entry.2.leads_stop _ book).trans (ih _)

end Channel

end Worklog
