import Worklog.Proofs.Lifecycle.Handles
import Worklog.Script.Session

/-!
# The handles of a session

A session holds the handles of its named activities and those that its channels hold.

* `goes_perform` — what a command does to the handles.
* `stops_of_letsGo` — whoever lets go of a handle, stops its activity.
-/

namespace Worklog.Script

open Logbook

namespace Session

/-! ## Handles -/

/-- The handles of the named activities. -/
def namedHandles (activities : List (String × Activity)) : Multiset Activity :=
  activities.map Prod.snd

/-- The handles that the channels hold. -/
def channelHandles (channels : List (String × Channel)) : Multiset Activity :=
  channels.flatMap fun entry => entry.2.running.map Prod.snd

/-- All handles that are there. -/
def handles (session : Session) : Multiset Activity :=
  channelHandles session.channels + namedHandles session.activities

/-- No name stands for two things. -/
structure Tidy (session : Session) : Prop where
  activities : (session.activities.map Prod.fst).Nodup
  channels : (session.channels.map Prod.fst).Nodup
  registries : ∀ entry ∈ session.channels, entry.2.Tidy

variable {session after : Session} {name : String} {activity : Activity} {channel : Channel}
variable {activities : List (String × Activity)} {channels : List (String × Channel)}

/-- A name that is given again is in the table once. -/
theorem nodup_withEntry {α : Type} {table : List (String × α)}
    (honce : (table.map Prod.fst).Nodup) (name : String) (value : α) :
    ((withEntry name value table).map Prod.fst).Nodup := by
  refine List.nodup_cons.mpr ⟨fun hmem => ?_, nodup_filter_ne honce name⟩
  obtain ⟨entry, hentry, hname⟩ := List.mem_map.mp hmem
  simpa [hname] using (List.mem_filter.mp hentry).2

/-- The handle of a named activity, and all others. -/
theorem Tidy.handles_of_named (h : session.Tidy)
    (hfind : session.activities.lookup name = some activity) :
    session.handles = activity ::ₘ
      (channelHandles session.channels + namedHandles (without name session.activities)) := by
  have hnamed : namedHandles session.activities
      = activity ::ₘ namedHandles (without name session.activities) :=
    Multiset.coe_eq_coe.mpr ((perm_of_lookup h.activities hfind).map Prod.snd)
  rw [handles, hnamed, Multiset.add_cons]

/-- The handles of one channel, and all others. -/
theorem Tidy.handles_of_opened (h : session.Tidy)
    (hfind : session.channels.lookup name = some channel) :
    session.handles = channel.handles
      + (channelHandles (without name session.channels) + namedHandles session.activities) := by
  have hopened : channelHandles session.channels
      = channel.handles + channelHandles (without name session.channels) :=
    Multiset.coe_eq_coe.mpr ((perm_of_lookup h.channels hfind).flatMap_right _)
  rw [handles, hopened, Multiset.add_assoc]

/-- A name that is not there need not be taken away. -/
theorem without_of_lookup_eq_none {α : Type} {table : List (String × α)}
    (hfind : table.lookup name = none) : without name table = table :=
  filter_ne_of_lookup_eq_none hfind

/-! ## What a session does -/

/-- From one session to another, handles did only what they can do, and names stay clear. -/
structure Goes (before after : Session) : Prop where
  leads : Leads before.handles before.book after.handles after.book
  tidy : after.Tidy

/-- A step that handles have no part in. -/
theorem Tidy.goes_of_quiet (h : session.Tidy) (hactivities : after.activities = session.activities)
    (hchannels : after.channels = session.channels)
    (hbook : ∀ held, Leads held session.book held after.book) : Goes session after := by
  have hhandles : after.handles = session.handles := by
    rw [handles, handles, hactivities, hchannels]
  refine ⟨?_, ?_, ?_, ?_⟩
  · rw [hhandles]
    exact hbook session.handles
  · rw [hactivities]
    exact h.activities
  · rw [hchannels]
    exact h.channels
  · rw [hchannels]
    exact h.registries

theorem Tidy.goes_self (h : session.Tidy) : Goes session session :=
  h.goes_of_quiet rfl rfl fun held => leads_refl held _

/-! ## Activities -/

/-- A start gives the name a new handle, after a stop of the one that had it. -/
theorem goes_startActivity (h : session.Tidy) (name : String) (start : Start) :
    Goes session (session.startActivity name start).2 := by
  simp only [startActivity]
  split
  next => exact h.goes_self
  next plan hplan =>
    split
    next failure book hstart =>
      exact ⟨Activity.leads_start_error hstart session.handles,
        h.activities, h.channels, h.registries⟩
    next activity book hstart =>
      have hstarted := Activity.leads_start_ok hstart session.handles
      refine ⟨?_, nodup_withEntry h.activities name activity, h.channels, h.registries⟩
      show Leads session.handles session.book
        (channelHandles session.channels
          + (activity ::ₘ namedHandles (without name session.activities))) _
      rw [Multiset.add_cons]
      cases hold : session.activities.lookup name with
      | none =>
        rw [without_of_lookup_eq_none hold]
        exact hstarted
      | some old =>
        -- Both handles are there until the old one has told its stop.
        refine hstarted.trans ?_
        rw [h.handles_of_named hold, Multiset.cons_swap]
        exact old.leads_stop _ _

/-- A handle that is stopped, in person or on the way out of a failure, leaves its name. -/
theorem goes_stopActivity (h : session.Tidy) (name : String) (answer : Answer) :
    Goes session (session.stopActivity name answer).2 := by
  simp only [stopActivity]
  split
  next => exact h.goes_self
  next activity hfind =>
    refine ⟨?_, nodup_filter_ne h.activities name, h.channels, h.registries⟩
    show Leads session.handles session.book
      (channelHandles session.channels + namedHandles (without name session.activities)) _
    rw [h.handles_of_named hfind]
    exact activity.leads_stop _ _

theorem goes_updateActivity (h : session.Tidy) (name : String) (kind : UpdateKind)
    (fields : List Field) : Goes session (session.updateActivity name kind fields).2 := by
  simp only [updateActivity]
  split
  next => exact h.goes_self
  next activity hfind =>
    have hmem : activity ∈ session.handles := by
      rw [h.handles_of_named hfind]
      exact Multiset.mem_cons_self _ _
    exact ⟨Activity.leads_update hmem kind fields session.book,
      h.activities, h.channels, h.registries⟩

/-! ## Channels -/

theorem Tidy.registry (h : session.Tidy) (hfind : session.channels.lookup name = some channel) :
    channel.Tidy := by
  obtain ⟨older, newer, htable, -⟩ := List.lookup_eq_some_iff.mp hfind
  exact h.registries (name, channel) (by simp [htable])

/-- A tidy registry in place of another one leaves all of them tidy. -/
theorem Tidy.registries_withEntry (h : session.Tidy) (hchannel : channel.Tidy) (name : String) :
    ∀ entry ∈ withEntry name channel session.channels, entry.2.Tidy := by
  intro entry hentry
  rcases List.mem_cons.mp hentry with rfl | hentry
  · exact hchannel
  · exact h.registries entry (List.mem_of_mem_filter hentry)

/-- A channel does something or makes room for another one, and the other handles stay where they
are. -/
theorem Tidy.goes_of_channel (h : session.Tidy)
    (hfind : session.channels.lookup name = some channel) {channel' : Channel} {book : Logbook}
    (hleads : Leads channel.handles session.book channel'.handles book) (htidy : channel'.Tidy) :
    Goes session
      { session with book, channels := withEntry name channel' session.channels } := by
  refine ⟨?_, h.activities, nodup_withEntry h.channels name channel',
    h.registries_withEntry htidy name⟩
  show Leads session.handles session.book
    (channel'.handles + channelHandles (without name session.channels)
      + namedHandles session.activities) book
  rw [h.handles_of_opened hfind, Multiset.add_assoc]
  exact hleads.frame _

/-- A channel that is opened starts with nothing, and the one that had its name is closed. -/
theorem goes_openChannel (h : session.Tidy) (name : String) {channel : Channel}
    (hempty : channel.running = []) : Goes session (session.openChannel name channel).2 := by
  have hnone : channel.handles = 0 := by
    rw [Channel.handles, hempty]
    rfl
  have htidy : channel.Tidy := by
    rw [Channel.Tidy, hempty]
    exact List.nodup_nil
  simp only [openChannel]
  cases hold : session.channels.lookup name with
  | none =>
    refine ⟨?_, h.activities, nodup_withEntry h.channels name channel,
      h.registries_withEntry htidy name⟩
    show Leads session.handles session.book
      (channel.handles + channelHandles (without name session.channels)
        + namedHandles session.activities) session.book
    rw [without_of_lookup_eq_none hold, hnone, Multiset.zero_add]
    exact leads_refl _ _
  | some old =>
    refine h.goes_of_channel hold ?_ htidy
    rw [hnone]
    exact old.leads_close session.book

/-- All handles in the registry of a channel are stopped as it is closed. -/
theorem goes_closeChannel (h : session.Tidy)
    (hfind : session.channels.lookup name = some channel) :
    Goes session { session with
      book := channel.close session.book
      channels := without name session.channels } := by
  refine ⟨?_, h.activities, nodup_filter_ne h.channels name, fun entry hentry =>
    h.registries entry (List.mem_of_mem_filter hentry)⟩
  show Leads session.handles session.book
    (channelHandles (without name session.channels) + namedHandles session.activities) _
  rw [h.handles_of_opened hfind]
  have hclosed := (channel.leads_close session.book).frame
    (channelHandles (without name session.channels) + namedHandles session.activities)
  rw [Multiset.zero_add] at hclosed
  exact hclosed

/-- The handles in a registry change as the line says. -/
theorem goes_feedLine (h : session.Tidy) (name line source : String) (trusted : Bool) :
    Goes session (session.feedLine name line source trusted).2 := by
  simp only [feedLine]
  split
  next => exact h.goes_self
  next channel hfind =>
    obtain ⟨hleads, htidy⟩ :=
      Channel.leads_handleLine (h.registry hfind) line source trusted session.book
    exact h.goes_of_channel hfind hleads htidy

theorem goes_feedMessage (h : session.Tidy) (name line : String) (trusted : Bool) :
    Goes session (session.feedMessage name line trusted).2 := by
  simp only [feedMessage]
  split
  next => exact h.goes_self
  next channel hfind =>
    split
    next => exact h.goes_self
    next => exact h.goes_self
    next message hmessage =>
      obtain ⟨hleads, htidy⟩ :=
        Channel.leads_handle (h.registry hfind) message trusted session.book
      exact h.goes_of_channel hfind hleads htidy

/-- Lines in a row do to the handles what each of them does. -/
theorem leads_feedLines (h : channel.Tidy) (source : String) (trusted : Bool)
    (lines : List String) (book : Logbook) :
    Leads channel.handles book (feedLines channel source trusted lines book).2.1.handles
        (feedLines channel source trusted lines book).2.2
      ∧ (feedLines channel source trusted lines book).2.1.Tidy := by
  induction lines generalizing channel book with
  | nil => exact ⟨leads_refl _ _, h⟩
  | cons line lines ih =>
    obtain ⟨hfirst, htidy⟩ := Channel.leads_handleLine h line source trusted book
    obtain ⟨hothers, htidy'⟩ := ih htidy _
    exact ⟨hfirst.trans hothers, htidy'⟩

theorem goes_pump (h : session.Tidy) (sink name source : String) (trusted : Bool) :
    Goes session (session.pump sink name source trusted).2 := by
  simp only [pump]
  split
  next fed channel hsink hfind =>
    obtain ⟨hleads, htidy⟩ := leads_feedLines (h.registry hfind) source trusted
      (session.messagesOn fed .error) session.book
    exact h.goes_of_channel hfind hleads htidy
  next => exact h.goes_self

/-! ## Commands -/

theorem goes_makeSink (h : session.Tidy) (name : String) (plan : SinkPlan) :
    Goes session (session.makeSink name plan).2 := by
  simp only [makeSink]
  split
  next => exact h.goes_self
  next => exact h.goes_of_quiet rfl rfl fun held => leads_refl held _

/-- What is said to a sink directly is about no handle. -/
theorem goes_call (h : session.Tidy) (sink : Option String) (call : Option Call) :
    Goes session (session.call sink call).2 := by
  simp only [Session.call]
  split
  next => exact h.goes_of_quiet rfl rfl fun held => leads_emit (by decide) held _ _ _
  next => exact h.goes_self

theorem goes_print (h : session.Tidy) (style : Style) (text : String) :
    Goes session { session with book := (session.book.print style text).2 } := by
  refine h.goes_of_quiet rfl rfl fun held => ?_
  unfold Logbook.print
  split
  next => exact leads_emit (by decide) held _ _ _
  next => exact leads_refl held _

theorem goes_ask (h : session.Tidy) (name : String) (answer : Activity → String) :
    Goes session (session.ask name answer).2 := by
  simp only [ask]
  split
  next => exact h.goes_self
  next => exact h.goes_self

theorem goes_release (h : session.Tidy) (name : String) :
    Goes session (session.release name).2 := by
  simp only [release]
  split
  next => exact h.goes_self
  next => exact h.goes_of_quiet rfl rfl fun held => leads_refl held _

/-- **A command does with handles what handles can do.** -/
theorem goes_perform (h : session.Tidy) (command : Command) :
    Goes session (session.perform command).2 := by
  have hquiet : ∀ after : Session, after.activities = session.activities →
      after.channels = session.channels → after.book.entries = session.book.entries →
      Goes session after := by
    intro after hactivities hchannels hentries
    refine h.goes_of_quiet hactivities hchannels fun held => ⟨[], ?_, .nil held⟩
    rw [hentries, List.append_nil]
  cases command with
  | makeSink name plan => exact goes_makeSink h name plan
  | setThreshold level => exact hquiet _ rfl rfl rfl
  | install name =>
    simp only [perform]
    split
    next => exact h.goes_self
    next sink hsink =>
      exact h.goes_of_quiet rfl rfl fun held => leads_note held _ .sinkReplaced
  | showActive => exact h.goes_self
  | call sink call => exact goes_call h sink (some call)
  | startCall sink id level kind text fields parent => exact goes_call h sink _
  | stopCall sink id => exact goes_call h sink _
  | updateCall sink id kind fields => exact goes_call h sink _
  | isVerbose sink =>
    simp only [perform]
    split
    next => exact h.goes_self
    next => exact h.goes_self
  | printOutput sink text =>
    simp only [perform]
    split
    next => exact h.goes_self
    next => exact h.goes_self
  | print style text => exact goes_print h style text
  | messages sink level =>
    simp only [perform]
    split
    next => exact h.goes_self
    next => exact h.goes_self
  | parentOf sink id =>
    simp only [perform]
    split
    next => exact h.goes_self
    next => exact h.goes_self
  | nextId => exact hquiet _ rfl rfl rfl
  | start name start => exact goes_startActivity h name start
  | stop name => exact goes_stopActivity h name _
  | unwind name => exact goes_stopActivity h name _
  | describe name => exact goes_ask h name _
  | sinkOf name => exact goes_ask h name _
  | update name kind fields => exact goes_updateActivity h name kind fields
  | current => exact h.goes_self
  | setCurrent id =>
    simp only [perform]
    split
    next => exact h.goes_self
    next => exact hquiet _ rfl rfl rfl
  | push name id =>
    simp only [perform]
    split
    next => exact h.goes_self
    next => exact hquiet _ rfl rfl rfl
  | release name => exact goes_release h name
  | openUnder name activity place =>
    simp only [perform]
    split
    next => exact h.goes_self
    next => exact goes_openChannel h name rfl
  | openPinned name parent sink place =>
    simp only [perform]
    split
    next => exact goes_openChannel h name rfl
    next => exact h.goes_self
  | line name line source trusted => exact goes_feedLine h name line source trusted
  | message name line trusted => exact goes_feedMessage h name line trusted
  | pump sink name source trusted => exact goes_pump h sink name source trusted
  | inspect name remotes =>
    simp only [perform]
    split
    next => exact h.goes_self
    next => exact h.goes_self
  | close name =>
    simp only [perform]
    split
    next => exact h.goes_self
    next channel hfind => exact goes_closeChannel h hfind

/-! ## Letting go -/

/-- A command lets go of a handle. -/
inductive LetsGo (session : Session) : Command → Activity → Prop where
  | dropped {name : String} {activity : Activity}
      (named : session.activities.lookup name = some activity) :
      LetsGo session (.stop name) activity
  | unwound {name : String} {activity : Activity}
      (named : session.activities.lookup name = some activity) :
      LetsGo session (.unwind name) activity
  /-- Its name is given to another activity, which has started. -/
  | replaced {name : String} {start : Start} {plan : Plan} {activity other : Activity}
      (named : session.activities.lookup name = some activity)
      (planned : session.planOf start = some plan)
      (started : (Activity.ofPlan plan session.context session.book).1 = .ok other) :
      LetsGo session (.start name start) activity
  /-- The other program stops it, in a line or in a message. -/
  | line {name line source : String} {trusted : Bool} {channel : Channel} {remote : UInt64}
      {activity : Activity} (opened : session.channels.lookup name = some channel)
      (heard : Channel.heard? line = some (.stop remote))
      (running : channel.find remote = some activity) :
      LetsGo session (.line name line source trusted) activity
  | message {name line : String} {trusted : Bool} {channel : Channel} {remote : UInt64}
      {activity : Activity} (opened : session.channels.lookup name = some channel)
      (read : Wire.Message.ofLine? line = some (.ok (.stop remote)))
      (running : channel.find remote = some activity) :
      LetsGo session (.message name line trusted) activity
  | closed {name : String} {channel : Channel} {activity : Activity}
      (opened : session.channels.lookup name = some channel) (held : activity ∈ channel.handles) :
      LetsGo session (.close name) activity

/-- **Whoever lets go of a handle, stops its activity.** -/
theorem stops_of_letsGo {command : Command} (h : session.LetsGo command activity) :
    Stops activity session.book (session.perform command).2.book := by
  cases h with
  | dropped named =>
    simp only [perform, stopActivity, named]
    exact activity.stops_stop session.book
  | unwound named =>
    simp only [perform, stopActivity, named]
    exact activity.stops_stop session.book
  | @replaced name start plan _ other named planned started =>
    simp only [perform, startActivity, planned]
    split
    next failure book hstart =>
      rw [hstart] at started
      cases started
    next new book hstart =>
      simp only [named]
      exact (Activity.leads_start_ok hstart 0).then_stops (activity.stops_stop book)
  | line opened heard running =>
    simp only [perform, feedLine, opened, Channel.handleLine_of_heard heard, Channel.handle, running]
    exact activity.stops_stop session.book
  | message opened read running =>
    simp only [perform, feedMessage, opened, read, Channel.handle, running]
    exact activity.stops_stop session.book
  | @closed _ channel _ opened held =>
    simp only [perform, opened]
    exact (channel.leads_close session.book).stops held (Multiset.notMem_zero _)

end Session

end Worklog.Script
