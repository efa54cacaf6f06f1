import Worklog.Proofs.Channel.Effect
import Worklog.Script.Session

/-!
# Where the numbers of parents come from

The number of a parent can hide in many places before it comes up in a start: in the context of a
thread and its scopes, in a guard that has yet to be released, in a channel, in the handle of an
activity. In all of them it is a number that a start was made with before, as long as those that the
program itself gives are.

* `ParentsFirst` — in all starts, the parent was known before.
* `fosters_handleLine` — whatever a line says, a channel starts activities under its own parent.
* `Grounded.rears_perform` — a command keeps all of these places in order.
-/

namespace Worklog

/-! ## Entries -/

namespace Entry

/-- The parent that a handle names when it starts. -/
def parent? : Entry → Option UInt64
  | .call .handle _ (.start _ _ _ _ _ parent) _ => some parent
  | _ => none

/-- The number that a handle has started under. -/
def takenId? : Entry → Option UInt64
  | .call .handle _ (.start id _ _ _ _ _) (.ok ()) => some id
  | _ => none

theorem IsPassedOn.parent? {entry : Entry} {sink : Sink} (h : entry.IsPassedOn sink) :
    entry.parent? = none := by
  cases h with
  | @line issuer behind text result behinds => cases issuer <;> rfl
  | text output text => rfl
  | note note => rfl

end Entry

/-- The number stands for no activity, or for one that has started before. -/
def Known (entries : List Entry) (id : UInt64) : Prop :=
  id = 0 ∨ id ∈ entries.filterMap Entry.takenId?

instance (entries : List Entry) (id : UInt64) : Decidable (Known entries id) :=
  inferInstanceAs (Decidable (_ ∨ _))

/-- **In each start that a handle made, the parent was known before.** -/
def ParentsFirst (entries : List Entry) : Prop :=
  ∀ before entry after, entries = before ++ entry :: after →
    ∀ parent ∈ entry.parent?, Known before parent

variable {entries added : List Entry} {id : UInt64}

/-- Of what comes from a call, only the call itself names a parent. -/
theorem Told.parents {issuer : Issuer} {sink : Sink} {call : Call} {result : Except Failure Unit}
    {allowed : UInt64 → Prop} (h : Told issuer sink call result added)
    (hcall : ∀ parent ∈ (Entry.call issuer sink call result).parent?, allowed parent) :
    ∀ entry ∈ added, ∀ parent ∈ entry.parent?, allowed parent := by
  intro entry hentry parent hparent
  rcases h.isPassedOn entry hentry with rfl | hpassed
  · exact hcall parent hparent
  · rw [hpassed.parent?] at hparent
    cases hparent

/-- The number `0` stands for no activity, and is known from the beginning. -/
theorem known_zero (entries : List Entry) : Known entries 0 := .inl rfl

/-- What is known stays known. -/
theorem Known.append (h : Known entries id) (added : List Entry) :
    Known (entries ++ added) id := by
  rcases h with rfl | hmem
  · exact known_zero _
  · refine .inr ?_
    rw [List.filterMap_append]
    exact List.mem_append_left _ hmem

theorem parentsFirst_nil : ParentsFirst [] := by
  intro before entry after h
  simp at h

/-- Entries can be added as long as the parents that they name are known by then. -/
theorem ParentsFirst.append (h : ParentsFirst entries)
    (hadded : ∀ entry ∈ added, ∀ parent ∈ entry.parent?, Known entries parent) :
    ParentsFirst (entries ++ added) := by
  intro before entry after hsplit parent hparent
  rcases List.append_eq_append_iff.mp hsplit with ⟨others, rfl, rfl⟩ | ⟨others, hentries, hrest⟩
  · have hknown := hadded entry (by simp) parent hparent
    exact hknown.append others
  · cases others with
    | nil =>
      rw [List.append_nil] at hentries
      rw [List.nil_append] at hrest
      rw [← hentries]
      exact hadded entry (hrest ▸ List.mem_cons_self) parent hparent
    | cons first others =>
      obtain ⟨rfl, -⟩ := List.cons.inj hrest
      exact h before entry others hentries parent hparent

/-! ## Books -/

namespace Logbook

/-- From one book to the next, handles start only under such parents. -/
def Fosters (allowed : UInt64 → Prop) (before after : Logbook) : Prop :=
  ∃ added, after.entries = before.entries ++ added
    ∧ ∀ entry ∈ added, ∀ parent ∈ entry.parent?, allowed parent

variable {allowed : UInt64 → Prop} {a b c : Logbook}

/-- Where no entry is added, no parent is named. -/
theorem fosters_of_entries (allowed : UInt64 → Prop) (h : b.entries = a.entries) :
    Fosters allowed a b :=
  ⟨[], by rw [h, List.append_nil], by simp⟩

/-- What is allowed in both parts of a way is allowed on the whole of it. -/
theorem Fosters.trans (h : Fosters allowed a b) (h' : Fosters allowed b c) :
    Fosters allowed a c := by
  obtain ⟨added, hentries, hadded⟩ := h
  obtain ⟨others, hothers, hadded'⟩ := h'
  refine ⟨added ++ others, by rw [hothers, hentries, List.append_assoc], ?_⟩
  exact List.forall_mem_append.mpr ⟨hadded, hadded'⟩

/-- What was known before is known after. -/
theorem Fosters.known (h : Fosters allowed a b) (hknown : Known a.entries id) :
    Known b.entries id := by
  obtain ⟨added, hentries, -⟩ := h
  rw [hentries]
  exact hknown.append added

theorem fosters_addNote (allowed : UInt64 → Prop) (book : Logbook) (note : Note) :
    Fosters allowed book (book.addNote note) :=
  ⟨[.note note], rfl, by simp [Entry.parent?]⟩

/-- Who calls a sink without a handle starts nothing. -/
theorem fosters_emit {issuer : Issuer} (hissuer : issuer ≠ .handle) (sink : Sink) (call : Call)
    (book : Logbook) : Fosters allowed book (emit issuer sink call book).2 := by
  obtain ⟨added, hentries, htold⟩ := told_emit issuer sink call book
  refine ⟨added, hentries, htold.parents fun parent hparent => ?_⟩
  cases issuer with
  | user => cases hparent
  | channel => cases hparent
  | handle => exact (hissuer rfl).elim

/-- A message that is printed names no parent. -/
theorem fosters_print (style : Style) (text : String) (book : Logbook) :
    Fosters allowed book (book.print style text).2 := by
  unfold print
  split
  next => exact fosters_emit (by decide) _ _ _
  next => exact fosters_of_entries _ rfl

end Logbook

open Logbook

/-! ## Activities -/

namespace Activity

variable {allowed : UInt64 → Prop}

theorem fosters_update (activity : Activity) (kind : UpdateKind) (fields : List Field)
    (book : Logbook) : Fosters allowed book (activity.update kind fields book).2 := by
  obtain ⟨added, hentries, htold⟩ :=
    told_emit .handle activity.sink (.update activity.id kind fields) book
  exact ⟨added, hentries, htold.parents fun parent hparent => by cases hparent⟩

theorem fosters_stop (activity : Activity) (book : Logbook) :
    Fosters allowed book (activity.stop book) := by
  obtain ⟨added, result, hentries, htold⟩ := told_stop activity book
  exact ⟨added, hentries, htold.parents fun parent hparent => by cases hparent⟩

variable {sink : Sink} {level : Level} {kind : ActivityKind} {text : String}
variable {fields : List Field} {parent : UInt64} {book after : Logbook}

/-- A handle starts under the parent that it is given. -/
theorem fosters_start (hparent : allowed parent) :
    Fosters allowed book (start sink level kind text fields parent book).2 := by
  obtain ⟨added, hentries, htold⟩ := told_emit .handle sink
    (.start book.nextId.1 level kind text fields parent) book.nextId.2
  rw [nextId_entries] at hentries
  have hcall : Fosters allowed book _ := ⟨added, hentries, htold.parents fun other hother => by
    cases hother
    exact hparent⟩
  simp only [start]
  split
  next hemit =>
    rw [hemit] at hcall
    exact hcall
  next hemit =>
    rw [hemit] at hcall
    exact hcall.trans (fosters_addNote _ _ _)

/-- A handle that has started is known. -/
theorem known_start {activity : Activity}
    (h : start sink level kind text fields parent book = (.ok activity, after)) :
    Known after.entries activity.id := by
  obtain ⟨passed, hentries, -⟩ := emit_entries .handle sink
    (.start book.nextId.1 level kind text fields parent) book.nextId.2
  simp only [start] at h
  split at h
  next => cases h
  next hemit =>
    cases h
    rw [hemit] at hentries
    refine .inr (List.mem_filterMap.mpr
      ⟨.call .handle sink (.start book.nextId.1 level kind text fields parent) (.ok ()), ?_, rfl⟩)
    rw [addNote_entries, hentries]
    simp

end Activity

/-! ## Channels -/

namespace Channel

variable {allowed : UInt64 → Prop} {channel : Channel} {book : Logbook}

/-- **A channel starts activities under its own parent only.** -/
theorem Effect.parent_of_mem {trusted : Bool} {message? : Option Wire.Message} {after : Channel}
    (heffect : Effect channel trusted book message? after added) :
    ∀ entry ∈ added, ∀ parent ∈ entry.parent?, parent = channel.parent := by
  cases heffect with
  | quiet notes rejects absent =>
    intro entry hentry parent hparent
    rw [(entry.isPassedOn_of_isNote (notes entry hentry) .standard).parent?] at hparent
    cases hparent
  | logged plain told => exact told.parents fun parent hparent => by cases hparent
  | phase told => exact told.parents fun parent hparent => by cases hparent
  | updated running told => exact told.parents fun parent hparent => by cases hparent
  | stopped running told => exact told.parents fun parent hparent => by cases hparent
  | failed allowed rejects told =>
    exact told.parents fun parent hparent => (Option.some.inj hparent).symm
  | admitted admits told =>
    exact told.parents fun parent hparent => (Option.some.inj hparent).symm

/-- Whatever a message says, a channel starts activities under its own parent, which it keeps. -/
theorem fosters_handle (hparent : allowed channel.parent) (message : Wire.Message)
    (trusted : Bool) (book : Logbook) :
    Fosters allowed book (channel.handle message trusted book).book
      ∧ (channel.handle message trusted book).channel.parent = channel.parent := by
  obtain ⟨added, hentries, heffect⟩ := effect_handle channel message trusted book
  refine ⟨⟨added, hentries, fun entry hentry parent hmem => ?_⟩, heffect.parent_eq⟩
  rw [heffect.parent_of_mem entry hentry parent hmem]
  exact hparent

/-- What holds of a message holds of the line that it comes in. -/
theorem fosters_handleLine (hparent : allowed channel.parent) (line source : String)
    (trusted : Bool) (book : Logbook) :
    Fosters allowed book (channel.handleLine line source trusted book).book
      ∧ (channel.handleLine line source trusted book).channel.parent = channel.parent := by
  obtain ⟨added, hentries, heffect⟩ := effect_handleLine channel line source trusted book
  refine ⟨⟨added, hentries, fun entry hentry parent hmem => ?_⟩, heffect.parent_eq⟩
  rw [heffect.parent_of_mem entry hentry parent hmem]
  exact hparent

/-- The end of a channel starts nothing. -/
theorem fosters_close (channel : Channel) (book : Logbook) :
    Fosters allowed book (channel.close book) := by
  unfold close
  induction channel.leaving generalizing book with
  | nil => exact fosters_of_entries _ rfl
  | cons entry rest ih => exact (entry.2.fosters_stop book).trans (ih _)

end Channel

/-! ## Contexts -/

namespace Context

/-- What is current on the thread and in all of its scopes. -/
def cells (context : Context) : List UInt64 := context.thread :: context.scopes

variable {allowed : UInt64 → Prop} {context : Context}

/-- What is current is in the innermost scope, or on the thread if there is none. -/
theorem current_mem_cells (context : Context) : context.current ∈ context.cells := by
  obtain ⟨thread, scopes⟩ := context
  cases scopes with
  | nil => exact List.mem_cons_self
  | cons innermost outer => exact List.mem_cons_of_mem _ List.mem_cons_self

/-- After an allowed number is made current, the thread and all scopes hold allowed ones. -/
theorem forall_cells_set (hcells : ∀ cell ∈ context.cells, allowed cell) {id : UInt64}
    (hid : allowed id) : ∀ cell ∈ (context.set id).cells, allowed cell := by
  obtain ⟨thread, scopes⟩ := context
  cases scopes with
  | nil => simpa [set, cells] using hid
  | cons innermost outer =>
    simp only [cells, List.forall_mem_cons] at hcells
    simpa [set, cells] using ⟨hcells.1, hid, hcells.2.2⟩

/-- A new scope holds what it is opened with; the others are hidden by it, and stay. -/
theorem forall_cells_enter (hcells : ∀ cell ∈ context.cells, allowed cell) {id : UInt64}
    (hid : allowed id) : ∀ cell ∈ (context.enter id).cells, allowed cell := by
  obtain ⟨hthread, hscopes⟩ := List.forall_mem_cons.mp hcells
  exact List.forall_mem_cons.mpr ⟨hthread, List.forall_mem_cons.mpr ⟨hid, hscopes⟩⟩

/-- A scope that ends leaves the others as they were. -/
theorem forall_cells_leave (hcells : ∀ cell ∈ context.cells, allowed cell) :
    ∀ cell ∈ context.leave.cells, allowed cell := by
  obtain ⟨hthread, hscopes⟩ := List.forall_mem_cons.mp hcells
  exact List.forall_mem_cons.mpr ⟨hthread, fun cell hcell =>
    hscopes cell (List.mem_of_mem_tail hcell)⟩

end Context

/-! ## Sessions -/

namespace Script

/-- The number that is given as such is known. -/
def Ref.isKnown (entries : List Entry) : Ref → Bool
  | .id id => Known entries id
  | .activity _ => true

/-- What a command gives as the number of an activity that is to become a parent. -/
def Command.parents : Command → List Ref
  | .start _ given => given.parent.toList
  | .setCurrent id => [id]
  | .push _ id => [id]
  | .openPinned _ parent _ _ => [parent]
  | _ => []

/-- The command gives known numbers only. -/
def Command.heeds (command : Command) (session : Session) : Bool :=
  command.parents.all (Ref.isKnown session.book.entries)

namespace Session

/-- In all places that parents are taken from, the numbers are known. -/
structure Grounded (session : Session) : Prop where
  context : ∀ cell ∈ session.context.cells, Known session.book.entries cell
  guards : ∀ entry ∈ session.guards, Known session.book.entries entry.2.previous
  activities : ∀ entry ∈ session.activities, Known session.book.entries entry.2.id
  channels : ∀ entry ∈ session.channels, Known session.book.entries entry.2.parent

/-- From one session to another, parents were known, and what can become a parent is. -/
structure Rears (before after : Session) : Prop where
  book : Fosters (Known before.book.entries) before.book after.book
  grounded : after.Grounded

variable {session after : Session} {name : String} {activity : Activity} {channel : Channel}
variable {book : Logbook}

theorem mem_of_lookup {α : Type} {table : List (String × α)} {value : α}
    (hfind : table.lookup name = some value) : (name, value) ∈ table := by
  obtain ⟨older, newer, rfl, -⟩ := List.lookup_eq_some_iff.mp hfind
  simp

/-- A table with a new entry holds that, and entries that it held before. -/
theorem forall_mem_withEntry {α : Type} {table : List (String × α)} {value : α}
    {P : String × α → Prop} (htable : ∀ entry ∈ table, P entry) (hvalue : P (name, value)) :
    ∀ entry ∈ withEntry name value table, P entry :=
  List.forall_mem_cons.mpr ⟨hvalue, fun entry hentry =>
    htable entry (List.mem_filter.mp hentry).1⟩

theorem forall_mem_without {α : Type} {table : List (String × α)} {P : String × α → Prop}
    (htable : ∀ entry ∈ table, P entry) (name : String) :
    ∀ entry ∈ without name table, P entry :=
  fun entry hentry => htable entry (List.mem_filter.mp hentry).1

/-- A reference that is known, by its number or by its name, stands for a known number. -/
theorem Grounded.id_known (h : session.Grounded) {ref : Ref} {id : UInt64}
    (hgiven : ref.isKnown session.book.entries = true) (hid : session.id? ref = some id) :
    Known session.book.entries id := by
  cases ref with
  | id given =>
    obtain rfl : given = id := Option.some.inj hid
    simpa [Ref.isKnown] using hgiven
  | activity name =>
    obtain ⟨activity, hfind, rfl⟩ := Option.map_eq_some_iff.mp hid
    exact h.activities _ (mem_of_lookup hfind)

/-! ### What changes at once -/

/-- A session with all places in order keeps them so by doing nothing. -/
theorem Grounded.rears_self (h : session.Grounded) : Rears session session :=
  ⟨fosters_of_entries _ rfl, h⟩

/-- Only the book changes. -/
theorem Grounded.rears_book (h : session.Grounded)
    (hbook : Fosters (Known session.book.entries) session.book book) :
    Rears session { session with book } := by
  refine ⟨hbook, ?_, ?_, ?_, ?_⟩
  · exact fun cell hcell => hbook.known (h.context cell hcell)
  · exact fun entry hentry => hbook.known (h.guards entry hentry)
  · exact fun entry hentry => hbook.known (h.activities entry hentry)
  · exact fun entry hentry => hbook.known (h.channels entry hentry)

/-- The handles may be exchanged for others with known numbers. -/
theorem Rears.activities (h : Rears session after) {activities : List (String × Activity)}
    (hactivities : ∀ entry ∈ activities, Known after.book.entries entry.2.id) :
    Rears session { after with activities } :=
  ⟨h.book, h.grounded.context, h.grounded.guards, hactivities, h.grounded.channels⟩

/-- The channels may be exchanged for others under known parents. -/
theorem Rears.channels (h : Rears session after) {channels : List (String × Channel)}
    (hchannels : ∀ entry ∈ channels, Known after.book.entries entry.2.parent) :
    Rears session { after with channels } :=
  ⟨h.book, h.grounded.context, h.grounded.guards, h.grounded.activities, hchannels⟩

/-- The guards may be exchanged for others that restore known numbers. -/
theorem Rears.guards (h : Rears session after) {guards : List (String × Guard)}
    (hguards : ∀ entry ∈ guards, Known after.book.entries entry.2.previous) :
    Rears session { after with guards } :=
  ⟨h.book, h.grounded.context, hguards, h.grounded.activities, h.grounded.channels⟩

/-- The context may be exchanged for one that holds known numbers. -/
theorem Rears.context (h : Rears session after) {context : Context}
    (hcontext : ∀ cell ∈ context.cells, Known after.book.entries cell) :
    Rears session { after with context } :=
  ⟨h.book, hcontext, h.grounded.guards, h.grounded.activities, h.grounded.channels⟩

/-! ### Activities -/

/-- The parent in a plan is what the reference to it stands for. -/
theorem planOf_parent {start : Start} {plan : Plan} (hplan : session.planOf start = some plan)
    {parent : UInt64} (hparent : plan.parent = some parent) :
    ∃ ref, start.parent = some ref ∧ session.id? ref = some parent := by
  unfold planOf at hplan
  cases href : start.parent with
  | none =>
    simp only [href, Option.pure_def, Option.bind_eq_bind, Option.bind_some,
      Option.bind_eq_some_iff, Option.some.injEq] at hplan
    obtain ⟨sink, -, rfl⟩ := hplan
    cases hparent
  | some ref =>
    simp only [href, Option.pure_def, Option.bind_eq_bind, Option.bind_eq_some_iff,
      Option.map_eq_some_iff, Option.some.injEq] at hplan
    obtain ⟨-, ⟨id, hid, rfl⟩, sink, -, rfl⟩ := hplan
    obtain rfl := Option.some.inj hparent
    exact ⟨ref, rfl, hid⟩

/-- The parent that a plan comes to is known: it was given, or it is what is current. -/
theorem Grounded.plan_known (h : session.Grounded) {start : Start} {plan : Plan}
    (hgiven : ∀ ref ∈ start.parent, ref.isKnown session.book.entries = true)
    (hplan : session.planOf start = some plan) :
    Known session.book.entries (plan.parent.getD session.context.current) := by
  cases hparent : plan.parent with
  | none => exact h.context _ (Context.current_mem_cells _)
  | some parent =>
    obtain ⟨ref, href, hid⟩ := planOf_parent hplan hparent
    exact h.id_known (hgiven ref href) hid

/-- An activity starts under the parent that is given, or under the current activity. Both are
known, and its own number is from then on. -/
theorem Grounded.rears_startActivity (h : session.Grounded) {start : Start}
    (hgiven : ∀ ref ∈ start.parent, ref.isKnown session.book.entries = true) (name : String) :
    Rears session (session.startActivity name start).2 := by
  simp only [startActivity]
  split
  next => exact h.rears_self
  next plan hplan =>
    have hfosters : Fosters (Known session.book.entries) session.book
        (Activity.start (plan.sink.getD session.book.active) plan.level plan.kind plan.text
          plan.fields (plan.parent.getD session.context.current) session.book).2 :=
      Activity.fosters_start (h.plan_known hgiven hplan)
    split
    next failure book hstart =>
      rw [Activity.ofPlan] at hstart
      rw [hstart] at hfosters
      exact h.rears_book hfosters
    next activity book hstart =>
      rw [Activity.ofPlan] at hstart
      rw [hstart] at hfosters
      have hactivity : Known book.entries activity.id := Activity.known_start hstart
      -- The old activity of that name may stop after that.
      have hbook : ∀ last : Logbook, Fosters (Known session.book.entries) book last →
          Rears session { session with
            book := last, activities := withEntry name activity session.activities } := by
        intro last hlast
        have hrears := h.rears_book (hfosters.trans hlast)
        exact hrears.activities
          (forall_mem_withEntry hrears.grounded.activities (hlast.known hactivity))
      split
      next => exact hbook book (fosters_of_entries _ rfl)
      next old hold => exact hbook (old.stop book) (old.fosters_stop book)

theorem Grounded.rears_stopActivity (h : session.Grounded) (name : String) (answer : Answer) :
    Rears session (session.stopActivity name answer).2 := by
  simp only [stopActivity]
  split
  next => exact h.rears_self
  next activity hfind =>
    have hrears := h.rears_book (activity.fosters_stop session.book)
    exact hrears.activities (forall_mem_without hrears.grounded.activities name)

theorem Grounded.rears_updateActivity (h : session.Grounded) (name : String) (kind : UpdateKind)
    (fields : List Field) : Rears session (session.updateActivity name kind fields).2 := by
  simp only [updateActivity]
  split
  next => exact h.rears_self
  next activity hfind => exact h.rears_book (activity.fosters_update kind fields session.book)

theorem Grounded.rears_ask (h : session.Grounded) (name : String) (answer : Activity → String) :
    Rears session (session.ask name answer).2 := by
  simp only [ask]
  split
  next => exact h.rears_self
  next => exact h.rears_self

/-! ### Guards -/

/-- A guard remembers what was current, and that is known. -/
theorem Grounded.rears_push (h : session.Grounded) {id : UInt64}
    (hid : Known session.book.entries id) (name : String) :
    Rears session (session.push name id).2 := by
  have hprevious : Known session.book.entries session.context.current :=
    h.context _ (Context.current_mem_cells _)
  have hguards : ∀ entry ∈ withEntry name (Guard.mk session.context.current) session.guards,
      Known session.book.entries entry.2.previous :=
    forall_mem_withEntry h.guards hprevious
  have hcells := Context.forall_cells_set h.context hid
  simp only [push, Guard.push]
  split
  next => exact (h.rears_self.guards hguards).context hcells
  next old hold =>
    have hold : Known session.book.entries old.previous := h.guards _ (mem_of_lookup hold)
    exact (h.rears_self.guards hguards).context (Context.forall_cells_set hcells hold)

/-- A guard puts back what was current when it was made. -/
theorem Grounded.rears_release (h : session.Grounded) (name : String) :
    Rears session (session.release name).2 := by
  simp only [release]
  split
  next => exact h.rears_self
  next guard hfind =>
    have hprevious : Known session.book.entries guard.previous := h.guards _ (mem_of_lookup hfind)
    exact (h.rears_self.guards (forall_mem_without h.guards name)).context
      (Context.forall_cells_set h.context hprevious)

/-! ### Channels -/

/-- A channel is opened under a known parent; the channel that had its name so far ends. -/
theorem Grounded.rears_openChannel (h : session.Grounded)
    (hparent : Known session.book.entries channel.parent) (name : String) :
    Rears session (session.openChannel name channel).2 := by
  simp only [openChannel]
  split
  next => exact h.rears_self.channels (forall_mem_withEntry h.channels hparent)
  next old hold =>
    have hclose : Fosters (Known session.book.entries) session.book (old.close session.book) :=
      old.fosters_close session.book
    have hrears := h.rears_book hclose
    exact hrears.channels (forall_mem_withEntry hrears.grounded.channels (hclose.known hparent))

/-- A channel has handled something. -/
theorem Grounded.rears_channel (h : session.Grounded)
    (hfind : session.channels.lookup name = some channel) {after : Channel} {book : Logbook}
    (hfosters : Fosters (Known session.book.entries) session.book book)
    (hparent : after.parent = channel.parent) :
    Rears session
      { session with book, channels := withEntry name after session.channels } := by
  have hrears := h.rears_book hfosters
  refine hrears.channels (forall_mem_withEntry hrears.grounded.channels ?_)
  show Known book.entries after.parent
  rw [hparent]
  exact hrears.grounded.channels _ (mem_of_lookup hfind)

/-- Line after line, a channel starts activities under its own parent. -/
theorem fosters_feedLines {allowed : UInt64 → Prop} (hparent : allowed channel.parent)
    (source : String) (trusted : Bool) (lines : List String) (book : Logbook) :
    Fosters allowed book (feedLines channel source trusted lines book).2.2
      ∧ (feedLines channel source trusted lines book).2.1.parent = channel.parent := by
  induction lines generalizing channel book with
  | nil => exact ⟨fosters_of_entries _ rfl, rfl⟩
  | cons line lines ih =>
    obtain ⟨hfirst, hsame⟩ := Channel.fosters_handleLine hparent line source trusted book
    rw [← hsame] at hparent
    obtain ⟨hothers, hsame'⟩ := ih hparent (channel.handleLine line source trusted book).book
    exact ⟨hfirst.trans hothers, hsame'.trans hsame⟩

/-! ### Commands -/

/-- **A command that gives known numbers keeps all of them known**, and its activities start under
such parents. -/
theorem Grounded.rears_perform (h : session.Grounded) {command : Command}
    (hheeds : command.heeds session = true) : Rears session (session.perform command).2 := by
  have hgiven : ∀ ref ∈ command.parents, ref.isKnown session.book.entries = true :=
    List.all_eq_true.mp hheeds
  have hchannel : ∀ {name : String} {channel : Channel},
      session.channels.lookup name = some channel →
      Known session.book.entries channel.parent :=
    fun hfind => h.channels _ (mem_of_lookup hfind)
  have hcall : ∀ sink call, Rears session (session.call sink call).2 := by
    intro sink call
    simp only [Session.call]
    split
    next => exact h.rears_book (fosters_emit (by decide) _ _ _)
    next => exact h.rears_self
  cases command with
  | start name start =>
    exact h.rears_startActivity (fun ref href => hgiven ref (Option.mem_toList.mpr href)) name
  | setCurrent ref =>
    simp only [perform]
    split
    next => exact h.rears_self
    next id hid =>
      have hknown := h.id_known (hgiven ref List.mem_cons_self) hid
      exact h.rears_self.context (Context.forall_cells_set h.context hknown)
  | push name ref =>
    simp only [perform]
    split
    next => exact h.rears_self
    next id hid => exact h.rears_push (h.id_known (hgiven ref List.mem_cons_self) hid) name
  | release name => exact h.rears_release name
  | openPinned name parent sink place =>
    simp only [perform]
    split
    next id sink hid hsink =>
      exact h.rears_openChannel (h.id_known (hgiven parent List.mem_cons_self) hid) name
    next => exact h.rears_self
  | openUnder name activity place =>
    simp only [perform]
    split
    next => exact h.rears_self
    next activity hfind => exact h.rears_openChannel (h.activities _ (mem_of_lookup hfind)) name
  | line name line source trusted =>
    simp only [perform, feedLine]
    split
    next => exact h.rears_self
    next channel hfind =>
      obtain ⟨hfosters, hparent⟩ :=
        Channel.fosters_handleLine (hchannel hfind) line source trusted session.book
      exact h.rears_channel hfind hfosters hparent
  | message name line trusted =>
    simp only [perform, feedMessage]
    split
    next => exact h.rears_self
    next channel hfind =>
      split
      next => exact h.rears_self
      next => exact h.rears_self
      next message hmessage =>
        obtain ⟨hfosters, hparent⟩ :=
          Channel.fosters_handle (hchannel hfind) message trusted session.book
        exact h.rears_channel hfind hfosters hparent
  | pump sink name source trusted =>
    simp only [perform, pump]
    split
    next fed channel hsink hfind =>
      obtain ⟨hfosters, hparent⟩ := fosters_feedLines (hchannel hfind) source trusted
        (session.messagesOn fed .error) session.book
      exact h.rears_channel hfind hfosters hparent
    next => exact h.rears_self
  | close name =>
    simp only [perform]
    split
    next => exact h.rears_self
    next channel hfind =>
      have hrears := h.rears_book (channel.fosters_close session.book)
      exact hrears.channels (forall_mem_without hrears.grounded.channels name)
  | makeSink name plan =>
    simp only [perform, makeSink]
    split
    next => exact h.rears_self
    next => exact ⟨fosters_of_entries _ rfl, h.context, h.guards, h.activities, h.channels⟩
  | setThreshold level => exact h.rears_book (fosters_of_entries _ rfl)
  | install name =>
    simp only [perform]
    split
    next => exact h.rears_self
    next sink hsink => exact h.rears_book (fosters_addNote _ _ .sinkReplaced)
  | print style text => exact h.rears_book (fosters_print style text session.book)
  | nextId => exact h.rears_book (fosters_of_entries _ rfl)
  | call sink call => exact hcall sink (some call)
  | startCall sink id level kind text fields parent => exact hcall sink _
  | stopCall sink id => exact hcall sink _
  | updateCall sink id kind fields => exact hcall sink _
  | stop name => exact h.rears_stopActivity name _
  | unwind name => exact h.rears_stopActivity name _
  | update name kind fields => exact h.rears_updateActivity name kind fields
  | describe name => exact h.rears_ask name _
  | sinkOf name => exact h.rears_ask name _
  | _ =>
    -- The other commands only ask.
    simp only [perform]
    first
    | exact h.rears_self
    | split <;> exact h.rears_self

end Session

end Script

end Worklog
