import Mathlib.Data.List.Nodup
import Worklog.Proofs.Channel.Effect

/-!
# The registry of a channel

What a turn does to the registry, seen from two sides: from the calls that were made, and from what
can be found.

* `Effect.kept` — the registered activities stay those that were started and not stopped.
* `Effect.find_iff` — what is found was admitted or was there, and is not stopped.
* `close_entries` — what the end adds to the book.
-/

namespace Worklog

/-! ## Tables -/

section Table

variable {κ α : Type} [DecidableEq κ] {table older newer : List (κ × α)} {key : κ} {value : α}

/-- Without the entry for a key, the others are left. -/
theorem filter_ne_of_nodup (honce : ((older ++ (key, value) :: newer).map Prod.fst).Nodup) :
    (older ++ (key, value) :: newer).filter (fun entry => entry.1 ≠ key) = older ++ newer := by
  rw [List.map_append, List.map_cons, List.nodup_append, List.nodup_cons] at honce
  obtain ⟨-, ⟨hnewer, -⟩, hdisjoint⟩ := honce
  rw [List.filter_append, List.filter_cons_of_neg (by simp)]
  congr 1
  · refine List.filter_eq_self.mpr fun entry hentry => ?_
    simpa using hdisjoint entry.1 (List.mem_map_of_mem hentry) key List.mem_cons_self
  · refine List.filter_eq_self.mpr fun entry hentry => ?_
    have hne : entry.1 ≠ key := fun heq => hnewer (List.mem_map.mpr ⟨entry, hentry, heq⟩)
    simpa using hne

/-- What is found under a key is one entry among those for other keys. -/
theorem perm_of_lookup (honce : (table.map Prod.fst).Nodup)
    (hfind : table.lookup key = some value) :
    table.Perm ((key, value) :: table.filter fun entry => entry.1 ≠ key) := by
  obtain ⟨older, newer, rfl, -⟩ := List.lookup_eq_some_iff.mp hfind
  rw [filter_ne_of_nodup honce]
  exact List.perm_middle

theorem not_mem_of_lookup_eq_none (hfind : table.lookup key = none) :
    key ∉ table.map Prod.fst := by
  intro hmem
  obtain ⟨entry, hentry, rfl⟩ := List.mem_map.mp hmem
  simpa using List.lookup_eq_none_iff.mp hfind entry hentry

theorem filter_ne_of_lookup_eq_none (hfind : table.lookup key = none) :
    table.filter (fun entry => entry.1 ≠ key) = table := by
  refine List.filter_eq_self.mpr fun entry hentry => ?_
  have hne : entry.1 ≠ key := fun heq =>
    not_mem_of_lookup_eq_none hfind (List.mem_map.mpr ⟨entry, hentry, heq⟩)
  simpa using hne

theorem nodup_filter_ne (honce : (table.map Prod.fst).Nodup) (key : κ) :
    ((table.filter fun entry => entry.1 ≠ key).map Prod.fst).Nodup :=
  honce.sublist (List.filter_sublist.map _)

end Table

/-! ## What the calls say -/

/-- What an entry does to the activities that are underway. A stop counts also if it is refused. -/
def Entry.track (underway : List (UInt64 × ActivityKind)) : Entry → List (UInt64 × ActivityKind)
  | .call _ _ (.start id _ kind _ _ _) (.ok ()) => underway ++ [(id, kind)]
  | .call _ _ (.stop id) _ => underway.eraseP fun started => started.1 == id
  | _ => underway

/-- The activities that were started and not stopped since, in the order of their starts. -/
def underway (entries : List Entry) : List (UInt64 × ActivityKind) := entries.foldl Entry.track []

/-- The number that a start was made with. -/
def Entry.startId? : Entry → Option UInt64
  | .call _ _ (.start id _ _ _ _ _) _ => some id
  | _ => none

/-- The activity that is stopped, and the sink that is told. -/
def Entry.stopped? : Entry → Option (Sink × UInt64)
  | .call _ sink (.stop id) _ => some (sink, id)
  | _ => none

variable {issuer : Issuer} {sink : Sink} {call : Call} {result : Except Failure Unit}
variable {entry : Entry} {added made : List Entry}

theorem Entry.IsPassedOn.track (h : entry.IsPassedOn sink) (l : List (UInt64 × ActivityKind)) :
    entry.track l = l := by
  cases h <;> rfl

theorem Entry.IsPassedOn.stopped? (h : entry.IsPassedOn sink) : entry.stopped? = none := by
  cases h <;> rfl

theorem underway_append_of_isPassedOn (h : ∀ entry ∈ added, entry.IsPassedOn sink) :
    underway (made ++ added) = underway made := by
  rw [underway, List.foldl_append]
  induction added with
  | nil => rfl
  | cons entry added ih =>
    rw [List.foldl_cons, (h entry List.mem_cons_self).track]
    exact ih fun e he => h e (List.mem_cons_of_mem _ he)

theorem underway_append_notes (h : ∀ entry ∈ added, entry.isNote) :
    underway (made ++ added) = underway made :=
  underway_append_of_isPassedOn fun entry hentry =>
    entry.isPassedOn_of_isNote (h entry hentry) .standard

/-- Of what comes from a call, only the call itself counts. -/
theorem Told.underway (h : Told issuer sink call result added) (made : List Entry) :
    Worklog.underway (made ++ added)
      = (Entry.call issuer sink call result).track (Worklog.underway made) := by
  obtain ⟨passed, notes, rfl, hpassed, hnotes⟩ := h
  rw [List.append_cons, ← List.append_assoc, underway_append_notes hnotes, ← List.append_assoc,
    Worklog.underway, List.foldl_append, ← Worklog.underway, underway_append_of_isPassedOn hpassed]
  rfl

theorem track_map_fst_sublist (l : List (UInt64 × ActivityKind)) (entry : Entry) :
    ((entry.track l).map Prod.fst).Sublist (l.map Prod.fst ++ entry.startId?.toList) := by
  unfold Entry.track
  split
  · simp [Entry.startId?]
  · exact (List.eraseP_sublist.map _).trans (List.sublist_append_left _ _)
  · exact List.sublist_append_left _ _

/-- What is underway was started. -/
theorem underway_sublist (entries : List Entry) :
    ((underway entries).map Prod.fst).Sublist (entries.filterMap Entry.startId?) := by
  -- The fold starts with activities of its own, so these are part of what is proved.
  suffices h : ∀ l, ((entries.foldl Entry.track l).map Prod.fst).Sublist
      (l.map Prod.fst ++ entries.filterMap Entry.startId?) by
    simpa [underway] using h []
  induction entries with
  | nil => simp
  | cons entry entries ih =>
    intro l
    have hsplit : (entry :: entries).filterMap Entry.startId?
        = entry.startId?.toList ++ entries.filterMap Entry.startId? := by
      rw [List.filterMap_cons]
      cases entry.startId? <;> rfl
    rw [hsplit, ← List.append_assoc]
    exact (ih _).trans ((track_map_fst_sublist l entry).append_right _)

/-! ## The registry and the calls -/

namespace Channel

variable {channel after : Channel} {trusted : Bool} {book : Logbook}
variable {message? : Option Wire.Message} {remote : UInt64} {activity : Activity}

/-- The numbers of the running activities, in the order of their starts. -/
def ids (channel : Channel) : List UInt64 := channel.running.map fun entry => entry.2.id

/-- The registry agrees with the entries that the channel has made. -/
structure Kept (channel : Channel) (made : List Entry) : Prop where
  /-- No remote number is registered twice. -/
  once : (channel.running.map Prod.fst).Nodup
  /-- What is registered is what is underway. -/
  same : channel.ids.Perm ((underway made).map Prod.fst)

theorem exists_of_find (h : channel.find remote = some activity) :
    ∃ older newer, channel.running = older ++ (remote, activity) :: newer
      ∧ ∀ entry ∈ older, entry.1 ≠ remote := by
  obtain ⟨older, newer, hrunning, holder⟩ := List.lookup_eq_some_iff.mp h
  exact ⟨older, newer, hrunning, fun entry hentry =>
    (bne_iff_ne.mp (holder entry hentry)).symm⟩

theorem not_mem_of_isRunning (h : channel.isRunning remote = false) :
    remote ∉ channel.running.map Prod.fst :=
  not_mem_of_lookup_eq_none (by simpa [isRunning, find] using h)

/-- No remote number comes to be registered twice. -/
theorem nodup_started (honce : (channel.running.map Prod.fst).Nodup)
    (habsent : channel.isRunning remote = false) (activity : Activity) :
    ((channel.started remote activity).running.map Prod.fst).Nodup := by
  rw [started, List.map_append]
  refine List.nodup_append.mpr ⟨honce, by simp, fun key hkey other hother => ?_⟩
  rw [List.mem_singleton.mp hother]
  rintro rfl
  exact not_mem_of_isRunning habsent hkey

theorem Kept.find_iff (h : Kept channel made) :
    channel.find remote = some activity ↔ (remote, activity) ∈ channel.running := by
  constructor
  · intro hfind
    obtain ⟨older, newer, hrunning, -⟩ := exists_of_find hfind
    simp [hrunning]
  · intro hmem
    obtain ⟨older, newer, hrunning⟩ := List.append_of_mem hmem
    refine List.lookup_eq_some_iff.mpr ⟨older, newer, hrunning, fun entry hentry => ?_⟩
    have honce := h.once
    rw [hrunning, List.map_append, List.nodup_append] at honce
    exact bne_iff_ne.mpr (honce.2.2 entry.1 (List.mem_map_of_mem hentry) remote (by simp)).symm

theorem Kept.notes (h : Kept channel made) (hnotes : ∀ entry ∈ added, entry.isNote) :
    Kept channel (made ++ added) := by
  refine ⟨h.once, ?_⟩
  rw [underway_append_notes hnotes]
  exact h.same

/-- A call that neither starts nor stops an activity. -/
theorem Kept.told (h : Kept channel made) (htold : Told issuer sink call result added)
    (htrack : ∀ l, (Entry.call issuer sink call result).track l = l) :
    Kept channel (made ++ added) := by
  refine ⟨h.once, ?_⟩
  rw [htold.underway, htrack]
  exact h.same

theorem Kept.started (h : Kept channel made) {id : UInt64} {level : Level} {kind : ActivityKind}
    {text : String} {fields : List Field} {parent : UInt64}
    (habsent : channel.isRunning remote = false)
    (htold : Told issuer sink (.start id level kind text fields parent) (.ok ()) added) :
    Kept (channel.started remote ⟨id, sink⟩) (made ++ added) := by
  refine ⟨nodup_started h.once habsent _, ?_⟩
  rw [htold.underway, ids, Channel.started, List.map_append, Entry.track, List.map_append]
  exact h.same.append_right _

/-- Without the entry for a number, the others are left. -/
theorem Kept.running_stopped (h : Kept channel made) {older newer : List (UInt64 × Activity)}
    (hrunning : channel.running = older ++ (remote, activity) :: newer) :
    (channel.stopped remote).running = older ++ newer := by
  have honce := h.once
  rw [hrunning] at honce
  show channel.running.filter _ = _
  rw [hrunning, filter_ne_of_nodup honce]

theorem Kept.stopped (h : Kept channel made) (hfind : channel.find remote = some activity)
    (htold : Told issuer sink (.stop activity.id) result added) :
    Kept (channel.stopped remote) (made ++ added) := by
  refine ⟨nodup_filter_ne h.once remote, ?_⟩
  -- On both sides one occurrence of the number is taken away.
  have herase : ((underway made).eraseP fun started => started.1 == activity.id).map Prod.fst
      = ((underway made).map Prod.fst).erase activity.id := by
    rw [List.erase_eq_eraseP', List.eraseP_map]
    rfl
  have hperm : channel.ids.Perm (activity.id :: (channel.stopped remote).ids) :=
    (perm_of_lookup h.once hfind).map fun entry : UInt64 × Activity => entry.2.id
  have hcut := hperm.erase activity.id
  rw [List.erase_cons_head] at hcut
  rw [htold.underway, Entry.track, herase]
  exact hcut.symm.trans (h.same.erase _)

/-- **Every effect keeps the registry and the calls in agreement.** -/
theorem Effect.kept (heffect : Effect channel trusted book message? after added)
    (h : Kept channel made) : Kept after (made ++ added) := by
  cases heffect with
  | quiet notes rejects absent => exact h.notes notes
  | logged plain told => exact h.told told fun _ => rfl
  | phase told => exact h.told told fun _ => rfl
  | updated running told => exact h.told told fun _ => rfl
  | failed allowed rejects told => exact h.told told fun _ => rfl
  | admitted admits told => exact h.started admits.absent told
  | stopped running told => exact h.stopped running told

/-! ## The registry and the turns -/

/-- A turn that admits nothing and stops nothing changes nothing. -/
theorem find_iff_of_rejects
    (hrejects : ∀ message ∈ message?, ¬ Admits channel trusted book message remote activity)
    (habsent : message? = some (.stop remote) → channel.find remote = none) :
    channel.find remote = some activity ↔
      (∃ message ∈ message?, Admits channel trusted book message remote activity)
        ∨ (channel.find remote = some activity ∧ message? ≠ some (.stop remote)) := by
  constructor
  · intro hfind
    refine .inr ⟨hfind, fun hstop => ?_⟩
    rw [habsent hstop] at hfind
    simp at hfind
  · rintro (⟨message, hmessage, hadmits⟩ | ⟨hfind, -⟩)
    · exact (hrejects message hmessage hadmits).elim
    · exact hfind

/-- An admitted start is found; what runs already has another number. -/
theorem Admits.find_started_iff {message : Wire.Message} {key : UInt64} {started : Activity}
    (h : Admits channel trusted book message key started) :
    (channel.started key started).find remote = some activity ↔
      Admits channel trusted book message remote activity
        ∨ channel.find remote = some activity := by
  rw [find_started _ h.absent]
  by_cases hkey : remote = key
  · subst hkey
    have hnone : channel.find remote = none := by simpa [isRunning] using h.absent
    rw [if_pos rfl, hnone]
    constructor
    · intro hstarted
      rw [← Option.some.inj hstarted]
      exact .inl h
    · rintro (hadmits | hfind)
      · cases h
        cases hadmits
        rfl
      · simp at hfind
  · rw [if_neg hkey]
    constructor
    · exact .inr
    · rintro (hadmits | hfind)
      · cases h
        cases hadmits
        exact (hkey rfl).elim
      · exact hfind

theorem find_stopped_iff (channel : Channel) (key : UInt64) :
    (channel.stopped key).find remote = some activity ↔
      channel.find remote = some activity ∧ remote ≠ key := by
  rw [find_stopped]
  by_cases hkey : remote = key
  · simp [hkey]
  · simp [hkey]

/-- **What is found after a turn**: what it admitted, and what was there and is not stopped. -/
theorem Effect.find_iff (heffect : Effect channel trusted book message? after added) :
    after.find remote = some activity ↔
      (∃ message ∈ message?, Admits channel trusted book message remote activity)
        ∨ (channel.find remote = some activity ∧ message? ≠ some (.stop remote)) := by
  cases heffect with
  | quiet notes rejects absent =>
    exact find_iff_of_rejects (fun message hmessage => rejects message hmessage remote activity)
      (absent remote)
  | logged plain told =>
    refine find_iff_of_rejects (fun message hmessage hadmits => ?_) fun hstop => ?_
    · obtain ⟨level, text, raw, rfl⟩ := plain message hmessage
      cases hadmits
    · obtain ⟨level, text, raw, hsaid⟩ := plain (.stop remote) (by rw [hstop]; rfl)
      cases hsaid
  | phase told =>
    exact find_iff_of_rejects (fun _ hsaid hadmits => by cases hsaid; cases hadmits) (by simp)
  | updated running told =>
    exact find_iff_of_rejects (fun _ hsaid hadmits => by cases hsaid; cases hadmits) (by simp)
  | failed allowed rejects told =>
    exact find_iff_of_rejects (fun _ hsaid => by cases hsaid; exact rejects remote activity)
      (by simp)
  | admitted admits told =>
    rw [admits.find_started_iff]
    simp
  | @stopped key stopped _ _ running told =>
    rw [find_stopped_iff]
    constructor
    · rintro ⟨hfind, hne⟩
      exact .inr ⟨hfind, fun hstop => hne (by simpa using hstop.symm)⟩
    · rintro (⟨message, hmessage, hadmits⟩ | ⟨hfind, hne⟩)
      · cases hmessage
        cases hadmits
      · exact ⟨hfind, fun hkey => hne (by rw [hkey])⟩

/-- A start for a number that is registered is noted, and that is all. -/
theorem handle_start_of_isRunning (h : channel.isRunning remote = true) (level : Level)
    (kind : ActivityKind) (text : String) (parent : UInt64) (values : Option (List Json))
    (trusted : Bool) (book : Logbook) :
    ∃ note, channel.handle (.start remote level kind text parent values) trusted book
      = ⟨.ok true, channel, book.addNote note⟩ := by
  simp only [handle, if_pos h]
  split
  · exact ⟨_, rfl⟩
  · exact ⟨_, rfl⟩

/-! ## The end -/

/-- In whatever order different numbers are let go of, it is that of some places. -/
theorem exists_leaving_eq (honce : (channel.running.map Prod.fst).Nodup)
    {order : List (UInt64 × Activity)} (h : order.Perm channel.running) :
    ∃ place, ({ channel with place } : Channel).leaving = order := by
  -- The place of a number is that of its first occurrence in the order.
  have hkeys : (order.map Prod.fst).Nodup := (h.map Prod.fst).nodup_iff.mpr honce
  let arranged : Channel :=
    { channel with place := fun key => (order.map Prod.fst).idxOf key }
  have hleaving : arranged.leaving.Perm order := arranged.leaving_perm.trans h.symm
  refine ⟨arranged.place, ?_⟩
  have hplaces : order.Pairwise fun a b =>
      (order.map Prod.fst).idxOf a.1 ≤ (order.map Prod.fst).idxOf b.1 := by
    refine List.pairwise_iff_getElem.mpr fun i j hi hj hij => ?_
    have hidx : ∀ k (hk : k < order.length), (order.map Prod.fst).idxOf order[k].1 = k := by
      intro k hk
      have hget := hkeys.idxOf_getElem k (by rwa [List.length_map])
      rwa [List.getElem_map] at hget
    rw [hidx i hi, hidx j hj]
    exact Nat.le_of_lt hij
  refine List.Perm.eq_of_pairwise (fun a b ha hb hab hba => ?_) arranged.leaving_pairwise hplaces
    hleaving
  have ha : a ∈ order := hleaving.mem_iff.mp ha
  have hkey : a.1 = b.1 :=
    (List.idxOf_inj (List.mem_map_of_mem ha)).mp (Nat.le_antisymm hab hba)
  exact List.inj_on_of_nodup_map hkeys ha hb hkey

/-- Stops for activities, one after the other: each comes once, and there is no call of another
kind. -/
theorem stops_entries (activities : List (UInt64 × Activity)) (book : Logbook) :
    ∃ added, (activities.foldl (fun book entry => entry.2.stop book) book).entries
        = book.entries ++ added
      ∧ added.filterMap Entry.stopped?
        = activities.map (fun entry => (entry.2.sink, entry.2.id))
      ∧ ∀ entry ∈ added, entry.stopped? = none →
        ∃ running ∈ activities, entry.IsPassedOn running.2.sink := by
  induction activities generalizing book with
  | nil => exact ⟨[], by simp, rfl, by simp⟩
  | cons running rest ih =>
    obtain ⟨first, result, hfirst, htold⟩ := told_stop running.2 book
    obtain ⟨others, hothers, hstops, hcalls⟩ := ih (running.2.stop book)
    refine ⟨first ++ others, ?_, ?_, ?_⟩
    · rw [List.foldl_cons, hothers, hfirst, List.append_assoc]
    · rw [List.filterMap_append, htold.filterMap fun _ hpassed => hpassed.stopped?, hstops]
      rfl
    · intro entry hentry hstopped
      rcases List.mem_append.mp hentry with hentry | hentry
      · rcases htold.isPassedOn entry hentry with rfl | hpassed
        · simp [Entry.stopped?] at hstopped
        · exact ⟨running, List.mem_cons_self, hpassed⟩
      · obtain ⟨other, hother, hon⟩ := hcalls entry hentry hstopped
        exact ⟨other, List.mem_cons_of_mem _ hother, hon⟩

/-- At its end a channel stops each activity once, and makes no call of another kind. -/
theorem close_entries (channel : Channel) (book : Logbook) :
    ∃ added, (channel.close book).entries = book.entries ++ added
      ∧ added.filterMap Entry.stopped?
        = channel.leaving.map (fun entry => (entry.2.sink, entry.2.id))
      ∧ ∀ entry ∈ added, entry.stopped? = none →
        ∃ running ∈ channel.leaving, entry.IsPassedOn running.2.sink :=
  stops_entries channel.leaving book

end Channel

end Worklog
