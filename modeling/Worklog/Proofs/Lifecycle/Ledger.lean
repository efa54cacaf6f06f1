import Mathlib.Data.Multiset.Filter
import Worklog.Proofs.Channel.Effect

/-!
# Handles and their calls

An activity is held by whoever has its handle. What its handle does is a start, updates and a stop,
and each of them goes together with a change of what is held: a start that is taken brings the
handle, only a handle that is there gives updates, and the stop takes it away. From this alone it
follows what the life of an activity looks like, as long as no number is given out twice.

* `Act`, `Acts` — what can happen to the handles, one call at a time.
* `Life` — the lives that an activity can have.
* `lives_acts` — whatever happens, all activities have such a life.
* `Life.mem_iff`, `Life.once` — a handle is there between its start and its stop.
-/

namespace Worklog

/-! ## What handles do -/

/-- What a handle tells its sink. The start comes with the reply, which decides on all that follows;
what the sink replies to the others does not matter. -/
inductive Deed where
  | start (result : Except Failure Unit)
  | update
  | stop

/-- A handle, and what it tells its sink. For a start that fails it is the handle that would have
been. -/
abbrev Activity.Did := Activity × Deed

/-- The call that a handle makes. -/
def Entry.did? : Entry → Option Activity.Did
  | .call .handle sink (.start id _ _ _ _ _) result => some (⟨id, sink⟩, .start result)
  | .call .handle sink (.update id _ _) _ => some (⟨id, sink⟩, .update)
  | .call .handle sink (.stop id) _ => some (⟨id, sink⟩, .stop)
  | _ => none

/-- All calls that handles make, in order. -/
def didIn (entries : List Entry) : List Activity.Did := entries.filterMap Entry.did?

/-- The numbers of the starts, also of those that fail. -/
def startedIn (did : List Activity.Did) : List UInt64 :=
  did.filterMap fun done => match done.2 with
    | .start _ => some done.1.id
    | _ => none

theorem didIn_append (entries added : List Entry) :
    didIn (entries ++ added) = didIn entries ++ didIn added := List.filterMap_append

theorem startedIn_append (did more : List Activity.Did) :
    startedIn (did ++ more) = startedIn did ++ startedIn more := List.filterMap_append

theorem Entry.IsPassedOn.did? {entry : Entry} {sink : Sink} (h : entry.IsPassedOn sink) :
    entry.did? = none := by
  cases h with
  | @line issuer behind text result behinds => cases issuer <;> rfl
  | text output text => rfl
  | note note => rfl

/-- However a call is passed on, it is done once. -/
theorem Told.didIn {issuer : Issuer} {sink : Sink} {call : Call} {result : Except Failure Unit}
    {added : List Entry} (h : Told issuer sink call result added) :
    didIn added = (Entry.call issuer sink call result).did?.toList :=
  h.filterMap fun _ hpassed => hpassed.did?

/-- Only handles make calls that count. -/
theorem Told.didIn_eq_nil {issuer : Issuer} {sink : Sink} {call : Call}
    {result : Except Failure Unit} {added : List Entry} (hissuer : issuer ≠ .handle)
    (h : Told issuer sink call result added) : Worklog.didIn added = [] := by
  rw [h.didIn]
  cases issuer with
  | user => rfl
  | channel => rfl
  | handle => exact (hissuer rfl).elim

/-! ## What happens to handles -/

/-- One call of a handle: the handles before it, and the handles after it. -/
inductive Act : Multiset Activity → Activity.Did → Multiset Activity → Prop where
  | started (activity : Activity) (held : Multiset Activity) :
      Act held (activity, .start (.ok ())) (activity ::ₘ held)
  /-- A start that fails brings no handle. -/
  | refused (activity : Activity) (failure : Failure) (held : Multiset Activity) :
      Act held (activity, .start (.error failure)) held
  | updated {activity : Activity} {held : Multiset Activity} (h : activity ∈ held) :
      Act held (activity, .update) held
  | stopped (activity : Activity) (held : Multiset Activity) :
      Act (activity ::ₘ held) (activity, .stop) held

/-- Calls of handles, one after the other. Between them, no handle comes or goes. -/
inductive Acts : Multiset Activity → List Activity.Did → Multiset Activity → Prop where
  | nil (held : Multiset Activity) : Acts held [] held
  | cons {a b c : Multiset Activity} {done : Activity.Did} {did : List Activity.Did}
      (first : Act a done b) (others : Acts b did c) : Acts a (done :: did) c

variable {a b c held held' rest : Multiset Activity} {activity : Activity} {done : Activity.Did}
variable {did more : List Activity.Did}

theorem Act.acts (h : Act a done b) : Acts a [done] b := .cons h (.nil b)

theorem Acts.trans (h : Acts a did b) (h' : Acts b more c) : Acts a (did ++ more) c := by
  induction h with
  | nil => exact h'
  | cons first others ih => exact .cons first (ih h')

/-- Handles that others have do not get in the way. -/
theorem Act.frame (h : Act a done b) (rest : Multiset Activity) :
    Act (a + rest) done (b + rest) := by
  cases h with
  | started activity =>
    rw [Multiset.cons_add]
    exact .started _ _
  | refused activity failure => exact .refused _ _ _
  | updated h => exact .updated (Multiset.mem_add.mpr (.inl h))
  | stopped activity =>
    rw [Multiset.cons_add]
    exact .stopped _ _

/-- Handles that are not touched may be held besides. -/
theorem Acts.frame (h : Acts a did b) (rest : Multiset Activity) :
    Acts (a + rest) did (b + rest) := by
  induction h with
  | nil => exact .nil _
  | cons first others ih => exact .cons (first.frame rest) ih

/-- A handle that goes away, is stopped. -/
theorem Acts.stopped_of_gone (h : Acts a did b) (hheld : activity ∈ a) (hgone : activity ∉ b) :
    (activity, .stop) ∈ did := by
  induction h with
  | nil => exact absurd hheld hgone
  | cons first others ih =>
    cases first with
    | started other => exact List.mem_cons_of_mem _ (ih (Multiset.mem_cons_of_mem hheld) hgone)
    | refused other failure => exact List.mem_cons_of_mem _ (ih hheld hgone)
    | updated hother => exact List.mem_cons_of_mem _ (ih hheld hgone)
    | stopped other =>
      rcases Multiset.mem_cons.mp hheld with rfl | hheld
      · exact List.mem_cons_self
      · exact List.mem_cons_of_mem _ (ih hheld hgone)

/-! ## Lives -/

/-- The life of an activity, as seen from its number: the handles with this number that are there
now, and all that such handles did. -/
inductive Life (id : UInt64) : Multiset Activity → List Activity.Did → Prop where
  | unborn : Life id 0 []
  | refused (sink : Sink) (failure : Failure) : Life id 0 [(⟨id, sink⟩, .start (.error failure))]
  | running (sink : Sink) (updates : Nat) :
      Life id {⟨id, sink⟩}
        ((⟨id, sink⟩, .start (.ok ())) :: List.replicate updates (⟨id, sink⟩, .update))
  | ended (sink : Sink) (updates : Nat) :
      Life id 0
        ((⟨id, sink⟩, .start (.ok ())) :: List.replicate updates (⟨id, sink⟩, .update)
          ++ [(⟨id, sink⟩, .stop)])

variable {id : UInt64}

/-- The handles with a number. -/
def heldAs (id : UInt64) (held : Multiset Activity) : Multiset Activity :=
  held.filter fun activity => activity.id = id

/-- What handles with a number did. -/
def didAs (id : UInt64) (did : List Activity.Did) : List Activity.Did :=
  did.filter fun done => done.1.id = id

/-- All activities have lives. -/
def Lives (held : Multiset Activity) (did : List Activity.Did) : Prop :=
  ∀ id, Life id (heldAs id held) (didAs id did)

theorem lives_nothing : Lives 0 [] := fun _ => .unborn

theorem heldAs_cons (activity : Activity) (held : Multiset Activity) :
    heldAs activity.id (activity ::ₘ held) = activity ::ₘ heldAs activity.id held :=
  Multiset.filter_cons_of_pos held rfl

theorem heldAs_cons_of_ne (hne : activity.id ≠ id) (held : Multiset Activity) :
    heldAs id (activity ::ₘ held) = heldAs id held :=
  Multiset.filter_cons_of_neg held hne

theorem mem_heldAs : activity ∈ heldAs id held ↔ activity ∈ held ∧ activity.id = id :=
  Multiset.mem_filter

theorem mem_didAs : done ∈ didAs id did ↔ done ∈ did ∧ done.1.id = id := by
  rw [didAs, List.mem_filter, decide_eq_true_eq]

theorem didAs_append (id : UInt64) (did more : List Activity.Did) :
    didAs id (did ++ more) = didAs id did ++ didAs id more := List.filter_append ..

theorem mem_startedIn_of_didAs (h : id ∈ startedIn (didAs id did)) : id ∈ startedIn did := by
  obtain ⟨done, hdone, hid⟩ := List.mem_filterMap.mp h
  exact List.mem_filterMap.mpr ⟨done, (mem_didAs.mp hdone).1, hid⟩

/-! ## Lives go on -/

/-- Where no start was made, there is nothing. -/
theorem Life.unborn_of_not_mem (h : Life id held did) (hnew : id ∉ startedIn did) :
    held = 0 ∧ did = [] := by
  cases h with
  | unborn => exact ⟨rfl, rfl⟩
  | refused sink failure => simp [startedIn] at hnew
  | running sink updates => simp [startedIn] at hnew
  | ended sink updates => simp [startedIn] at hnew

/-- A handle that is there is the only one with its number, and has done nothing yet but to start
and to give updates. -/
theorem Life.running_of_mem (h : Life id held did) (hmem : activity ∈ held) :
    held = {activity}
      ∧ ∃ updates, did
        = (activity, .start (.ok ())) :: List.replicate updates (activity, .update) := by
  cases h with
  | unborn => simp at hmem
  | refused sink failure => simp at hmem
  | running sink updates =>
    rw [Multiset.mem_singleton.mp hmem]
    exact ⟨rfl, updates, rfl⟩
  | ended sink updates => simp at hmem

/-- A handle continues the life of its activity, if it does not start under a number that was used
before. -/
theorem Life.act {deed : Deed} (h : Life activity.id (heldAs activity.id held) did)
    (hact : Act held (activity, deed) held')
    (hnew : ∀ result, deed = .start result → activity.id ∉ startedIn did) :
    Life activity.id (heldAs activity.id held') (did ++ [(activity, deed)]) := by
  cases hact with
  | started =>
    obtain ⟨hheld, rfl⟩ := h.unborn_of_not_mem (hnew _ rfl)
    rw [heldAs_cons, hheld]
    exact .running activity.sink 0
  | refused activity failure =>
    obtain ⟨hheld, rfl⟩ := h.unborn_of_not_mem (hnew _ rfl)
    rw [hheld]
    exact .refused activity.sink failure
  | updated hmem =>
    obtain ⟨hheld, updates, rfl⟩ := h.running_of_mem (mem_heldAs.mpr ⟨hmem, rfl⟩)
    rw [hheld, List.cons_append, ← List.replicate_succ']
    exact .running activity.sink (updates + 1)
  | stopped =>
    rw [heldAs_cons] at h
    obtain ⟨hheld, updates, rfl⟩ := h.running_of_mem (Multiset.mem_cons_self _ _)
    rw [(Multiset.cons_inj_right activity).mp hheld]
    exact .ended activity.sink updates

/-- What a handle does, does not concern other numbers. -/
theorem Act.heldAs_of_ne (h : Act held done held') (hne : done.1.id ≠ id) :
    heldAs id held' = heldAs id held := by
  cases h with
  | started activity => exact heldAs_cons_of_ne hne held
  | refused activity failure => rfl
  | updated h => rfl
  | stopped activity => exact (heldAs_cons_of_ne hne held').symm

/-- **One call of a handle leaves all activities with lives.** -/
theorem lives_act (h : Lives held did) (hact : Act held done held')
    (honce : (startedIn (did ++ [done])).Nodup) : Lives held' (did ++ [done]) := by
  intro id
  obtain ⟨activity, deed⟩ := done
  rw [didAs_append]
  by_cases hid : activity.id = id
  · subst hid
    rw [show didAs activity.id [(activity, deed)] = [(activity, deed)] by simp [didAs]]
    refine (h activity.id).act hact ?_
    rintro result rfl hmem
    rw [startedIn_append, List.nodup_append] at honce
    exact honce.2.2 _ (mem_startedIn_of_didAs hmem) _ (by simp [startedIn]) rfl
  · rw [show didAs id [(activity, deed)] = [] by simp [didAs, hid], List.append_nil,
      hact.heldAs_of_ne hid]
    exact h id

/-- **Whatever handles do, all activities have lives.** -/
theorem lives_acts (h : Lives held did) (hacts : Acts held more held')
    (honce : (startedIn (did ++ more)).Nodup) : Lives held' (did ++ more) := by
  induction hacts generalizing did with
  | nil =>
    rw [List.append_nil]
    exact h
  | @cons a b c done more first others ih =>
    rw [List.append_cons] at honce ⊢
    refine ih (lives_act h first ?_) honce
    rw [startedIn_append] at honce
    exact (List.nodup_append.mp honce).1

/-! ## Moments -/

theorem Life.mem_iff (h : Life id held did) :
    activity ∈ held ↔ (activity, .start (.ok ())) ∈ did ∧ (activity, .stop) ∉ did := by
  cases h with
  | unborn => simp
  | refused sink failure => simp
  | running sink updates => simp [List.mem_replicate]
  | ended sink updates =>
    simp only [Multiset.notMem_zero, false_iff]
    rintro ⟨hstart, hleft⟩
    obtain rfl : activity = ⟨id, sink⟩ := by simpa [List.mem_replicate] using hstart
    exact hleft (by simp)

/-- What has been stopped was started before. -/
theorem Life.started_of_stopped (h : Life id held did) (hstop : (activity, .stop) ∈ did) :
    (activity, .start (.ok ())) ∈ did := by
  cases h with
  | unborn => simp at hstop
  | refused sink failure => simp at hstop
  | running sink updates => simp [List.mem_replicate] at hstop
  | ended sink updates =>
    obtain rfl : activity = ⟨id, sink⟩ := by simpa [List.mem_replicate] using hstop
    simp

/-- In one life, only updates come twice. -/
theorem Life.pairwise (h : Life id held did) :
    did.Pairwise fun first later => first = later → first.2 = .update := by
  cases h with
  | unborn => simp
  | refused sink failure => simp
  | running sink updates => simp [List.pairwise_replicate, List.mem_replicate]
  | ended sink updates =>
    refine List.pairwise_cons.mpr ⟨?_, ?_⟩
    · rintro later hlater rfl
      simp [List.mem_replicate] at hlater
    · simp [List.pairwise_append, List.pairwise_replicate, List.mem_replicate]

/-- A handle is there iff it was started and has not been stopped. -/
theorem Lives.mem_iff (h : Lives held did) :
    activity ∈ held ↔ (activity, .start (.ok ())) ∈ did ∧ (activity, .stop) ∉ did := by
  have hlife : activity ∈ heldAs activity.id held ↔ _ := (h activity.id).mem_iff
  simpa [mem_heldAs, mem_didAs] using hlife

/-- What was stopped, was started. -/
theorem Lives.started_of_stopped (h : Lives held did) (hstop : (activity, .stop) ∈ did) :
    (activity, .start (.ok ())) ∈ did :=
  (mem_didAs.mp ((h activity.id).started_of_stopped (mem_didAs.mpr ⟨hstop, rfl⟩))).1

/-- Only updates are given more than once. -/
theorem Lives.once (h : Lives held (did ++ more)) (hfirst : done ∈ did) (hagain : done ∈ more) :
    done.2 = .update := by
  have hpairs := (h done.1.id).pairwise
  rw [didAs_append] at hpairs
  exact (List.pairwise_append.mp hpairs).2.2 done (mem_didAs.mpr ⟨hfirst, rfl⟩) done
    (mem_didAs.mpr ⟨hagain, rfl⟩) rfl

/-- **A handle goes away when it is stopped**, and neither before nor after. -/
theorem Lives.stopped_iff (hbefore : Lives held did) (hafter : Lives held' (did ++ more)) :
    (activity, .stop) ∈ more ↔
      (activity ∈ held ∨ (activity, .start (.ok ())) ∈ more) ∧ activity ∉ held' := by
  rw [hbefore.mem_iff, hafter.mem_iff]
  constructor
  · intro hstop
    have hfirst : (activity, .stop) ∉ did := fun hstopped => by
      simpa using hafter.once hstopped hstop
    refine ⟨?_, fun hheld => hheld.2 (List.mem_append_right _ hstop)⟩
    rcases List.mem_append.mp (hafter.started_of_stopped (List.mem_append_right _ hstop)) with
      hstart | hstart
    · exact .inl ⟨hstart, hfirst⟩
    · exact .inr hstart
  · rintro ⟨hstart, hgone⟩
    have hstarted : (activity, .start (.ok ())) ∈ did ++ more := by
      rcases hstart with hstart | hstart
      · exact List.mem_append_left _ hstart.1
      · exact List.mem_append_right _ hstart
    have hstopped : (activity, .stop) ∈ did ++ more := by
      by_contra hleft
      exact hgone ⟨hstarted, hleft⟩
    rcases List.mem_append.mp hstopped with hstop | hstop
    · rcases hstart with hstart | hstart
      · exact absurd hstop hstart.2
      · simpa using hafter.once (hbefore.started_of_stopped hstop) hstart
    · exact hstop

end Worklog
