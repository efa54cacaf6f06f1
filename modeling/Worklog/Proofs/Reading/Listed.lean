import Worklog.Proofs.Reading.Grammar

/-!
# Messages in lists

A payload that is a list can be read as a message, too: its first element is the name of the action,
and the others are the values of the action's keys, in the order of the keys and without their names.
Such a list says what the object says in which these names are spelled out.

* `ListSays` — the messages that lists say.
* `ofBody_items_iff` — values by position are read like values by name, if none is left over.
* `ofJson_list_iff` — which lists are read, and as which messages.
-/

namespace Worklog.Wire

open Json

/-! ## The rule -/

/-- The members of the object that a list stands for. -/
def spelledOut (name : String) (values : List Json) : List (String × Json) :=
  ("action", .string name) :: (keysUnder name).zip values

/-- The message that a list says. It has no more values than its action has keys, and spelled out it
is an object that says this message. -/
inductive ListSays : List Json → Message → Prop where
  | inOrder {name : String} {values : List Json} {message : Message}
      (fits : values.length ≤ (keysUnder name).length)
      (hsaid : Says (fun key => lookup key (spelledOut name values)) message) :
      ListSays (.string name :: values) message

/-- Under the name of an action stand the names of its parts. -/
theorem keysUnder_eq (name : String) : keysUnder name = (Action.ofName name).keys.map Key.name := by
  have hname := ofName_spec name
  cases haction : Action.ofName name with
  | unknown =>
    rw [haction] at hname
    simp only [actionNames, List.mem_cons, List.not_mem_nil, not_or, or_false] at hname
    unfold keysUnder
    split <;> simp_all [Action.keys]
  | _ =>
    rw [haction] at hname
    rw [hname]
    rfl

/-- No action has a part twice. -/
theorem nodup_keys (action : Action) : action.keys.Nodup := by
  cases action <;> decide

theorem tagKey_notMem_keysUnder (name : String) : tagKey ∉ keysUnder name := by
  rw [keysUnder_eq]
  rintro hmem
  obtain ⟨key, -, hkey⟩ := List.mem_map.mp hmem
  cases key <;> exact absurd hkey (by decide)

/-! ## Values by position -/

/-- Values by position fill in keys that are still free like members with the names of the keys. Of
the keys, those without a value must be optional, and no value may be left over. -/
theorem ofItems_eq_ok_iff {action : Action} {all keys : List Key} (hsub : keys ⊆ all)
    (honce : keys.Nodup) {draft after : Draft} (hfree : ∀ key ∈ keys, draft.part key = none)
    {index : Nat} {items : List Json} :
    Draft.ofItems action index keys draft items = .ok (after, [])
      ↔ items.length ≤ keys.length ∧ (∀ key ∈ keys.drop items.length, key.isOptional = true)
        ∧ Draft.ofMembers all draft ((keys.map Key.name).zip items) = .ok after := by
  induction keys generalizing draft index items with
  | nil => cases items <;> simp [Draft.ofItems, Draft.ofMembers]
  | cons key keys ih =>
    obtain ⟨hkey, hsub⟩ := List.cons_subset.mp hsub
    obtain ⟨hnew, honce⟩ := List.nodup_cons.mp honce
    obtain ⟨hfirst, hfree⟩ := List.forall_mem_cons.mp hfree
    cases items with
    | nil =>
      rw [Draft.ofItems]
      cases hoptional : key.isOptional with
      | true =>
        have hrest : Draft.ofItems action (index + 1) keys draft [] = .ok (after, []) ↔ _ :=
          ih hsub honce hfree
        simpa [hoptional] using hrest
      | false => simp [hoptional]
    | cons value items =>
      have hfind : all.find? (fun other => other.name == key.name) = some key :=
        find?_name_eq_some_iff.mpr ⟨hkey, rfl⟩
      have hseen : draft.has key = false := by rw [Draft.has_eq_isSome, hfirst]; rfl
      rw [Draft.ofItems, List.map_cons, List.zip_cons_cons, Draft.ofMembers]
      simp only [hfind, hseen]
      cases hfill : draft.fill key value with
      | error cause => simp
      | ok next =>
        obtain ⟨part, -, -, hother⟩ := Draft.part_of_fill hfill
        have hfree' : ∀ other ∈ keys, next.part other = none := fun other hmem => by
          rw [hother other (ne_of_mem_of_not_mem hmem hnew), hfree other hmem]
        have hrest : Draft.ofItems action (index + 1) keys next items = .ok (after, []) ↔ _ :=
          ih hsub honce hfree'
        simpa using hrest

/-- The parts of a finished draft that are missing may be left out. -/
theorem isOptional_of_finish {draft : Draft} {action : Action} {message : Message}
    (h : draft.finish action = .ok message) {key : Key} (hkey : key ∈ action.keys)
    (hpart : draft.part key = none) : key.isOptional = true := by
  rw [finish_eq_ok_iff] at h
  have hseen : draft.has key = false := by
    rw [Draft.has_eq_isSome, hpart]
    rfl
  cases action with
  | message =>
    obtain ⟨level, hlevel, text, htext, -⟩ := h
    cases key <;> simp_all [Action.keys, Key.isOptional, Draft.has]
  | start =>
    obtain ⟨id, hid, level, hlevel, code, hcode, text, htext, -⟩ := h
    cases key <;> simp_all [Action.keys, Key.isOptional, Draft.has]
  | stop =>
    obtain ⟨id, hid, -⟩ := h
    cases key <;> simp_all [Action.keys, Draft.has]
  | update =>
    obtain ⟨id, hid, code, hcode, -⟩ := h
    cases key <;> simp_all [Action.keys, Key.isOptional, Draft.has]
  | phase =>
    obtain ⟨name, hname, -⟩ := h
    cases key <;> simp_all [Action.keys, Draft.has]
  | unknown => simp [Action.keys] at hkey

/-- A key whose place comes after the last value has no value. -/
theorem under_zip_eq_nil {keys : List Key} (honce : keys.Nodup) {values : List Json} {key : Key}
    (hkey : key ∈ keys.drop values.length) :
    under key.name ((keys.map Key.name).zip values) = [] := by
  induction keys generalizing values with
  | nil => rfl
  | cons first keys ih =>
    obtain ⟨hnew, honce⟩ := List.nodup_cons.mp honce
    cases values with
    | nil => rfl
    | cons value values =>
      have hmem : key ∈ keys := List.mem_of_mem_drop hkey
      have hne : first.name ≠ key.name := fun h => hnew (Key.name_injective h ▸ hmem)
      rw [List.map_cons, List.zip_cons_cons, under_cons_ne hne, ih honce hkey]

theorem ofBody_eq_ok_iff {name : String} {body : Body} {message : Message} :
    Message.ofBody name body = .ok message
      ↔ ∃ draft, body.draft (.ofName name) = .ok draft ∧ draft.finish (.ofName name) = .ok message := by
  unfold Message.ofBody
  cases body.draft (.ofName name) <;> simp

/-- A list is a draft if its values are used up by the parts, in their order. -/
theorem draft_items_eq_ok_iff {action : Action} {values : List Json} {draft : Draft} :
    (Body.items values).draft action = .ok draft
      ↔ Draft.ofItems action 0 action.keys {} values = .ok (draft, []) := by
  rw [Body.draft]
  split
  next h => simp [h]
  next h => simp [h]
  next h => simp [h]

/-- **Values by position are read like values by name**, if there are not too many. -/
theorem ofBody_items_iff {name : String} {values : List Json} {message : Message} :
    Message.ofBody name (.items values) = .ok message
      ↔ values.length ≤ (keysUnder name).length
        ∧ Message.ofBody name (.members ((keysUnder name).zip values)) = .ok message := by
  have hempty (key : Key) : ({} : Draft).part key = none := by cases key <;> rfl
  have hitems {draft : Draft} :
      Draft.ofItems (.ofName name) 0 (Action.ofName name).keys {} values = .ok (draft, []) ↔ _ :=
    ofItems_eq_ok_iff (List.Subset.refl _) (nodup_keys _) fun key _ => hempty key
  rw [keysUnder_eq, List.length_map, ofBody_eq_ok_iff, ofBody_eq_ok_iff]
  constructor
  · rintro ⟨draft, hdraft, hfinish⟩
    obtain ⟨hfits, -, hmembers⟩ := hitems.mp (draft_items_eq_ok_iff.mp hdraft)
    exact ⟨hfits, draft, hmembers, hfinish⟩
  · rintro ⟨hfits, draft, hmembers, hfinish⟩
    refine ⟨draft, draft_items_eq_ok_iff.mpr (hitems.mpr ⟨hfits, fun key hkey => ?_, hmembers⟩),
      hfinish⟩
    -- A key without a value has nothing under its name, so the draft can do without it.
    have hfilled := ofMembers_eq_ok_iff.mp hmembers key
    rw [if_pos (List.mem_of_mem_drop hkey), under_zip_eq_nil (nodup_keys _) hkey] at hfilled
    exact isOptional_of_finish hfinish (List.mem_of_mem_drop hkey) (hfilled.trans (hempty key))

/-! ## Whole lists -/

theorem normalMembers_zip (names : List String) (values : List Json) :
    normalMembers (names.zip values) = names.zip (normalItems values) := by
  rw [normalMembers_eq_map, normalItems_eq_map, List.zip_map_right]
  rfl

/-- Apart from the tag, the spelled-out members are the parts with their values. -/
theorem untagged_spelledOut (name : String) (values : List Json) :
    untagged (spelledOut name values) = (keysUnder name).zip values := by
  rw [untagged, spelledOut, List.filter_cons_of_neg (by simp [tagKey]), List.filter_eq_self]
  rintro ⟨key, value⟩ hmember
  have hkey : key ∈ keysUnder name := (List.of_mem_zip hmember).1
  simpa using ne_of_mem_of_not_mem hkey (tagKey_notMem_keysUnder name)

theorem nodup_spelledOut (name : String) (values : List Json) :
    ((spelledOut name values).map Prod.fst).Nodup := by
  have hnames : (((keysUnder name).zip values).map Prod.fst).Sublist (keysUnder name) := by
    rw [List.zip_eq_zip_take_min, List.map_fst_zip (by simp)]
    exact List.take_sublist _ _
  have honce : (keysUnder name).Nodup := by
    rw [keysUnder_eq]
    exact (nodup_keys _).map fun _ _ => Key.name_injective
  rw [spelledOut, List.map_cons, List.nodup_cons]
  exact ⟨fun hmem => tagKey_notMem_keysUnder name (hnames.subset hmem), honce.sublist hnames⟩

theorem under_tagKey_spelledOut (name : String) (values : List Json) :
    under tagKey (spelledOut name values) = [(tagKey, .string name)] :=
  (under_tagKey_iff (nodup_spelledOut name values)).mpr rfl

/-- **A list says what the object says that it stands for.** -/
theorem ofJson_list_iff {items : List Json} {message : Message} :
    Message.ofJson (Json.list items).normal = .ok message ↔ ListSays items message := by
  have hobject (name : String) (values : List Json) :
      Message.ofBody name (.members ((keysUnder name).zip (normalItems values))) = .ok message
        ↔ Says (fun key => lookup key (spelledOut name values)) message := by
    rw [← ofJson_object_iff (nodup_spelledOut name values), ← normalMembers_zip,
      ← untagged_spelledOut]
    constructor
    · exact ofJson_object (under_tagKey_spelledOut name values)
    · intro h
      obtain ⟨tag, htag, hbody⟩ := ofBody_of_ofJson_object (nodup_spelledOut name values) h
      rw [under_tagKey_spelledOut] at htag
      obtain rfl : name = tag := by simpa using htag
      exact hbody
  constructor
  · intro h
    obtain ⟨name, values, rfl, hbody⟩ := ofBody_of_ofJson_list h
    obtain ⟨hfits, hmembers⟩ := ofBody_items_iff.mp hbody
    rw [normalItems_eq_map, List.length_map] at hfits
    exact .inOrder hfits ((hobject name values).mp hmembers)
  · rintro (@⟨name, values, _, hfits, hsaid⟩)
    have hmembers := (hobject name values).mpr hsaid
    show Message.ofBody name (.items (normalItems values)) = .ok message
    rw [ofBody_items_iff, normalItems_eq_map, List.length_map, ← normalItems_eq_map]
    exact ⟨hfits, hmembers⟩

end Worklog.Wire
