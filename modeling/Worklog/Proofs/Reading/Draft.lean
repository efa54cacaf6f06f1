import Worklog.Proofs.Reading.Sorted
import Worklog.Wire.Draft

/-!
# Drafts, part by part

A draft has one part for each key. What the members of an object make of a draft can be said for
each key on its own: nothing, if no member has its name; the meaning of the value, if one has; and
the members are refused if several have. So neither the order of the members matters, nor what stands
under a name that is not among the keys.

* `ofMembers_eq_ok_iff` — what the members of an object make of a draft.
* `length_under_le_of_ofBody` — a body that says something has no key twice.
* `ofBody_eq_ok_of_under` — a message depends on the members under each of its keys only.
-/

namespace Worklog.Wire

open Json

/-! ## Parts -/

/-- What the value of a key means. -/
inductive Part where
  | level (value : Level)
  | text (value : String)
  | optionalText (value : Option String)
  | word (value : UInt64)
  | list (values : Option (List Json))

def Key.meaning (key : Key) (value : Json) : Except Mismatch Part :=
  match key with
  | .level => (asLevel value).map .level
  | .message | .text | .phase => (asText value).map .text
  | .raw => (asOptionalText value).map .optionalText
  | .id | .type | .parent => (asWord value).map .word
  | .fields => (asList value).map .list

/-- The part of a draft that belongs to a key, if that has been seen. -/
def Draft.part (draft : Draft) : Key → Option Part
  | .level => draft.level.map .level
  | .message => draft.message.map .text
  | .raw => draft.raw.map .optionalText
  | .id => draft.id.map .word
  | .type => draft.type.map .word
  | .text => draft.text.map .text
  | .parent => draft.parent.map .word
  | .fields => draft.fields.map .list
  | .phase => draft.phase.map .text

/-- Different parts of a message have different names. -/
theorem Key.name_injective {a b : Key} (h : a.name = b.name) : a = b := by
  cases a <;> cases b <;> first | rfl | simp [Key.name] at h

theorem Draft.has_eq_isSome (draft : Draft) (key : Key) :
    draft.has key = (draft.part key).isSome := by
  cases key <;> simp [Draft.has, Draft.part]

/-- A draft is known by its parts. -/
theorem Draft.eq_of_part {a b : Draft} (h : ∀ key, a.part key = b.part key) : a = b := by
  have hlevel : a.level = b.level :=
    (Option.map_inj_right fun _ _ => Part.level.inj).mp (h .level)
  have hmessage : a.message = b.message :=
    (Option.map_inj_right fun _ _ => Part.text.inj).mp (h .message)
  have hraw : a.raw = b.raw :=
    (Option.map_inj_right fun _ _ => Part.optionalText.inj).mp (h .raw)
  have hid : a.id = b.id := (Option.map_inj_right fun _ _ => Part.word.inj).mp (h .id)
  have htype : a.type = b.type := (Option.map_inj_right fun _ _ => Part.word.inj).mp (h .type)
  have htext : a.text = b.text := (Option.map_inj_right fun _ _ => Part.text.inj).mp (h .text)
  have hparent : a.parent = b.parent :=
    (Option.map_inj_right fun _ _ => Part.word.inj).mp (h .parent)
  have hfields : a.fields = b.fields :=
    (Option.map_inj_right fun _ _ => Part.list.inj).mp (h .fields)
  have hphase : a.phase = b.phase := (Option.map_inj_right fun _ _ => Part.text.inj).mp (h .phase)
  cases a
  cases b
  simp_all only

/-! ## Filling in one key -/

theorem map_eq_ok_iff {α β ε : Type} {f : α → β} {e : Except ε α} {b : β} :
    e.map f = .ok b ↔ ∃ a, e = .ok a ∧ f a = b := by
  cases e <;> simp [Except.map]

/-- Filling in a key sets its part and no other. -/
theorem Draft.part_of_fill {draft after : Draft} {key : Key} {value : Json}
    (h : draft.fill key value = .ok after) :
    ∃ part, key.meaning value = .ok part ∧ after.part key = some part
      ∧ ∀ other, other ≠ key → after.part other = draft.part other := by
  cases key
  all_goals
    obtain ⟨x, hx, rfl⟩ := map_eq_ok_iff.mp h
    refine ⟨_, map_eq_ok_iff.mpr ⟨x, hx, rfl⟩, rfl, fun other hother => ?_⟩
    cases other <;> first | rfl | exact absurd rfl hother

/-- A value that means something for a part can always be put into the draft. -/
theorem Draft.exists_fill {key : Key} {value : Json} {part : Part}
    (h : key.meaning value = .ok part) (draft : Draft) :
    ∃ after, draft.fill key value = .ok after := by
  cases key
  all_goals
    obtain ⟨x, hx, -⟩ := map_eq_ok_iff.mp h
    exact ⟨_, map_eq_ok_iff.mpr ⟨x, hx, rfl⟩⟩

/-! ## The members of an object -/

/-- What the members under one key make of its part. -/
def Filled (key : Key) (before after : Option Part) : List (String × Json) → Prop
  | [] => after = before
  | [member] => before = none ∧ ∃ part, key.meaning member.2 = .ok part ∧ after = some part
  | _ :: _ :: _ => False

/-- What the members of an object make of a draft. -/
def Fills (keys : List Key) (before after : Draft) (members : List (String × Json)) : Prop :=
  ∀ key, Filled key (before.part key) (after.part key)
    (if key ∈ keys then under key.name members else [])

theorem find?_name_eq_some_iff {keys : List Key} {name : String} {key : Key} :
    keys.find? (fun key => key.name == name) = some key ↔ key ∈ keys ∧ key.name = name := by
  constructor
  · intro h
    exact ⟨List.mem_of_find?_eq_some h, by simpa using List.find?_some h⟩
  · rintro ⟨hmem, rfl⟩
    cases h : keys.find? (fun other => other.name == key.name) with
    | none => simpa using List.find?_eq_none.mp h key hmem
    | some other =>
      have hname : other.name = key.name := by simpa using List.find?_some h
      rw [Key.name_injective hname]

theorem find?_name_eq_none_iff {keys : List Key} {name : String} :
    keys.find? (fun key => key.name == name) = none ↔ ∀ key ∈ keys, key.name ≠ name := by
  simp [List.find?_eq_none]

/-- A member under no key changes nothing. -/
theorem fills_cons_of_unknown {keys : List Key} {name : String}
    (h : ∀ key ∈ keys, key.name ≠ name) (before after : Draft) (value : Json)
    (rest : List (String × Json)) :
    Fills keys before after ((name, value) :: rest) ↔ Fills keys before after rest := by
  refine forall_congr' fun key => ?_
  by_cases hkey : key ∈ keys
  · rw [if_pos hkey, if_pos hkey, under_cons_ne (Ne.symm (h key hkey))]
  · rw [if_neg hkey, if_neg hkey]

/-- A member under a key sets the part of that key, which must have been free. -/
theorem fills_cons_of_fill {keys : List Key} {key : Key} (hkey : key ∈ keys)
    {before next : Draft} {value : Json} (hfree : before.part key = none)
    (hfill : before.fill key value = .ok next) (after : Draft) (rest : List (String × Json)) :
    Fills keys before after ((key.name, value) :: rest) ↔ Fills keys next after rest := by
  obtain ⟨part, hmeaning, hpart, hother⟩ := Draft.part_of_fill hfill
  refine forall_congr' fun other => ?_
  by_cases hsame : other = key
  · subst hsame
    rw [if_pos hkey, if_pos hkey, under_cons_self, hpart, hfree]
    cases under other.name rest with
    | nil => simp [Filled, hmeaning]
    | cons member more => cases more <;> simp [Filled]
  · have hname : key.name ≠ other.name := fun h => hsame (Key.name_injective h.symm)
    rw [under_cons_ne hname, hother other hsame]

/-- **What the members of an object make of a draft.** -/
theorem ofMembers_eq_ok_iff {keys : List Key} {draft after : Draft}
    {members : List (String × Json)} :
    Draft.ofMembers keys draft members = .ok after ↔ Fills keys draft after members := by
  induction members generalizing draft with
  | nil =>
    simp only [Draft.ofMembers, Except.ok.injEq, Fills]
    constructor
    · rintro rfl key
      split <;> rfl
    · intro h
      refine Draft.eq_of_part fun key => ?_
      have hkey := h key
      split at hkey
      · exact hkey.symm
      · exact hkey.symm
  | cons member rest ih =>
    obtain ⟨name, value⟩ := member
    rw [Draft.ofMembers]
    split
    · next hunknown =>
      rw [ih, fills_cons_of_unknown (find?_name_eq_none_iff.mp hunknown)]
    next key hfind =>
    obtain ⟨hkey, rfl⟩ := find?_name_eq_some_iff.mp hfind
    split
    · -- The part of the key is taken already.
      next hseen =>
      simp only [reduceCtorEq, false_iff]
      intro h
      have hfilled := h key
      rw [if_pos hkey, under_cons_self] at hfilled
      rw [Draft.has_eq_isSome] at hseen
      cases hrest : under key.name rest with
      | nil =>
        rw [hrest] at hfilled
        rw [hfilled.1] at hseen
        simp at hseen
      | cons member more =>
        rw [hrest] at hfilled
        exact hfilled
    next hnew =>
    have hfree : draft.part key = none := by
      rw [Draft.has_eq_isSome] at hnew
      simpa using hnew
    split
    · -- The value has no meaning under the key.
      next cause hfill =>
      simp only [reduceCtorEq, false_iff]
      intro h
      have hfilled := h key
      rw [if_pos hkey, under_cons_self] at hfilled
      cases hrest : under key.name rest with
      | nil =>
        rw [hrest] at hfilled
        obtain ⟨-, part, hmeaning, -⟩ := hfilled
        obtain ⟨next, hnext⟩ := Draft.exists_fill hmeaning draft
        rw [hfill] at hnext
        simp at hnext
      | cons member more =>
        rw [hrest] at hfilled
        exact hfilled
    next next hfill =>
    rw [ih, fills_cons_of_fill hkey hfree hfill]

/-! ## The body of an object -/

/-- No part is filled twice. -/
theorem Filled.length_le {key : Key} {before after : Option Part} {members : List (String × Json)}
    (h : Filled key before after members) : members.length ≤ 1 := by
  match members, h with
  | [], _ => exact Nat.zero_le 1
  | [_], _ => exact Nat.le_refl 1

/-- A body that says something has no key twice. -/
theorem length_under_le_of_ofBody {name : String} {members : List (String × Json)}
    {message : Message} (hbody : Message.ofBody name (.members members) = .ok message) :
    ∀ key ∈ (Action.ofName name).keys, (under key.name members).length ≤ 1 := by
  intro key hkey
  unfold Message.ofBody at hbody
  split at hbody
  next => simp at hbody
  next draft hdraft =>
    have hfilled := ofMembers_eq_ok_iff.mp hdraft key
    rw [if_pos hkey] at hfilled
    exact hfilled.length_le

/-- A message depends on the members under each of its keys only. -/
theorem ofBody_eq_ok_of_under {name : String} {members others : List (String × Json)}
    (h : ∀ key ∈ (Action.ofName name).keys, under key.name others = under key.name members)
    {message : Message} (hbody : Message.ofBody name (.members members) = .ok message) :
    Message.ofBody name (.members others) = .ok message := by
  unfold Message.ofBody at hbody ⊢
  split at hbody
  next => simp at hbody
  next draft hdraft =>
    have hfills := ofMembers_eq_ok_iff.mp hdraft
    have hothers : Body.draft (Action.ofName name) (.members others) = .ok draft := by
      refine ofMembers_eq_ok_iff.mpr fun key => ?_
      have hkey := hfills key
      by_cases hmem : key ∈ (Action.ofName name).keys
      · rw [if_pos hmem] at hkey ⊢
        rw [h key hmem]
        exact hkey
      · rw [if_neg hmem] at hkey ⊢
        exact hkey
    rw [hothers]
    exact hbody

end Worklog.Wire
