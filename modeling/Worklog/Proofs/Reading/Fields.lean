import Worklog.Field

/-!
# Values that are fields

A list of values is decoded as a whole: if all of them are fields, as these, and otherwise the first
value that is none is named by its kind, whatever comes after it.

* `decode_eq_error_iff` — a list is refused for its first value that is no field.
* `exists_firstRefused_iff` — there is such a value iff not all values are fields.
-/

namespace Worklog.Field

/-- The values that fields are sent as. -/
inductive IsField : Json → Prop where
  | natural (value : UInt64) : IsField (.number (.natural value))
  | text (value : String) : IsField (.string value)

/-- The values that are no fields, by their kinds. -/
inductive Refused : Json → Unsupported → Prop where
  | negative (magnitude : UInt64) : Refused (.number (.negative magnitude)) .signedOrFractional
  | float (bits : UInt64) : Refused (.number (.float bits)) .signedOrFractional
  | null : Refused .null .null
  | bool (value : Bool) : Refused (.bool value) .boolean
  | list (items : List Json) : Refused (.list items) .array
  | object (members : List (String × Json)) : Refused (.object members) .object

/-- Among the values the first one that is no field has this kind. -/
def FirstRefused (values : List Json) (kind : Unsupported) : Prop :=
  ∃ before value after, values = before ++ value :: after
    ∧ (∀ v ∈ before, IsField v) ∧ Refused value kind

/-! ## One value -/

/-- A value is a field if it is what the field is written as. -/
theorem ofJson_eq_ok_iff {value : Json} {field : Field} :
    ofJson value = .ok field ↔ value = field.toJson := by
  constructor
  · exact fun h => (toJson_of_ofJson h).symm
  · rintro rfl
    exact ofJson_toJson field

/-- It is refused for being of a kind that no field is of. -/
theorem ofJson_eq_error_iff {value : Json} {kind : Unsupported} :
    ofJson value = .error kind ↔ Refused value kind := by
  constructor
  · intro h
    unfold ofJson at h
    split at h
    · simp at h
    · next number hnatural =>
      obtain rfl := Except.error.inj h
      cases number with
      | natural value => exact absurd rfl (hnatural value)
      | negative magnitude => exact .negative magnitude
      | float bits => exact .float bits
    · simp at h
    all_goals
      obtain rfl := Except.error.inj h
      constructor
  · intro h
    cases h <;> rfl

theorem exists_ofJson_eq_ok_iff {value : Json} :
    (∃ field, ofJson value = .ok field) ↔ IsField value := by
  constructor
  · rintro ⟨field, h⟩
    rw [← toJson_of_ofJson h]
    cases field with
    | natural value => exact .natural value
    | text value => exact .text value
  · intro h
    cases h with
    | natural value => exact ⟨_, rfl⟩
    | text value => exact ⟨_, rfl⟩

/-- A value is a field, or it is refused. -/
theorem not_isField_iff {value : Json} : ¬ IsField value ↔ ∃ kind, Refused value kind := by
  rw [← exists_ofJson_eq_ok_iff]
  constructor
  · intro h
    cases hvalue : ofJson value with
    | error kind => exact ⟨kind, ofJson_eq_error_iff.mp hvalue⟩
    | ok field => exact absurd ⟨field, hvalue⟩ h
  · rintro ⟨kind, hrefused⟩ ⟨field, hfield⟩
    rw [ofJson_eq_error_iff.mpr hrefused] at hfield
    simp at hfield

/-! ## Lists of values -/

theorem firstRefused_nil (kind : Unsupported) : ¬ FirstRefused [] kind := by
  rintro ⟨before, value, after, h, -⟩
  simp at h

/-- The first bad element is the first element, or that is good and a first bad one is after it. -/
theorem exists_first_cons_iff {α : Type} {good bad : α → Prop} {a : α} {as : List α} :
    (∃ before b after, a :: as = before ++ b :: after ∧ (∀ other ∈ before, good other) ∧ bad b)
      ↔ bad a ∨ (good a
        ∧ ∃ before b after, as = before ++ b :: after ∧ (∀ other ∈ before, good other) ∧ bad b) := by
  constructor
  · rintro ⟨before, b, after, h, hbefore, hb⟩
    rcases List.cons_eq_append_iff.mp h with ⟨rfl, hcons⟩ | ⟨before', rfl, has⟩
    · obtain ⟨rfl, -⟩ := List.cons.inj hcons
      exact .inl hb
    · obtain ⟨hgood, hothers⟩ := List.forall_mem_cons.mp hbefore
      exact .inr ⟨hgood, before', b, after, has, hothers, hb⟩
  · rintro (hbad | ⟨hgood, before, b, after, rfl, hbefore, hb⟩)
    · exact ⟨[], a, as, rfl, by simp, hbad⟩
    · exact ⟨a :: before, b, after, rfl, List.forall_mem_cons.mpr ⟨hgood, hbefore⟩, hb⟩

theorem firstRefused_cons_iff {value : Json} {values : List Json} {kind : Unsupported} :
    FirstRefused (value :: values) kind
      ↔ Refused value kind ∨ (IsField value ∧ FirstRefused values kind) :=
  exists_first_cons_iff

/-- **Values are refused for the first of them that is.** -/
theorem decodeList_eq_error_iff {values : List Json} {kind : Unsupported} :
    decodeList values = .error kind ↔ FirstRefused values kind := by
  induction values with
  | nil => simp [decodeList, firstRefused_nil]
  | cons value values ih =>
    rw [firstRefused_cons_iff, ← ih, ← ofJson_eq_error_iff, ← exists_ofJson_eq_ok_iff, decodeList]
    cases ofJson value with
    | error other => simp
    | ok field => cases decodeList values <;> simp

/-- **A list is refused for its first value that is no field.** -/
theorem decode_eq_error_iff {values : Option (List Json)} {kind : Unsupported} :
    decode values = .error kind ↔ FirstRefused (values.getD []) kind :=
  decodeList_eq_error_iff

theorem exists_firstRefused_iff {values : List Json} :
    (∃ kind, FirstRefused values kind) ↔ ∃ v ∈ values, ¬ IsField v := by
  induction values with
  | nil => simp [firstRefused_nil]
  | cons value values ih =>
    have hfirst : (∃ kind, FirstRefused (value :: values) kind)
        ↔ ¬ IsField value ∨ IsField value ∧ ∃ v ∈ values, ¬ IsField v := by
      rw [not_isField_iff, ← ih, ← exists_and_left, ← exists_or]
      exact exists_congr fun kind => firstRefused_cons_iff
    rw [hfirst]
    by_cases hfield : IsField value
    · simp [hfield]
    · simp [hfield]

/-- **A list is accepted iff all of its values are fields.** -/
theorem exists_decodeList_eq_ok_iff {values : List Json} :
    (∃ fields, decodeList values = .ok fields) ↔ ∀ v ∈ values, IsField v := by
  induction values with
  | nil => simp [decodeList]
  | cons value values ih =>
    rw [List.forall_mem_cons, ← ih, ← exists_ofJson_eq_ok_iff, decodeList]
    cases ofJson value with
    | error kind => simp
    | ok field => cases decodeList values <;> simp

end Worklog.Field
