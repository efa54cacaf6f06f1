import Worklog.Kind
import Worklog.Json.Normal
import Worklog.Json.Writer

/-!
# Fields

The data that comes with an event: natural numbers and texts, in an order that has a meaning for
each kind of event. On the wire the fields are a list of values; a value of any other kind is
refused, and the first one that is refused is named.

* `Field.ofJson_toJson`, `Field.decodeList_map_toJson` — fields survive being sent.
* `Field.decodeList_eq_ok_iff` — the lists that are accepted are those that fields are sent as.
-/

namespace Worklog

inductive Field where
  | natural (value : UInt64)
  | text (value : String)
deriving DecidableEq, Repr, Inhabited

namespace Field

def natural? : Field → Option UInt64
  | natural value => some value
  | text _ => none

def text? : Field → Option String
  | natural _ => none
  | text value => some value

/-- What a field shows of itself. -/
def display : Field → String
  | natural value => Nat.repr value.toNat
  | text value => value

/-- A kind of activity as a field. -/
def ofActivityKind (kind : ActivityKind) : Field := natural kind.code

/-! ## On the wire -/

/-- The kinds of values that are no field. -/
inductive Unsupported where
  | signedOrFractional
  | null
  | boolean
  | array
  | object
deriving DecidableEq, Repr

def Unsupported.message : Unsupported → String
  | signedOrFractional => "unsupported JSON type signed or fractional number"
  | null => "unsupported JSON type null"
  | boolean => "unsupported JSON type boolean"
  | array => "unsupported JSON type array"
  | object => "unsupported JSON type object"

def ofJson : Json → Except Unsupported Field
  | .number (.natural value) => .ok (natural value)
  | .number _ => .error .signedOrFractional
  | .string value => .ok (text value)
  | .null => .error .null
  | .bool _ => .error .boolean
  | .list _ => .error .array
  | .object _ => .error .object

def toJson : Field → Json
  | natural value => .number (.natural value)
  | text value => .string value

/-- The fields that a list of values stands for. -/
def decodeList : List Json → Except Unsupported (List Field)
  | [] => .ok []
  | v :: rest =>
    match ofJson v with
    | .error kind => .error kind
    | .ok field =>
      match decodeList rest with
      | .error kind => .error kind
      | .ok fields => .ok (field :: fields)

/-- The fields of an event. An event without a list has none. -/
def decode (values : Option (List Json)) : Except Unsupported (List Field) :=
  decodeList (values.getD [])

@[simp] theorem ofJson_toJson (field : Field) : ofJson field.toJson = .ok field := by
  cases field <;> rfl

theorem toJson_of_ofJson {value : Json} {field : Field} (h : ofJson value = .ok field) :
    field.toJson = value := by
  unfold ofJson at h
  split at h <;> simp_all <;> subst h <;> rfl

@[simp] theorem decodeList_map_toJson (fields : List Field) :
    decodeList (fields.map toJson) = .ok fields := by
  induction fields with
  | nil => rfl
  | cons field rest ih => simp [decodeList, ih]

theorem decodeList_eq_ok_iff {values : List Json} {fields : List Field} :
    decodeList values = .ok fields ↔ values = fields.map toJson := by
  constructor
  · intro h
    induction values generalizing fields with
    | nil => simp [decodeList] at h; simp [← h]
    | cons v rest ih =>
      rw [decodeList] at h
      split at h
      next => simp at h
      next field hfield =>
        split at h
        next => simp at h
        next hrest =>
          simp only [Except.ok.injEq] at h
          subst h
          simp [ih hrest, toJson_of_ofJson hfield]
  · rintro rfl
    exact decodeList_map_toJson fields

end Field

end Worklog
