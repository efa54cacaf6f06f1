import Worklog.Json.Normal
import Worklog.Wire.Message

/-!
# Messages from values

A payload is an object whose member `action` names what it says, or a list whose first element does.
The rest is the body; its values are those of the action's keys, by name or by position. A draft
collects them, and knows which keys have been seen.
-/

namespace Worklog.Wire

/-! ## The meaning of a value -/

open Json

def asTag (value : Json) : Except Mismatch String := value.first.asString "variant identifier"

def asText (value : Json) : Except Mismatch String := value.first.asString "a string"

def asOptionalText (value : Json) : Except Mismatch (Option String) :=
  value.first.optional (Token.asString "a string")

def asWord (value : Json) : Except Mismatch UInt64 := value.first.asWord

/-- The level with a rank. -/
def levelOfRank (n : UInt64) : Except Mismatch Level :=
  match Level.ofRank? n.toNat with
  | some level => .ok level
  | none => .error (.choice n.toNat (Level.all.map Level.rank))

def asLevel (value : Json) : Except Mismatch Level :=
  match value.first.asByte with
  | .error cause => .error cause
  | .ok n => levelOfRank n

/-- A list of values, or none. -/
def asList : Json → Except Mismatch (Option (List Json))
  | .null => .ok none
  | .list items => .ok (some items)
  | value => .error (.type value.first "a sequence")

/-! ## Drafts -/

/-- What is known of a message while its body is read. The outer option of each part says whether
its key has been seen. -/
structure Draft where
  level : Option Level := none
  message : Option String := none
  raw : Option (Option String) := none
  id : Option UInt64 := none
  type : Option UInt64 := none
  text : Option String := none
  parent : Option UInt64 := none
  fields : Option (Option (List Json)) := none
  phase : Option String := none

namespace Draft

def has (draft : Draft) : Key → Bool
  | .level => draft.level.isSome
  | .message => draft.message.isSome
  | .raw => draft.raw.isSome
  | .id => draft.id.isSome
  | .type => draft.type.isSome
  | .text => draft.text.isSome
  | .parent => draft.parent.isSome
  | .fields => draft.fields.isSome
  | .phase => draft.phase.isSome

/-- Takes the value of a key. -/
def fill (draft : Draft) (key : Key) (value : Json) : Except Mismatch Draft :=
  match key with
  | .level => (asLevel value).map fun x => { draft with level := some x }
  | .message => (asText value).map fun x => { draft with message := some x }
  | .raw => (asOptionalText value).map fun x => { draft with raw := some x }
  | .id => (asWord value).map fun x => { draft with id := some x }
  | .type => (asWord value).map fun x => { draft with type := some x }
  | .text => (asText value).map fun x => { draft with text := some x }
  | .parent => (asWord value).map fun x => { draft with parent := some x }
  | .fields => (asList value).map fun x => { draft with fields := some x }
  | .phase => (asText value).map fun x => { draft with phase := some x }

/-- Takes the members of an object in their order. Members that are not among the keys are passed
over; a key may come once. -/
def ofMembers (keys : List Key) : Draft → List (String × Json) → Except Mismatch Draft
  | draft, [] => .ok draft
  | draft, (name, value) :: rest =>
    match keys.find? fun key => key.name == name with
    | none => ofMembers keys draft rest
    | some key =>
      if draft.has key then .error (.repeated name)
      else match draft.fill key value with
        | .error cause => .error cause
        | .ok draft => ofMembers keys draft rest

/-- Takes the elements of a list, one for each key; only optional keys may be left without one.
The elements left over are returned. -/
def ofItems (action : Action) (index : Nat) :
    List Key → Draft → List Json → Except Mismatch (Draft × List Json)
  | [], draft, items => .ok (draft, items)
  | key :: keys, draft, [] =>
    if key.isOptional then ofItems action (index + 1) keys draft []
    else .error (.length index action.expected)
  | key :: keys, draft, value :: items =>
    match draft.fill key value with
    | .error cause => .error cause
    | .ok draft => ofItems action (index + 1) keys draft items

/-- The value of a key that must have been seen. -/
def need {α : Type} (key : Key) : Option α → Except Mismatch α
  | none => .error (.missing key.name)
  | some value => .ok value

/-- The message, once its body has been read. Missing keys are noticed in the order of the keys. -/
def finish (draft : Draft) : Action → Except Mismatch Message
  | .message => do
    let level ← need .level draft.level
    let text ← need .message draft.message
    pure (.message level text draft.raw.join)
  | .start => do
    let id ← need .id draft.id
    let level ← need .level draft.level
    let type ← need .type draft.type
    let text ← need .text draft.text
    pure (.start id level (.ofCode type) text (draft.parent.getD 0) draft.fields.join)
  | .stop => do
    let id ← need .id draft.id
    pure (.stop id)
  | .update => do
    let id ← need .id draft.id
    let type ← need .type draft.type
    pure (.update id (.ofCode type) draft.fields.join)
  | .phase => do
    let phase ← need .phase draft.phase
    pure (.phase phase)
  | .unknown => pure .unknown

end Draft

/-! ## Bodies -/

/-- What a payload holds beside its action. -/
inductive Body where
  | members (members : List (String × Json))
  | items (items : List Json)

def Body.draft (action : Action) : Body → Except Mismatch Draft
  | members pairs => Draft.ofMembers action.keys {} pairs
  | items values =>
    match Draft.ofItems action 0 action.keys {} values with
    | .error cause => .error cause
    | .ok (draft, []) => .ok draft
    | .ok (_, _ :: _) =>
      .error (.length values.length (Action.elements action.keys.length ++ " in sequence"))

/-- The message that a body says under the name of an action. -/
def Message.ofBody (name : String) (body : Body) : Except Mismatch Message :=
  match body.draft (.ofName name) with
  | .error cause => .error cause
  | .ok draft => draft.finish (.ofName name)

def tagKey : String := "action"

def expectedPayload : String := "internally tagged enum InternalLog"

/-! ## Messages from values -/

/-- The message that a value in normal form says. -/
def Message.ofJson : Json → Except Mismatch Message
  | .object members =>
    match Json.lookup tagKey members with
    | none => .error (.missing tagKey)
    | some tag =>
      match asTag tag with
      | .error cause => .error cause
      | .ok name => ofBody name (.members (members.filter fun member => member.1 ≠ tagKey))
  | .list [] => .error (.missing tagKey)
  | .list (tag :: items) =>
    match asTag tag with
    | .error cause => .error cause
    | .ok name => ofBody name (.items items)
  | value => .error (.type value.first expectedPayload)

end Worklog.Wire
