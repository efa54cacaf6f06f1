import Worklog.Wire.Draft
import Worklog.Wire.Marker

/-!
# Messages from text

A payload can be read directly from its text, or as a value first. Both ways end in
`Message.ofBody`. They differ in what they notice: the text shows each member in its place, also one
that is repeated, while the value has its members sorted and the last of each name.

* `objectPayload_shrinks`, `listPayload_shrinks` — progress of the parts.
-/

namespace Worklog.Wire

open Json

/-! ## Action and body -/

/-- What has been read of an object: its action, and its other members, the latest first. -/
structure Tagged where
  name : Option String := none
  before : List (String × Json) := []

/-- A value inside a payload, in normal form. -/
def innerValue : Reader Json := (value (maxDepth - 1)).map normal

def tagReader : Reader String := typed (Token.asString "variant identifier")

/-- A member of a payload. Only the action may not be repeated. -/
def Tagged.member (tagged : Tagged) (name : String) : Except Mismatch (Reader Tagged) :=
  if name = tagKey then
    match tagged.name with
    | some _ => .error (.repeated tagKey)
    | none => .ok (tagReader.map fun tag => { tagged with name := some tag })
  else .ok (innerValue.map fun value => { tagged with before := (name, value) :: tagged.before })

/-- The action and the body of an object, after its opening bracket. -/
def objectPayload (text : List Char) : Except Fault ((String × Body) × List Char) :=
  match members Tagged.member {} true text with
  | .error fault => .error fault
  | .ok (tagged, rest) =>
    match tagged.name with
    | none => .error ⟨.mismatch (.missing tagKey), bytes rest⟩
    | some name => .ok ((name, .members tagged.before.reverse), rest)

/-- The action and the body of a list, after its opening bracket. -/
def listPayload (text : List Char) : Except Fault ((String × Body) × List Char) :=
  match item true text with
  | .error fault => .error fault
  | .ok (false, rest) => .error ⟨.mismatch (.missing tagKey), bytes rest.tail⟩
  | .ok (true, rest) =>
    match tagReader.read rest with
    | .error fault => .error fault
    | .ok (name, rest) =>
      match elements innerValue false rest with
      | .error fault => .error fault
      | .ok (items, rest) => .ok ((name, .items items), rest)

/-- The action and the body of a payload. -/
def payload (text : List Char) : Except Fault ((String × Body) × List Char) :=
  match token text with
  | .error fault => .error fault
  | .ok (t, rest) =>
    match t.scalar? with
    | some _ => .error ⟨.mismatch (.type t expectedPayload), bytes rest⟩
    | none => if t = .openList then listPayload rest else objectPayload rest

theorem objectPayload_shrinks {text rest : List Char} {result : String × Body}
    (h : objectPayload text = .ok (result, rest)) : rest.length < text.length := by
  unfold objectPayload at h
  split at h
  next => simp at h
  next hmembers =>
    split at h
    next => simp at h
    next =>
      simp only [Except.ok.injEq, Prod.mk.injEq] at h
      obtain ⟨-, rfl⟩ := h
      exact members_shrinks hmembers

theorem listPayload_shrinks {text rest : List Char} {result : String × Body}
    (h : listPayload text = .ok (result, rest)) : rest.length < text.length := by
  unfold listPayload at h
  split at h
  next => simp at h
  next => simp at h
  next hitem =>
    split at h
    next => simp at h
    next htag =>
      split at h
      next => simp at h
      next helements =>
        have := item_le hitem
        have := tagReader.shrinks htag
        have := elements_shrinks helements
        simp only [Except.ok.injEq, Prod.mk.injEq] at h
        obtain ⟨-, rfl⟩ := h
        omega

def payloadReader : Reader (String × Body) where
  read := payload
  shrinks {text result rest} h := by
    unfold payload at h
    split at h
    next => simp at h
    next ht =>
      have := token_shrinks ht
      split at h
      next => simp at h
      next =>
        split at h
        · have := listPayload_shrinks h
          omega
        · have := objectPayload_shrinks h
          omega

/-- The message that a payload says. -/
def Message.ofPayload (text : String) : Except Problem Message :=
  payloadReader.parseAs (fun (name, body) => ofBody name body) text

/-- The message that a line carries, unless it is plain text. -/
def Message.ofLine? (line : String) : Option (Except Problem Message) :=
  (payload? line).map ofPayload

/-! ## Parts of messages from text -/

/-- A level by itself. -/
def parseLevel (text : String) : Except Problem Level :=
  (typed Token.asByte).parseAs levelOfRank text

/-- A list of values by itself, or none. -/
def listReader : Reader (Option (List Json)) where
  read text := match token text with
    | .error fault => .error fault
    | .ok (.null, rest) => .ok (none, rest)
    | .ok (.openList, rest) =>
      match elements innerValue true rest with
      | .error fault => .error fault
      | .ok (items, rest) => .ok (some items, rest)
    | .ok (t, rest) =>
      .error ⟨.mismatch (.type t "a sequence"),
        if t.scalar?.isSome then bytes rest else bytes rest + 1⟩
  shrinks {text items rest} h := by
    split at h
    next => simp at h
    next ht =>
      have := token_shrinks ht
      simp only [Except.ok.injEq, Prod.mk.injEq] at h
      obtain ⟨-, rfl⟩ := h
      exact this
    next ht =>
      have := token_shrinks ht
      split at h
      next => simp at h
      next helements =>
        have := elements_shrinks helements
        simp only [Except.ok.injEq, Prod.mk.injEq] at h
        obtain ⟨-, rfl⟩ := h
        omega
    next => simp at h

def parseFields (text : String) : Except Problem (Option (List Json)) := listReader.parse text

end Worklog.Wire
