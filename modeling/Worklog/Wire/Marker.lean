/-!
# Marked lines

A line that carries a message starts with a marker; what follows the marker is the payload. All
other lines are plain text.

* `payload?_eq_some_iff` — a line has a payload iff it is that payload, marked.
-/

namespace Worklog.Wire

def marker : String := "@nix "

def mark (payload : String) : String := marker ++ payload

/-- What follows a word at the front of a text. -/
def after? : List Char → List Char → Option (List Char)
  | [], text => some text
  | _ :: _, [] => none
  | w :: word, c :: rest => if c = w then after? word rest else none

def payload? (line : String) : Option String :=
  (after? marker.toList line.toList).map String.ofList

theorem after?_eq_some_iff {word text rest : List Char} :
    after? word text = some rest ↔ text = word ++ rest := by
  induction word generalizing text with
  | nil => simp [after?]
  | cons w word ih =>
    cases text with
    | nil => simp [after?]
    | cons c text =>
      rw [after?]
      split
      next h => simp [h, ih]
      next h => simp [h]

theorem payload?_eq_some_iff {line payload : String} :
    payload? line = some payload ↔ line = mark payload := by
  simp only [payload?, Option.map_eq_some_iff, after?_eq_some_iff, mark]
  constructor
  · rintro ⟨rest, h, rfl⟩
    apply String.toList_injective
    simp [h]
  · rintro rfl
    exact ⟨payload.toList, by simp, by simp⟩

@[simp] theorem payload?_mark (payload : String) : payload? (mark payload) = some payload :=
  payload?_eq_some_iff.2 rfl

end Worklog.Wire
