import Worklog.Json.Document

/-!
# Normal values

Two texts can write the same data with the members of an object in another order, or with a member
that a later one of the same name replaces. The normal form of a value keeps the last member of each
name, sorted by name.
-/

namespace Worklog.Json

section

variable {α : Type}

/-- The value that a name stands for: that of the first member with this name. -/
def lookup (name : String) : List (String × α) → Option α
  | [] => none
  | (k, v) :: rest => if k = name then some v else lookup name rest

/-- Adds a member to members sorted by name, in place of the one of the same name. -/
def put (name : String) (value : α) : List (String × α) → List (String × α)
  | [] => [(name, value)]
  | (k, v) :: rest =>
    if name = k then (name, value) :: rest
    else if name < k then (name, value) :: (k, v) :: rest
    else (k, v) :: put name value rest

/-- The last member of each name, sorted by name. -/
def sorted (members : List (String × α)) : List (String × α) :=
  members.foldl (fun before member => put member.1 member.2 before) []

end

mutual

def normal : Json → Json
  | null => null
  | bool value => bool value
  | number value => number value
  | string value => string value
  | list items => list (normalItems items)
  | object members => object (sorted (normalMembers members))

def normalItems : List Json → List Json
  | [] => []
  | v :: rest => v.normal :: normalItems rest

def normalMembers : List (String × Json) → List (String × Json)
  | [] => []
  | (name, v) :: rest => (name, v.normal) :: normalMembers rest

end

theorem normalItems_eq_map (items : List Json) : normalItems items = items.map normal := by
  induction items with
  | nil => rfl
  | cons v rest ih => rw [normalItems, ih, List.map_cons]

/-- The data that a text writes. -/
def parseData (text : String) : Except Problem Json :=
  match parse text with
  | .error problem => .error problem
  | .ok value => .ok value.normal

end Worklog.Json
