import Worklog.Json.Literal

/-!
# Writing values as text

A value is written on one line and without blanks. Strings are written as they are, with escapes
only where a literal needs them.

-/

namespace Worklog.Json

/-- A string between its quotes. -/
def stringChars (value : String) : List Char :=
  '"' :: Literal.escaped value.toList ++ ['"']

mutual

def chars : Json → List Char
  | null => ['n', 'u', 'l', 'l']
  | bool true => ['t', 'r', 'u', 'e']
  | bool false => ['f', 'a', 'l', 's', 'e']
  | number value => value.text.toList
  | string value => stringChars value
  | list [] => ['[', ']']
  | list (v :: rest) => '[' :: chars v ++ itemsAfter rest
  | object [] => ['\x7b', '\x7d']
  | object ((name, v) :: rest) =>
    '\x7b' :: stringChars name ++ ':' :: chars v ++ membersAfter rest

/-- The elements after the first, and the end of the list. -/
def itemsAfter : List Json → List Char
  | [] => [']']
  | v :: rest => ',' :: chars v ++ itemsAfter rest

/-- The members after the first, and the end of the object. -/
def membersAfter : List (String × Json) → List Char
  | [] => ['\x7d']
  | (name, v) :: rest => ',' :: stringChars name ++ ':' :: chars v ++ membersAfter rest

end

def text (value : Json) : String := String.ofList value.chars

end Worklog.Json
