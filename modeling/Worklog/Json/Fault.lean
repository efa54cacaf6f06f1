import Worklog.Json.Basic

/-!
# What can be wrong with a text

A text can be malformed, or be a value that does not fit what is asked for. Both are causes; the
wording of each is in `message`. A reader that stops at a cause also knows where it stands, as the
number of bytes that it has not passed; `Place.after` turns that into a line and a column.
-/

namespace Worklog.Json

/-! ## Causes -/

/-- Why a text is no value. -/
inductive Malformed where
  | endInList
  | endInObject
  | endInString
  | endInValue
  | noColon
  | noListEnd
  | noObjectEnd
  | noWord
  | noValue
  | badEscape
  | badNumber
  | outOfRange
  | controlCharacter
  | keyNotString
  | loneSurrogate
  | trailingComma
  | trailingCharacters
  | endOfPair
  | tooDeep
deriving DecidableEq, Repr

def Malformed.message : Malformed → String
  | endInList => "EOF while parsing a list"
  | endInObject => "EOF while parsing an object"
  | endInString => "EOF while parsing a string"
  | endInValue => "EOF while parsing a value"
  | noColon => "expected `:`"
  | noListEnd => "expected `,` or `]`"
  | noObjectEnd => "expected `,` or `\x7d`"
  | noWord => "expected ident"
  | noValue => "expected value"
  | badEscape => "invalid escape"
  | badNumber => "invalid number"
  | outOfRange => "number out of range"
  | controlCharacter => "control character (\\u0000-\\u001F) found while parsing a string"
  | keyNotString => "key must be a string"
  | loneSurrogate => "lone leading surrogate in hex escape"
  | trailingComma => "trailing comma"
  | trailingCharacters => "trailing characters"
  | endOfPair => "unexpected end of hex escape"
  | tooDeep => "recursion limit exceeded"

/-- Why a value is not one of those asked for. -/
inductive Mismatch where
  | type (found : Token) (expected : String)
  | value (found : Token) (expected : String)
  /-- A number that is none of the few that have a meaning. -/
  | choice (found : Nat) (known : List Nat)
  | missing (key : String)
  | repeated (key : String)
  | unknownKey (key : String) (known : List String)
  | length (found : Nat) (expected : String)
deriving DecidableEq, Repr

def Mismatch.message : Mismatch → String
  | type found expected => "invalid type: " ++ found.describe ++ ", expected " ++ expected
  | value found expected => "invalid value: " ++ found.describe ++ ", expected " ++ expected
  | choice found known =>
    "invalid value: " ++ Nat.repr found ++ ", expected one of: "
      ++ ", ".intercalate (known.map Nat.repr)
  | missing key => "missing field `" ++ key ++ "`"
  | repeated key => "duplicate field `" ++ key ++ "`"
  | unknownKey key known =>
    "unknown field `" ++ key ++ "`, expected one of "
      ++ ", ".intercalate (known.map fun name => "`" ++ name ++ "`")
  | length found expected => "invalid length " ++ Nat.repr found ++ ", expected " ++ expected

inductive Cause where
  | malformed (cause : Malformed)
  | mismatch (cause : Mismatch)
deriving DecidableEq, Repr

def Cause.message : Cause → String
  | malformed cause => cause.message
  | mismatch cause => cause.message

/-! ## Places -/

/-- The number of bytes of a text. -/
def bytes : List Char → Nat
  | [] => 0
  | c :: rest => c.utf8Size + bytes rest

/-- A point of a text: its line, counted from one, and the bytes of that line before it. -/
structure Place where
  line : Nat
  column : Nat
deriving DecidableEq, Repr

/-- The point of the text behind so many bytes of it, counted on from a given point. It may lie
inside a character. -/
def Place.advance : Place → List Char → Nat → Place
  | place, [], _ => place
  | place, c :: rest, n =>
    if n < c.utf8Size then { place with column := place.column + n }
    else if c = '\n' then Place.advance ⟨place.line + 1, 0⟩ rest (n - c.utf8Size)
    else Place.advance { place with column := place.column + c.utf8Size } rest (n - c.utf8Size)

def Place.after (text : List Char) (n : Nat) : Place := Place.advance ⟨1, 0⟩ text n

/-! ## Faults and problems -/

/-- A cause, and how many bytes of the text lie ahead where it shows. -/
structure Fault where
  cause : Cause
  ahead : Nat
deriving DecidableEq, Repr

/-- The text stops making sense with so many bytes ahead. -/
def Fault.malformed (cause : Malformed) (ahead : Nat) : Fault := ⟨.malformed cause, ahead⟩

/-- A cause as it is told to the one who wrote the text: with its place, if it has one. -/
structure Problem where
  cause : Cause
  place : Option Place
deriving DecidableEq, Repr

def Problem.message (problem : Problem) : String :=
  match problem.place with
  | none => problem.cause.message
  | some place =>
    problem.cause.message ++ " at line " ++ Nat.repr place.line ++ " column "
      ++ Nat.repr place.column

/-- A fault of a reader, placed in the text that was read. -/
def Fault.placed (fault : Fault) (text : List Char) : Problem :=
  ⟨fault.cause, some (Place.after text (bytes text - fault.ahead))⟩

/-- A mismatch that belongs to a value as a whole, and to no place in its text. -/
def Mismatch.unplaced (cause : Mismatch) : Problem := ⟨.mismatch cause, none⟩

end Worklog.Json
