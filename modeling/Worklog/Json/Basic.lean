import Worklog.Decimal.Shortest
import Worklog.Text.Quoted

/-!
# JSON values

A value keeps the members of an object as they were written: in their order, and repeated if they
were repeated. Numbers keep what their literal says about them: a literal without sign, fraction and
exponent that fits 64 bits is natural, one with a sign that fits is negative, all others are
double-precision numbers, kept as bits so that values can be compared.

The first token of a value says what it is: a scalar is one token, the others open with a bracket.
-/

namespace Worklog

/-! ## Values -/

inductive Number where
  | natural (value : UInt64)
  /-- The number below zero with this magnitude. -/
  | negative (magnitude : UInt64)
  | float (bits : UInt64)
deriving DecidableEq, Repr, Inhabited

inductive Json where
  | null
  | bool (value : Bool)
  | number (value : Number)
  | string (value : String)
  | list (items : List Json)
  | object (members : List (String × Json))
deriving Repr, Inhabited

namespace Number

/-- Numbers below `0.00001` and from `10 ^ 16` on have an exponent. -/
def layout : Decimal.Layout := ⟨-5, 15⟩

def text : Number → String
  | natural value => Nat.repr value.toNat
  | negative magnitude => "-" ++ Nat.repr magnitude.toNat
  | float bits => layout.writeBits bits

end Number

namespace Json

/-! ## First tokens -/

inductive Token where
  | null
  | bool (value : Bool)
  | number (value : Number)
  | string (value : String)
  | openList
  | openObject
deriving DecidableEq, Repr

def first : Json → Token
  | .null => .null
  | .bool value => .bool value
  | .number value => .number value
  | .string value => .string value
  | .list _ => .openList
  | .object _ => .openObject

namespace Token

/-- The value that the token is by itself, unless it only opens one. -/
def scalar? : Token → Option Json
  | null => some .null
  | bool value => some (.bool value)
  | number value => some (.number value)
  | string value => some (.string value)
  | openList => none
  | openObject => none

/-- How a message names the token. -/
def describe : Token → String
  | null => "null"
  | bool true => "boolean `true`"
  | bool false => "boolean `false`"
  | number (.float bits) => "floating point `" ++ (Number.float bits).text ++ "`"
  | number value => "integer `" ++ value.text ++ "`"
  | string value => "string " ++ Text.quoted value
  | openList => "sequence"
  | openObject => "map"

end Token

theorem first_of_scalar? {token : Token} {value : Json} (h : token.scalar? = some value) :
    value.first = token := by
  cases token <;> simp [Token.scalar?] at h <;> subst h <;> rfl

end Json

end Worklog
