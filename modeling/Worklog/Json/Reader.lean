import Worklog.Json.Literal
import Worklog.Json.Numeral

/-!
# Readers and tokens

A `Reader` takes something from the front of a text and leaves the rest, which is shorter. The first
token of a value is all that a typed reader looks at: it refuses a value at once if its first token
is none of those asked for.

* `skipBlanks_le`, `letters_le`, `token_shrinks` — progress of the parts.
-/

namespace Worklog.Json

/-! ## Readers -/

structure Reader (α : Type) where
  read : List Char → Except Fault (α × List Char)
  shrinks : ∀ {text a rest}, read text = .ok (a, rest) → rest.length < text.length

namespace Reader

def map {α β : Type} (f : α → β) (r : Reader α) : Reader β where
  read text := match r.read text with
    | .error fault => .error fault
    | .ok (a, rest) => .ok (f a, rest)
  shrinks {text b rest} h := by
    split at h
    next => simp at h
    next ha =>
      simp only [Except.ok.injEq, Prod.mk.injEq] at h
      obtain ⟨-, rfl⟩ := h
      exact r.shrinks ha

end Reader

theorem map_read_eq_ok_iff {α β : Type} {r : Reader α} {f : α → β} {text rest : List Char} {b : β} :
    (r.map f).read text = .ok (b, rest) ↔ ∃ a, r.read text = .ok (a, rest) ∧ f a = b := by
  simp only [Reader.map]
  cases h : r.read text with
  | error fault => simp
  | ok result =>
    obtain ⟨a, tail⟩ := result
    simp only [Except.ok.injEq, Prod.mk.injEq]
    constructor
    · rintro ⟨rfl, rfl⟩
      exact ⟨a, ⟨rfl, rfl⟩, rfl⟩
    · rintro ⟨_, ⟨rfl, rfl⟩, rfl⟩
      exact ⟨rfl, rfl⟩

/-! ## Blanks, words and tokens -/

def isBlank (c : Char) : Bool := c = ' ' || c = '\n' || c = '\t' || c = '\r'

def skipBlanks (text : List Char) : List Char := text.dropWhile isBlank

theorem skipBlanks_le (text : List Char) : (skipBlanks text).length ≤ text.length :=
  (List.dropWhile_sublist _).length_le

/-- Takes the letters of a word that has begun. -/
def letters : List Char → List Char → Except Fault (List Char)
  | [], text => .ok text
  | _ :: _, [] => .error (.malformed .endInValue 0)
  | w :: word, c :: rest =>
    if c = w then letters word rest
    else .error (.malformed .noWord (bytes (c :: rest) - 1))

theorem letters_le {word text rest : List Char} (h : letters word text = .ok rest) :
    rest.length ≤ text.length := by
  induction word generalizing text with
  | nil => simp [letters] at h; simp [h]
  | cons w word ih =>
    cases text with
    | nil => simp [letters] at h
    | cons c tail =>
      rw [letters] at h
      split at h
      · have := ih h
        simp
        omega
      · simp at h

/-- A word that stands for a token. -/
def word (tail : List Char) (token : Token) (text : List Char) :
    Except Fault (Token × List Char) :=
  match letters tail text with
  | .error fault => .error fault
  | .ok rest => .ok (token, rest)

/-- The first token of a value, after blanks: a whole scalar, or an opening bracket. -/
def token (text : List Char) : Except Fault (Token × List Char) :=
  match skipBlanks text with
  | [] => .error (.malformed .endInValue 0)
  | c :: rest =>
    if c = 'n' then word ['u', 'l', 'l'] .null rest
    else if c = 't' then word ['r', 'u', 'e'] (.bool true) rest
    else if c = 'f' then word ['a', 'l', 's', 'e'] (.bool false) rest
    else if c = '-' || Numeral.isDigit c then
      match Numeral.read (c :: rest) with
      | .error fault => .error fault
      | .ok (n, rest) => .ok (.number n, rest)
    else if c = '"' then
      match Literal.characters rest with
      | .error fault => .error fault
      | .ok (cs, rest) => .ok (.string (String.ofList cs), rest)
    else if c = '[' then .ok (.openList, rest)
    else if c = '\x7b' then .ok (.openObject, rest)
    else .error (.malformed .noValue (bytes (c :: rest) - 1))

theorem word_le {tail text rest : List Char} {t u : Token} (h : word tail t text = .ok (u, rest)) :
    rest.length ≤ text.length := by
  unfold word at h
  split at h
  next => simp at h
  next hletters =>
    simp only [Except.ok.injEq, Prod.mk.injEq] at h
    obtain ⟨-, rfl⟩ := h
    exact letters_le hletters

theorem token_shrinks {text rest : List Char} {t : Token} (h : token text = .ok (t, rest)) :
    rest.length < text.length := by
  have hblanks := skipBlanks_le text
  unfold token at h
  split at h
  next => simp at h
  next c tail htext =>
    have htail : tail.length < text.length := by
      rw [htext] at hblanks
      simp at hblanks
      omega
    have hword {w : List Char} {u : Token} (h : word w u tail = .ok (t, rest)) :
        rest.length < text.length := by
      have := word_le h
      omega
    split at h
    · exact hword h
    split at h
    · exact hword h
    split at h
    · exact hword h
    split at h
    · split at h
      next => simp at h
      next hnumeral =>
        have := Numeral.read_shrinks hnumeral
        simp only [Except.ok.injEq, Prod.mk.injEq] at h
        obtain ⟨-, rfl⟩ := h
        simp at this
        omega
    split at h
    · split at h
      next => simp at h
      next hcharacters =>
        have := Literal.characters_shrinks hcharacters
        simp only [Except.ok.injEq, Prod.mk.injEq] at h
        obtain ⟨-, rfl⟩ := h
        omega
    split at h
    · simp_all
    split at h
    · simp_all
    · simp at h

/-! ## Typed readers -/

/-- Reads a token and gives it a meaning. A token without one is refused: behind it if it is a whole
value, before it if it only opens one. -/
def typed {α : Type} (meaning : Token → Except Mismatch α) : Reader α where
  read text := match token text with
    | .error fault => .error fault
    | .ok (t, rest) =>
      match meaning t with
      | .ok a => .ok (a, rest)
      | .error cause =>
        .error ⟨.mismatch cause, if t.scalar?.isSome then bytes rest else bytes rest + 1⟩
  shrinks {text a rest} h := by
    split at h
    next => simp at h
    next ht =>
      split at h
      next =>
        simp only [Except.ok.injEq, Prod.mk.injEq] at h
        obtain ⟨-, rfl⟩ := h
        exact token_shrinks ht
      next => simp at h

namespace Token

/-- The meanings that a token can be asked for. -/
def asString (expected : String) : Token → Except Mismatch String
  | string value => .ok value
  | t => .error (.type t expected)

def asBool : Token → Except Mismatch Bool
  | bool value => .ok value
  | t => .error (.type t "a boolean")

/-- A natural number up to a limit. -/
def asNatural (limit : UInt64) (expected : String) : Token → Except Mismatch UInt64
  | number (.natural value) =>
    if value ≤ limit then .ok value else .error (.value (number (.natural value)) expected)
  | number (.negative magnitude) => .error (.value (number (.negative magnitude)) expected)
  | t => .error (.type t expected)

def asByte : Token → Except Mismatch UInt64 := asNatural 255 "u8"

def asWord : Token → Except Mismatch UInt64 := asNatural 18446744073709551615 "u64"

/-- A token that may be absent: the null value means that it is. -/
def optional {α : Type} (meaning : Token → Except Mismatch α) : Token → Except Mismatch (Option α)
  | null => .ok none
  | t => (meaning t).map some

end Token

end Worklog.Json
