import Worklog.Json.Fault

/-!
# Numerals

A numeral is read in two steps: `Numeral.scan` finds its parts, `Numeral.value` gives them a value.

A numeral without fraction and exponent that fits is an integer. Any other is a double-precision
number. Its significand takes digits of the whole part while it fits 64 bits, then digits of the
fraction while it fits; digits of the whole part that are left out raise the power of ten instead.
The significand is then scaled by the power of ten in steps of at most `10 ^ 308`.

* `scan_shrinks` — a numeral takes at least one character.
-/

namespace Worklog.Json

/-! ## Parts -/

structure Exponent where
  negative : Bool
  digits : List Char
deriving DecidableEq, Repr

/-- The parts of a numeral as written. The fraction is empty if there is no point. -/
structure Numeral where
  negative : Bool
  whole : List Char
  fraction : List Char
  exponent : Option Exponent
deriving DecidableEq, Repr

namespace Numeral

def isDigit (c : Char) : Bool := '0' ≤ c && c ≤ '9'

/-- The run of digits that a text starts with, and what follows it. -/
def run (text : List Char) : List Char × List Char :=
  (text.takeWhile isDigit, text.dropWhile isDigit)

/-- The digits before the point: a single zero, or a run that starts with another digit. -/
def scanWhole : List Char → Except Fault (List Char × List Char)
  | [] => .error (.malformed .endInValue 0)
  | c :: rest =>
    if c = '0' then
      match rest with
      | [] => .ok (['0'], [])
      | d :: rest' =>
        if isDigit d then .error (.malformed .badNumber (bytes (d :: rest') - 1))
        else .ok (['0'], d :: rest')
    else if isDigit c then .ok (run (c :: rest))
    else .error (.malformed .badNumber (bytes (c :: rest) - 1))

/-- The digits after the point, if there is one; there must be at least one digit then. -/
def scanFraction (text : List Char) : Except Fault (List Char × List Char) :=
  match text with
  | '.' :: rest =>
    match (run rest).1, rest with
    | [], [] => .error (.malformed .endInValue 0)
    | [], c :: rest' => .error (.malformed .badNumber (bytes (c :: rest') - 1))
    | _ :: _, _ => .ok (run rest)
  | text => .ok ([], text)

/-- The sign of an exponent. -/
def scanSign : List Char → Bool × List Char
  | '+' :: rest => (false, rest)
  | '-' :: rest => (true, rest)
  | text => (false, text)

/-- The exponent, if there is one; there must be at least one digit then. -/
def scanExponent (text : List Char) : Except Fault (Option Exponent × List Char) :=
  match text with
  | [] => .ok (none, [])
  | c :: rest =>
    if c = 'e' || c = 'E' then
      let (negative, rest) := scanSign rest
      match run rest with
      | ([], []) => .error (.malformed .endInValue 0)
      | ([], d :: rest') => .error (.malformed .badNumber (bytes (d :: rest') - 1))
      | (digits, rest') => .ok (some ⟨negative, digits⟩, rest')
    else .ok (none, c :: rest)

/-- A numeral and what follows it. -/
def scan (text : List Char) : Except Fault (Numeral × List Char) :=
  let (negative, text) : Bool × List Char := match text with
    | '-' :: rest => (true, rest)
    | text => (false, text)
  match scanWhole text with
  | .error fault => .error fault
  | .ok (whole, text) =>
    match scanFraction text with
    | .error fault => .error fault
    | .ok (fraction, text) =>
      match scanExponent text with
      | .error fault => .error fault
      | .ok (exponent, text) => .ok (⟨negative, whole, fraction, exponent⟩, text)

/-! ## Value -/

def digitValue (c : Char) : Nat := c.toNat - '0'.toNat

/-- Takes digits into a number as long as it stays within the limit: the number, and the digits
that were not taken. -/
def absorb (limit : Nat) : Nat → List Char → Nat × List Char
  | n, [] => (n, [])
  | n, c :: rest =>
    if n * 10 + digitValue c ≤ limit then absorb limit (n * 10 + digitValue c) rest
    else (n, c :: rest)

/-- The largest number of 64 bits. -/
def maxWord : Nat := 0xffffffffffffffff

/-- The largest magnitude of a negative number of 64 bits. -/
def maxNegative : Nat := 0x8000000000000000

/-- The largest exponent that is counted out. -/
def maxExponent : Nat := 0x7fffffff

/-- The largest power of ten that a double-precision number holds. -/
def maxPower : Nat := 308

def power (n : Nat) : Float := Float.ofScientific 1 false n

/-- Multiplies by a power of ten; nothing if the result is too large. -/
def scale (x : Float) (e : Int) : Option Float :=
  if e.natAbs ≤ maxPower then
    if 0 ≤ e then
      let y := x * power e.natAbs
      if y.isInf then none else some y
    else some (x / power e.natAbs)
  else if x == 0 then some x
  else if 0 ≤ e then none
  else scale (x / power maxPower) (e + maxPower)
termination_by e.natAbs
decreasing_by
  simp only [maxPower] at *
  omega

def signed (negative : Bool) (x : Float) : Number :=
  .float (if negative then -x else x).toBits

/-- The value of a numeral without fraction and exponent, whose digits were all taken. -/
def integer (negative : Bool) (n : Nat) : Number :=
  if negative then
    if n = 0 || maxNegative < n then signed true (UInt64.ofNat n).toFloat
    else .negative (UInt64.ofNat n)
  else .natural (UInt64.ofNat n)

/-- The value of a numeral. If it is too large to have one, the number of its last characters that
need not be looked at to see that. -/
def value (numeral : Numeral) : Except Nat Number :=
  let (n, dropped) := absorb maxWord 0 numeral.whole
  match dropped, numeral.fraction, numeral.exponent with
  | [], [], none => .ok (integer numeral.negative n)
  | _, fraction, exponent =>
    let (n, unused) := absorb maxWord n fraction
    -- A dropped digit of the whole part is a place to the left, a taken one of the fraction a place
    -- to the right.
    let shift : Int := (dropped.length : Int) - ((fraction.length - unused.length : Nat) : Int)
    let scaled (e : Int) : Except Nat Number :=
      match scale (UInt64.ofNat n).toFloat e with
      | none => .error 0
      | some x => .ok (signed numeral.negative x)
    match exponent with
    | none => scaled shift
    | some exponent =>
      match absorb maxExponent 0 exponent.digits with
      | (e, []) => scaled (if exponent.negative then shift - e else shift + e)
      | (_, _ :: unread) =>
        if n ≠ 0 ∧ exponent.negative = false then .error unread.length
        else .ok (signed numeral.negative 0)

/-- A number and what follows it. -/
def read (text : List Char) : Except Fault (Number × List Char) :=
  match scan text with
  | .error fault => .error fault
  | .ok (numeral, rest) =>
    match numeral.value with
    | .ok result => .ok (result, rest)
    | .error unread => .error (.malformed .outOfRange (unread + bytes rest))

/-! ## Progress -/

theorem run_length (text : List Char) :
    (run text).1.length + (run text).2.length = text.length := by
  rw [← List.length_append]
  simp [run]

theorem run_le (text : List Char) : (run text).2.length ≤ text.length := by
  have := run_length text
  omega

theorem scanWhole_shrinks {text whole rest : List Char} (h : scanWhole text = .ok (whole, rest)) :
    rest.length < text.length := by
  unfold scanWhole at h
  split at h
  next => simp at h
  next c tail =>
    split at h
    next =>
      split at h
      next =>
        simp only [Except.ok.injEq, Prod.mk.injEq] at h
        obtain ⟨-, rfl⟩ := h
        simp
      next =>
        split at h
        · simp at h
        · simp only [Except.ok.injEq, Prod.mk.injEq] at h
          obtain ⟨-, rfl⟩ := h
          simp
    next =>
      split at h
      next hc =>
        have htake : (run (c :: tail)).1 = c :: (run tail).1 := by
          simp [run, hc]
        have := run_length (c :: tail)
        simp only [Except.ok.injEq] at h
        rw [h] at this htake
        simp_all
        omega
      next => simp at h

theorem scanFraction_le {text fraction rest : List Char}
    (h : scanFraction text = .ok (fraction, rest)) : rest.length ≤ text.length := by
  unfold scanFraction at h
  split at h
  next tail =>
    have := run_le tail
    split at h <;> simp_all
    omega
  next => simp_all

theorem scanSign_le (text : List Char) : (scanSign text).2.length ≤ text.length := by
  unfold scanSign
  split <;> simp

theorem scanExponent_le {text : List Char} {exponent : Option Exponent} {rest : List Char}
    (h : scanExponent text = .ok (exponent, rest)) : rest.length ≤ text.length := by
  unfold scanExponent at h
  split at h
  next => simp_all
  next c tail =>
    split at h
    next =>
      have h₁ := scanSign_le tail
      have h₂ := run_le (scanSign tail).2
      dsimp only at h
      split at h
      · simp at h
      · simp at h
      · next hrun =>
        simp only [Except.ok.injEq, Prod.mk.injEq] at h
        obtain ⟨-, rfl⟩ := h
        rw [hrun] at h₂
        simp at *
        omega
    next => simp_all

theorem scan_shrinks {text rest : List Char} {numeral : Numeral}
    (h : scan text = .ok (numeral, rest)) : rest.length < text.length := by
  unfold scan at h
  split at h
  next negative tail hsign =>
    have htail : tail.length ≤ text.length := by
      split at hsign <;> simp_all
    split at h
    next => simp at h
    next whole tail₁ hwhole =>
      split at h
      next => simp at h
      next fraction tail₂ hfraction =>
        split at h
        next => simp at h
        next exponent tail₃ hexponent =>
          simp only [Except.ok.injEq, Prod.mk.injEq] at h
          obtain ⟨-, rfl⟩ := h
          have := scanWhole_shrinks hwhole
          have := scanFraction_le hfraction
          have := scanExponent_le hexponent
          omega

theorem read_shrinks {text rest : List Char} {result : Number}
    (h : read text = .ok (result, rest)) : rest.length < text.length := by
  unfold read at h
  split at h
  next => simp at h
  next hscan =>
    split at h
    next =>
      simp only [Except.ok.injEq, Prod.mk.injEq] at h
      obtain ⟨-, rfl⟩ := h
      exact scan_shrinks hscan
    next => simp at h

end Numeral

end Worklog.Json
