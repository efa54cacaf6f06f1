/-!
# Shortest decimals

The shortest decimal that reads back as a given binary number, and among the shortest the one
nearest to it.

A positive number is `m · 2 ^ q`. The decimals that read back as it lie between the midpoints to
its two neighbours, ends included exactly when `m` is even. The decimals `d · 10 ^ k` with one `k`
form a grid; the coarsest grid with a point in that interval has the fewest digits. Both sides of
each comparison are natural numbers.

* `Binary.reads_of_shortest?` — the result lies in the interval.
-/

namespace Worklog.Decimal

/-! ## Binary numbers -/

/-- A positive number `m · 2 ^ q`. The neighbour below may be half as far away as the one above:
`narrowBelow` says so. -/
structure Binary where
  m : Nat
  q : Int
  narrowBelow : Bool
deriving DecidableEq, Repr

/-- A decimal `digits · 10 ^ exponent`. -/
structure Scaled where
  digits : Nat
  exponent : Int
deriving DecidableEq, Repr

namespace Binary

/-- The number of values of the fraction bits of a double-precision number, the lowest 52. -/
def fractions : Nat := 0x10000000000000

/-- The number of values of its exponent bits, the 11 above those. -/
def exponents : Nat := 0x800

/-- The magnitude of a double-precision number with these bits, if it is not zero. The bits of an
infinity or of no number are read as those of a finite number. -/
def ofBits? (bits : UInt64) : Option Binary :=
  let fraction : Nat := bits.toNat % fractions
  let exponent : Nat := bits.toNat / fractions % exponents
  -- The lowest exponent is shared with the numbers that have no leading one.
  if exponent = 0 then
    if fraction = 0 then none else some ⟨fraction, -1074, false⟩
  else some ⟨fractions + fraction, (exponent : Int) - 1075, fraction = 0 && 1 < exponent⟩

/-- Whether the highest bit is set, which makes the number negative. -/
def isNegative (bits : UInt64) : Bool := bits.toNat / fractions / exponents = 1

/-! ## One grid

On the grid at `k` the number is the fraction `m · up / down`. -/

def up (x : Binary) (k : Int) : Nat := Nat.pow 2 x.q.toNat * Nat.pow 10 (-k).toNat

def down (x : Binary) (k : Int) : Nat := Nat.pow 2 (-x.q).toNat * Nat.pow 10 k.toNat

/-- Four times the distance from the number down to the end of its interval, in units of the last
binary place. -/
def below (x : Binary) : Nat := if x.narrowBelow then 1 else 2

/-- Whether the grid's point `d` reads back as the number. -/
def reads (x : Binary) (k : Int) (d : Nat) : Bool :=
  -- Everything is counted in quarters of the last binary place.
  let point := 4 * d * x.down k
  let low := (4 * x.m - x.below) * x.up k
  let high := (4 * x.m + 2) * x.up k
  if x.m % 2 = 0 then low ≤ point && point ≤ high else low < point && point < high

/-- The nearest point of the grid that reads back as the number, if there is one. It is one of the
number's two neighbours on the grid; of two at the same distance it is the even one. -/
def nearest? (x : Binary) (k : Int) : Option Nat :=
  let d := x.m * x.up k / x.down k
  let rest := x.m * x.up k % x.down k
  if d ≠ 0 ∧ x.reads k d then
    if x.reads k (d + 1)
        ∧ (x.down k < 2 * rest ∨ (2 * rest = x.down k ∧ d % 2 = 1)) then some (d + 1)
    else some d
  else if x.reads k (d + 1) then some (d + 1)
  else none

/-! ## The coarsest grid -/

/-- The grids that can hold a double-precision number, from coarse to fine. -/
def grids : List Int := (List.range 634).map fun (i : Nat) => 309 - Int.ofNat i

def shortest? (x : Binary) : Option Scaled :=
  grids.findSome? fun k => (x.nearest? k).map fun d => ⟨d, k⟩

theorem reads_of_nearest? {x : Binary} {k : Int} {d : Nat} (h : x.nearest? k = some d) :
    x.reads k d = true := by
  unfold nearest? at h
  dsimp only at h
  split at h
  next hd =>
    split at h
    next hup => simp only [Option.some.injEq] at h; rw [← h]; exact hup.1
    next => simp only [Option.some.injEq] at h; rw [← h]; exact hd.2
  next =>
    split at h
    next hup => simp only [Option.some.injEq] at h; rw [← h]; exact hup
    next => simp at h

theorem reads_of_shortest? {x : Binary} {y : Scaled} (h : x.shortest? = some y) :
    x.reads y.exponent y.digits = true := by
  obtain ⟨k, -, hk⟩ := List.exists_of_findSome?_eq_some h
  obtain ⟨d, hd, rfl⟩ := Option.map_eq_some_iff.1 hk
  exact reads_of_nearest? hd

end Binary

/-! ## Text -/

/-- How a decimal with a point is laid out: which exponents of the first digit are written without
an exponent part. -/
structure Layout where
  least : Int
  most : Int
deriving DecidableEq, Repr

/-- The digits with the point after the first, and an exponent with its sign. -/
def scientific (digits : List Char) (exponent : Int) : List Char :=
  let mantissa := match digits with
    | [] => []
    | [d] => [d]
    | d :: rest => d :: '.' :: rest
  mantissa ++ ['e', if exponent < 0 then '-' else '+'] ++ (Nat.repr exponent.natAbs).toList

/-- The digits with the point where it belongs and at least one digit on each side of it. -/
def positional (digits : List Char) (exponent : Int) : List Char :=
  if exponent < 0 then
    ['0', '.'] ++ List.replicate (exponent.natAbs - 1) '0' ++ digits
  else
    let whole := exponent.toNat + 1
    let fraction := digits.drop whole
    digits.take whole ++ List.replicate (whole - digits.length) '0' ++ ['.']
      ++ (if fraction.isEmpty then ['0'] else fraction)

def Layout.write (layout : Layout) (x : Scaled) : List Char :=
  let digits := (Nat.repr x.digits).toList
  let first := x.exponent + digits.length - 1
  if layout.least ≤ first ∧ first ≤ layout.most then positional digits first
  else scientific digits first

/-- The shortest text of the double-precision number with these bits. -/
def Layout.writeBits (layout : Layout) (bits : UInt64) : String :=
  let sign := if Binary.isNegative bits then ['-'] else []
  let magnitude := match Binary.ofBits? bits with
    | none => ['0', '.', '0']
    | some x =>
      match x.shortest? with
      | some y => layout.write y
      | none => []
  String.ofList (sign ++ magnitude)

end Worklog.Decimal
