import Worklog.Json.Numeral

/-!
# Numerals written and read back

A numeral is written as its parts one after the other. Each part is read back from what it is
written as, so long as what follows cannot be taken for more of it, and so is the whole numeral. The
decimal digits of an integer are such a numeral, so they are read back as that integer.

* `scan_append` — the parts of a numeral are found again.
* `read_digits` — a natural number of 64 bits.
* `read_minus_digits` — a negative one.
-/

namespace Worklog.Json.Numeral

/-! ## What may follow -/

/-- A text that does not go on with a digit. -/
def NoDigit (text : List Char) : Prop := ∀ c, text.head? = some c → isDigit c = false

/-- A text that does not go on with a numeral: no digit, no point and no exponent. -/
def Ends (text : List Char) : Prop :=
  ∀ c, text.head? = some c → isDigit c = false ∧ c ≠ '.' ∧ c ≠ 'e' ∧ c ≠ 'E'

theorem ends_nil : Ends [] := by simp [Ends]

/-- A numeral ends before a character that cannot go on with it. -/
theorem ends_cons {c : Char} (rest : List Char)
    (h : isDigit c = false ∧ c ≠ '.' ∧ c ≠ 'e' ∧ c ≠ 'E') : Ends (c :: rest) := by
  intro d hd
  obtain rfl : c = d := by simpa using hd
  exact h

theorem Ends.noDigit {text : List Char} (h : Ends text) : NoDigit text := fun c hc => (h c hc).1

theorem noDigit_cons {c : Char} (rest : List Char) (h : isDigit c = false) :
    NoDigit (c :: rest) := by
  intro d hd
  obtain rfl : c = d := by simpa using hd
  exact h

/-! ## Ways to write a numeral -/

/-- Digits, at least one. -/
structure IsDigits (ds : List Char) : Prop where
  ne_nil : ds ≠ []
  all : ∀ c ∈ ds, isDigit c = true

/-- The digits before the point: a zero stands alone or not in front. -/
structure IsWhole (ds : List Char) : Prop extends IsDigits ds where
  alone_of_zero : ds.head? = some '0' → ds = ['0']

/-- The digits of a fraction after a point, or nothing. -/
inductive WritesFraction : List Char → List Char → Prop
  | nothing : WritesFraction [] []
  | digits {ds : List Char} (h : IsDigits ds) : WritesFraction ('.' :: ds) ds

inductive WritesSign : List Char → Bool → Prop
  | nothing : WritesSign [] false
  | plus : WritesSign ['+'] false
  | minus : WritesSign ['-'] true

/-- The digits of an exponent after a letter and a sign, or nothing. -/
inductive WritesExponent : List Char → Option Exponent → Prop
  | nothing : WritesExponent [] none
  | digits {letter : Char} {sign : List Char} {exponent : Exponent}
      (hletter : letter = 'e' ∨ letter = 'E') (hsign : WritesSign sign exponent.negative)
      (h : IsDigits exponent.digits) :
      WritesExponent (letter :: sign ++ exponent.digits) (some exponent)

/-- The sign in front of a numeral. -/
def minus (negative : Bool) : List Char := if negative then ['-'] else []

/-- A numeral is written as its parts, one after the other. -/
inductive Writes : List Char → Numeral → Prop
  | parts {numeral : Numeral} {fraction exponent : List Char} (hwhole : IsWhole numeral.whole)
      (hfraction : WritesFraction fraction numeral.fraction)
      (hexponent : WritesExponent exponent numeral.exponent) :
      Writes (minus numeral.negative ++ (numeral.whole ++ (fraction ++ exponent))) numeral

/-! ## Parts -/

/-- Digits up to something else are one run. -/
theorem run_append {ds rest : List Char} (hds : ∀ c ∈ ds, isDigit c = true)
    (hrest : NoDigit rest) : run (ds ++ rest) = (ds, rest) := by
  have htake : rest.takeWhile isDigit = [] ∧ rest.dropWhile isDigit = rest := by
    cases rest with
    | nil => simp
    | cons c tail =>
      have hc := hrest c rfl
      simp [List.takeWhile, List.dropWhile, hc]
  rw [run, List.takeWhile_append_of_pos hds, List.dropWhile_append_of_pos hds, htake.1, htake.2,
    List.append_nil]

/-- A whole part is scanned up to its end. -/
theorem scanWhole_append {ds rest : List Char} (h : IsWhole ds) (hrest : NoDigit rest) :
    scanWhole (ds ++ rest) = .ok (ds, rest) := by
  have hrun := run_append h.all hrest
  cases ds with
  | nil => exact absurd rfl h.ne_nil
  | cons d ds =>
    by_cases hzero : d = '0'
    · subst hzero
      obtain rfl : ds = [] := by simpa using h.alone_of_zero rfl
      cases rest with
      | nil => rfl
      | cons c tail => simp [scanWhole, hrest c rfl]
    · have hd : isDigit d = true := h.all d List.mem_cons_self
      rw [List.cons_append, scanWhole.eq_def]
      simp only
      rw [if_neg hzero, if_pos hd, ← List.cons_append, hrun]

/-- What follows a fraction is no digit, and no point if there is no fraction. -/
theorem scanFraction_append {piece ds rest : List Char} (h : WritesFraction piece ds)
    (hrest : NoDigit rest) (hpoint : rest.head? ≠ some '.') :
    scanFraction (piece ++ rest) = .ok (ds, rest) := by
  cases h with
  | nothing =>
    rw [List.nil_append, scanFraction.eq_def]
    split
    · exact absurd rfl hpoint
    · rfl
  | digits hds =>
    have hrun := run_append hds.all hrest
    cases ds with
    | nil => exact absurd rfl hds.ne_nil
    | cons d ds =>
      rw [List.cons_append, scanFraction.eq_def]
      simp only [hrun]

/-- A sign is scanned where it is written, and none where it is not. -/
theorem scanSign_append {sign rest : List Char} {negative : Bool} (h : WritesSign sign negative)
    (hplus : rest.head? ≠ some '+') (hminus : rest.head? ≠ some '-') :
    scanSign (sign ++ rest) = (negative, rest) := by
  cases h with
  | nothing =>
    rw [List.nil_append, scanSign.eq_def]
    split
    · exact absurd rfl hplus
    · exact absurd rfl hminus
    · rfl
  | plus => rfl
  | minus => rfl

theorem IsDigits.head_ne {ds : List Char} (h : IsDigits ds) {c : Char} (hc : isDigit c = false)
    (rest : List Char) : (ds ++ rest).head? ≠ some c := by
  cases ds with
  | nil => exact absurd rfl h.ne_nil
  | cons d ds =>
    have hd : isDigit d = true := h.all d List.mem_cons_self
    rintro heq
    obtain rfl : d = c := by simpa using heq
    simp [hc] at hd

/-- An exponent is scanned up to its end. -/
theorem scanExponent_append {piece rest : List Char} {exponent : Option Exponent}
    (h : WritesExponent piece exponent) (hrest : Ends rest) :
    scanExponent (piece ++ rest) = .ok (exponent, rest) := by
  cases h with
  | nothing =>
    cases rest with
    | nil => rfl
    | cons c tail =>
      obtain ⟨-, -, he, hE⟩ := hrest c rfl
      simp [scanExponent, he, hE]
  | @digits letter sign exponent hletter hsign hds =>
    have hscan := scanSign_append hsign (hds.head_ne (by decide) rest)
      (hds.head_ne (by decide) rest)
    have hrun := run_append hds.all hrest.noDigit
    have hdigits : exponent.digits ≠ [] := hds.ne_nil
    rw [List.cons_append, List.cons_append, List.append_assoc, scanExponent.eq_def]
    simp only [hscan, hrun]
    rw [if_pos (by simpa using hletter)]
    obtain ⟨negative, digits⟩ := exponent
    cases digits with
    | nil => exact absurd rfl hdigits
    | cons d ds => rfl

theorem WritesExponent.noDigit {piece rest : List Char} {exponent : Option Exponent}
    (h : WritesExponent piece exponent) (hrest : Ends rest) : NoDigit (piece ++ rest) := by
  cases h with
  | nothing => exact hrest.noDigit
  | digits hletter _ _ =>
    exact noDigit_cons _ (by rcases hletter with rfl | rfl <;> decide)

theorem WritesExponent.noPoint {piece rest : List Char} {exponent : Option Exponent}
    (h : WritesExponent piece exponent) (hrest : Ends rest) :
    (piece ++ rest).head? ≠ some '.' := by
  cases h with
  | nothing => exact fun hpoint => (hrest _ hpoint).2.1 rfl
  | digits hletter _ _ => rcases hletter with rfl | rfl <;> simp

/-- Neither a fraction nor what comes after it goes on with the whole part. -/
theorem WritesFraction.noDigit {piece ds rest : List Char} (h : WritesFraction piece ds)
    (hrest : NoDigit rest) : NoDigit (piece ++ rest) := by
  cases h with
  | nothing => exact hrest
  | digits _ => exact noDigit_cons _ (by decide)

/-- **The parts of a numeral are found again**, whatever follows it that is not more of it. -/
theorem scan_append {piece rest : List Char} {numeral : Numeral} (h : Writes piece numeral)
    (hrest : Ends rest) : scan (piece ++ rest) = .ok (numeral, rest) := by
  obtain ⟨hwhole, hfraction, hexponent⟩ := h
  rename_i fraction exponent
  have hnoDigit := hexponent.noDigit hrest
  have hparts : scanWhole (numeral.whole ++ (fraction ++ (exponent ++ rest)))
      = .ok (numeral.whole, fraction ++ (exponent ++ rest)) :=
    scanWhole_append hwhole (hfraction.noDigit hnoDigit)
  have hafter := scanFraction_append hfraction hnoDigit (hexponent.noPoint hrest)
  have hlast := scanExponent_append hexponent hrest
  obtain ⟨negative, whole, ds, e⟩ := numeral
  cases negative with
  | true =>
    simp only [minus, if_true, List.cons_append, List.nil_append, List.append_assoc, scan, hparts,
      hafter, hlast]
  | false =>
    have hminus := hwhole.head_ne (c := '-') (by decide) (fraction ++ (exponent ++ rest))
    simp only [minus, Bool.false_eq_true, if_false, List.nil_append, List.append_assoc]
    unfold scan
    split
    next negative text heq =>
      split at heq
      · next tail htail => exact absurd (congrArg List.head? htail) hminus
      · simp only [Prod.mk.injEq] at heq
        obtain ⟨rfl, rfl⟩ := heq
        simp only [hparts, hafter, hlast]

/-! ## Digits -/

theorem isDigit_eq_isDigit (c : Char) : isDigit c = c.isDigit := rfl

theorem isDigit_of_mem_digits {n : Nat} {c : Char} (h : c ∈ Nat.toDigits 10 n) :
    isDigit c = true := by
  rw [isDigit_eq_isDigit]
  exact Nat.isDigit_of_mem_toDigits (by decide) (by decide) h

/-- The digits of a number other than zero do not start with a zero. -/
theorem head_digits_ne_zero (n : Nat) (h : n ≠ 0) : (Nat.toDigits 10 n).head? ≠ some '0' := by
  induction n using Nat.strongRecOn with
  | ind n ih =>
    rw [Nat.toDigits_eq_if (by decide)]
    split
    · next hlt =>
      have hall : ∀ d ∈ List.range 10, d ≠ 0 → Nat.digitChar d ≠ '0' := by decide
      simpa using hall n (List.mem_range.mpr hlt) h
    · next hge =>
      have hrest := ih (n / 10) (by omega) (by omega)
      cases hds : Nat.toDigits 10 (n / 10) with
      | nil => exact absurd hds Nat.toDigits_ne_nil
      | cons d ds => rwa [hds] at hrest

/-- The digits of a number have no needless zero in front. -/
theorem isWhole_digits (n : Nat) : IsWhole (Nat.toDigits 10 n) where
  ne_nil := Nat.toDigits_ne_nil
  all _ := isDigit_of_mem_digits
  alone_of_zero hzero := by
    by_cases hn : n = 0
    · rw [hn, Nat.toDigits_zero]
    · exact absurd hzero (head_digits_ne_zero n hn)

/-- An integer: a numeral without fraction and exponent. -/
def ofInteger (negative : Bool) (whole : List Char) : Numeral := ⟨negative, whole, [], none⟩

theorem writes_integer {whole : List Char} (h : IsWhole whole) (negative : Bool) :
    Writes (minus negative ++ whole) (ofInteger negative whole) := by
  have hwrites := @Writes.parts (ofInteger negative whole) [] [] h .nothing .nothing
  simpa [ofInteger] using hwrites

/-! ## Value -/

/-- Digits whose number is within the limit are all taken. -/
theorem absorb_eq_ofDigitChars {limit : Nat} (ds : List Char) (n : Nat)
    (h : Nat.ofDigitChars 10 ds n ≤ limit) :
    absorb limit n ds = (Nat.ofDigitChars 10 ds n, []) := by
  induction ds generalizing n with
  | nil => rw [absorb, Nat.ofDigitChars_nil]
  | cons d ds ih =>
    have hstep : n * 10 + digitValue d = 10 * n + (d.toNat - '0'.toNat) := by
      rw [digitValue, Nat.mul_comm]
    rw [Nat.ofDigitChars_cons] at h ⊢
    -- More digits make the number larger, so what is read so far is within the limit too.
    have hle : 10 * n + (d.toNat - '0'.toNat) ≤ limit := by
      rw [Nat.ofDigitChars_eq_ofDigitChars_zero] at h
      have hpow : 0 < 10 ^ ds.length := Nat.pow_pos (by decide)
      have := Nat.le_mul_of_pos_left (10 * n + (d.toNat - '0'.toNat)) hpow
      omega
    rw [absorb, hstep, if_pos hle, ih _ h]

/-- Its value is the number that the digits stand for, if a word can hold that. -/
theorem value_ofInteger {negative : Bool} {whole : List Char}
    (h : Nat.ofDigitChars 10 whole 0 ≤ maxWord) :
    (ofInteger negative whole).value = .ok (integer negative (Nat.ofDigitChars 10 whole 0)) := by
  simp only [value, ofInteger, absorb_eq_ofDigitChars _ _ h]

/-! ## Integers -/

/-- An integer of 64 bits is read from its sign and its digits. -/
theorem read_integer {whole rest : List Char} (hwhole : IsWhole whole) (hrest : Ends rest)
    (h : Nat.ofDigitChars 10 whole 0 ≤ maxWord) (negative : Bool) :
    read (minus negative ++ whole ++ rest)
      = .ok (integer negative (Nat.ofDigitChars 10 whole 0), rest) := by
  simp only [read, scan_append (writes_integer hwhole negative) hrest, value_ofInteger h]

/-- **A natural number is read back from its digits.** -/
theorem read_digits (n : UInt64) {rest : List Char} (hrest : Ends rest) :
    read (Nat.toDigits 10 n.toNat ++ rest) = .ok (.natural n, rest) := by
  have hn : n.toNat ≤ maxWord := Nat.le_of_lt_succ n.toNat_lt
  have hread := read_integer (isWhole_digits n.toNat) hrest
    (by rwa [Nat.ofDigitChars_ten_toDigits]) false
  rw [Nat.ofDigitChars_ten_toDigits] at hread
  simpa [minus, integer] using hread

/-- **A negative number is read back from its sign and digits.** -/
theorem read_minus_digits {n : UInt64} (hpos : n ≠ 0) (hn : n.toNat ≤ maxNegative)
    {rest : List Char} (hrest : Ends rest) :
    read ('-' :: Nat.toDigits 10 n.toNat ++ rest) = .ok (.negative n, rest) := by
  have hword : n.toNat ≤ maxWord := Nat.le_of_lt_succ n.toNat_lt
  have hzero : n.toNat ≠ 0 := fun h => hpos (UInt64.toNat_inj.mp h)
  have hread := read_integer (isWhole_digits n.toNat) hrest
    (by rwa [Nat.ofDigitChars_ten_toDigits]) true
  rw [Nat.ofDigitChars_ten_toDigits] at hread
  simpa [minus, integer, hzero, Nat.not_lt.mpr hn] using hread

end Worklog.Json.Numeral
