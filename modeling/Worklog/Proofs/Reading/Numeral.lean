import Worklog.Proofs.Roundtrip.Numeral

/-!
# Numerals as they are written

Only a numeral is read as a number, and only its sign, its point, its exponent or its size keep it
from being a natural number of 64 bits.

* `scan_eq_ok_iff` — what is read is a numeral, and each numeral is read.
* `value_eq_natural_iff` — the numerals that are natural numbers.
-/

namespace Worklog.Json.Numeral

/-! ## Parts -/

theorem append_run (text : List Char) : text = (run text).1 ++ (run text).2 := by
  simp [run]

theorem isDigit_of_mem_run {text : List Char} {c : Char} (h : c ∈ (run text).1) :
    isDigit c = true := by
  have hall := List.all_takeWhile (l := text) (p := isDigit)
  exact List.all_eq_true.mp hall c h

theorem isDigits_run {text : List Char} (h : (run text).1 ≠ []) : IsDigits (run text).1 :=
  ⟨h, fun _ => isDigit_of_mem_run⟩

/-- The whole part that is scanned has no needless zero in front. -/
theorem isWhole_of_scanWhole {text whole rest : List Char}
    (h : scanWhole text = .ok (whole, rest)) : IsWhole whole ∧ text = whole ++ rest := by
  have hzero : IsWhole ['0'] := isWhole_digits 0
  unfold scanWhole at h
  split at h
  next => simp at h
  next c tail =>
    split at h
    next hc =>
      subst hc
      split at h
      next =>
        simp only [Except.ok.injEq, Prod.mk.injEq] at h
        obtain ⟨rfl, rfl⟩ := h
        exact ⟨hzero, rfl⟩
      next =>
        split at h
        · simp at h
        · simp only [Except.ok.injEq, Prod.mk.injEq] at h
          obtain ⟨rfl, rfl⟩ := h
          exact ⟨hzero, rfl⟩
    next hc =>
      split at h
      next hdigit =>
        have htake : (run (c :: tail)).1 = c :: (run tail).1 := by simp [run, hdigit]
        have htext := append_run (c :: tail)
        have hdigits : IsDigits (run (c :: tail)).1 := isDigits_run (by simp [htake])
        have hhead : (run (c :: tail)).1.head? ≠ some '0' := by simpa [htake] using hc
        rw [Except.ok.inj h] at htext hdigits hhead
        exact ⟨⟨hdigits, fun h => absurd h hhead⟩, htext⟩
      next => simp at h

/-- What is scanned as a fraction was written as one, or there is none. -/
theorem writes_of_scanFraction {text ds rest : List Char}
    (h : scanFraction text = .ok (ds, rest)) :
    ∃ piece, WritesFraction piece ds ∧ text = piece ++ rest := by
  unfold scanFraction at h
  split at h
  next tail =>
    have htext := append_run tail
    have hdigits : (run tail).1 ≠ [] → IsDigits (run tail).1 := isDigits_run
    split at h
    · simp at h
    · simp at h
    · next hrun =>
      rw [Except.ok.inj h] at htext hdigits hrun
      have hne : (ds, rest).1 ≠ [] := by
        rw [hrun]
        exact List.cons_ne_nil _ _
      exact ⟨'.' :: ds, .digits (hdigits hne), by rw [htext]; rfl⟩
  next =>
    simp only [Except.ok.injEq, Prod.mk.injEq] at h
    obtain ⟨rfl, rfl⟩ := h
    exact ⟨[], .nothing, rfl⟩

theorem writes_scanSign (text : List Char) :
    ∃ sign, WritesSign sign (scanSign text).1 ∧ text = sign ++ (scanSign text).2 := by
  unfold scanSign
  split
  · exact ⟨['+'], .plus, rfl⟩
  · exact ⟨['-'], .minus, rfl⟩
  · exact ⟨[], .nothing, rfl⟩

theorem writes_of_scanExponent {text rest : List Char} {exponent : Option Exponent}
    (h : scanExponent text = .ok (exponent, rest)) :
    ∃ piece, WritesExponent piece exponent ∧ text = piece ++ rest := by
  unfold scanExponent at h
  split at h
  next =>
    simp only [Except.ok.injEq, Prod.mk.injEq] at h
    obtain ⟨rfl, rfl⟩ := h
    exact ⟨[], .nothing, rfl⟩
  next c tail =>
    split at h
    next hletter =>
      obtain ⟨sign, hsign, htail⟩ := writes_scanSign tail
      have htext := append_run (scanSign tail).2
      dsimp only at h
      split at h
      · simp at h
      · simp at h
      · next digits rest' hnil hmore hrun =>
        simp only [Except.ok.injEq, Prod.mk.injEq] at h
        obtain ⟨rfl, rfl⟩ := h
        -- The reader has seen to it that there are digits after the sign.
        have hne : digits ≠ [] := by
          rintro rfl
          cases rest' with
          | nil => exact hnil rfl rfl
          | cons d rest' => exact hmore d rest' rfl rfl
        have hdigits : IsDigits (run (scanSign tail).2).1 :=
          isDigits_run (by simpa [hrun] using hne)
        rw [hrun] at htext hdigits
        refine ⟨_, .digits (by simpa using hletter) hsign hdigits, ?_⟩
        rw [htail, htext]
        simp
    next =>
      simp only [Except.ok.injEq, Prod.mk.injEq] at h
      obtain ⟨rfl, rfl⟩ := h
      exact ⟨[], .nothing, rfl⟩

/-! ## Numerals -/

/-- A numeral is scanned from a text that writes it. -/
theorem writes_of_scan {text rest : List Char} {numeral : Numeral}
    (h : scan text = .ok (numeral, rest)) :
    ∃ piece, Writes piece numeral ∧ text = piece ++ rest := by
  unfold scan at h
  split at h
  next negative tail hsign =>
    have htext : text = minus negative ++ tail := by
      split at hsign
      all_goals
        simp only [Prod.mk.injEq] at hsign
        obtain ⟨rfl, rfl⟩ := hsign
        rfl
    split at h
    next => simp at h
    next whole tail₁ hwhole =>
      split at h
      next => simp at h
      next ds tail₂ hfraction =>
        split at h
        next => simp at h
        next exponent tail₃ hexponent =>
          simp only [Except.ok.injEq, Prod.mk.injEq] at h
          obtain ⟨rfl, rfl⟩ := h
          obtain ⟨hisWhole, rfl⟩ := isWhole_of_scanWhole hwhole
          obtain ⟨fraction, hwritten, rfl⟩ := writes_of_scanFraction hfraction
          obtain ⟨piece, hpiece, rfl⟩ := writes_of_scanExponent hexponent
          exact ⟨_, @Writes.parts ⟨negative, whole, ds, exponent⟩ _ _ hisWhole hwritten hpiece,
            by simp [htext]⟩

/-- **A numeral is read, and nothing else is.** -/
theorem scan_eq_ok_iff {text rest : List Char} {numeral : Numeral} (hrest : Ends rest) :
    scan text = .ok (numeral, rest) ↔ ∃ piece, Writes piece numeral ∧ text = piece ++ rest := by
  constructor
  · exact writes_of_scan
  · rintro ⟨piece, hpiece, rfl⟩
    exact scan_append hpiece hrest

/-- A numeral starts with its sign or a digit. -/
theorem Writes.head {piece : List Char} {numeral : Numeral} (h : Writes piece numeral) :
    ∃ c tail, piece = c :: tail ∧ (c = '-' ∨ isDigit c = true) := by
  obtain ⟨hwhole, -, -⟩ := h
  rename_i fraction exponent
  cases hnegative : numeral.negative with
  | true => exact ⟨'-', _, rfl, .inl rfl⟩
  | false =>
    cases hds : numeral.whole with
    | nil => exact absurd hds hwhole.ne_nil
    | cons d ds => exact ⟨d, ds ++ (fraction ++ exponent), rfl, .inr (hwhole.all d (by simp [hds]))⟩

/-- An integer without a sign is written as its digits. -/
theorem writes_whole_iff {piece whole : List Char} :
    Writes piece (ofInteger false whole) ↔ piece = whole ∧ IsWhole whole := by
  constructor
  · rintro ⟨hwhole, hfraction, hexponent⟩
    cases hfraction with
    | nothing =>
      cases hexponent with
      | nothing => exact ⟨by simp [minus, ofInteger], hwhole⟩
    | digits h => exact absurd rfl h.ne_nil
  · rintro ⟨rfl, hwhole⟩
    exact writes_integer hwhole false

/-! ## Values -/

/-- Digits that are all absorbed have the value that they are usually given. -/
theorem ofDigitChars_of_absorb {limit n m : Nat} {ds : List Char} (h : absorb limit n ds = (m, [])) :
    m = Nat.ofDigitChars 10 ds n := by
  induction ds generalizing n with
  | nil => simpa [absorb] using h.symm
  | cons d ds ih =>
    rw [absorb] at h
    split at h
    · rw [Nat.ofDigitChars_cons, ih h, digitValue, Nat.mul_comm n 10]
    · simp at h

/-- What is taken of the digits stays within the limit. -/
theorem absorb_le {limit n : Nat} (hn : n ≤ limit) (ds : List Char) :
    (absorb limit n ds).1 ≤ limit := by
  induction ds generalizing n with
  | nil => exact hn
  | cons d ds ih =>
    rw [absorb]
    split
    next hle => exact ih hle
    next => exact hn

/-- An integer without a sign is a natural number. -/
theorem integer_eq_natural_iff {negative : Bool} {m : Nat} (hm : m ≤ maxWord) {n : UInt64} :
    integer negative m = .natural n ↔ negative = false ∧ m = n.toNat := by
  cases negative with
  | true =>
    rw [integer, if_pos rfl]
    split <;> simp [signed]
  | false =>
    have hlt : m < UInt64.size := Nat.lt_succ_of_le hm
    rw [integer, if_neg Bool.false_ne_true, Number.natural.injEq, ← UInt64.toNat_inj,
      UInt64.toNat_ofNat_of_lt' hlt]
    simp

/-- **A numeral is a natural number iff it has no sign, fraction and exponent and fits 64 bits.** -/
theorem value_eq_natural_iff {numeral : Numeral} {n : UInt64} :
    numeral.value = .ok (.natural n)
      ↔ ∃ whole, numeral = ofInteger false whole ∧ Nat.ofDigitChars 10 whole 0 = n.toNat := by
  constructor
  · intro h
    obtain ⟨negative, whole, fraction, exponent⟩ := numeral
    have hle : (absorb maxWord 0 whole).1 ≤ maxWord := absorb_le (Nat.zero_le _) whole
    simp only [value] at h
    split at h
    next hdropped =>
      have habsorb : absorb maxWord 0 whole = ((absorb maxWord 0 whole).1, []) :=
        Prod.ext rfl hdropped
      obtain ⟨rfl, hvalue⟩ := (integer_eq_natural_iff hle).mp (Except.ok.inj h)
      exact ⟨whole, rfl, by rw [← ofDigitChars_of_absorb habsorb, hvalue]⟩
    next =>
      -- What is no integer is a double-precision number, in each of the ways to get there.
      exfalso
      split at h
      · split at h <;> simp [signed] at h
      · split at h
        · split at h <;> simp [signed] at h
        · split at h <;> simp [signed] at h
  · rintro ⟨whole, rfl, hvalue⟩
    have hle : Nat.ofDigitChars 10 whole 0 ≤ maxWord := by
      rw [hvalue]
      exact Nat.le_of_lt_succ n.toNat_lt
    rw [value_ofInteger hle, (integer_eq_natural_iff hle).mpr ⟨rfl, hvalue⟩]

/-- A numeral with something that a natural number of 64 bits does not have. -/
def Unnatural (numeral : Numeral) : Prop :=
  numeral.negative = true ∨ numeral.fraction ≠ [] ∨ numeral.exponent ≠ none
    ∨ UInt64.size ≤ Nat.ofDigitChars 10 numeral.whole 0

instance (numeral : Numeral) : Decidable numeral.Unnatural :=
  inferInstanceAs (Decidable (_ ∨ _ ∨ _ ∨ _))

theorem exists_value_natural_iff {numeral : Numeral} :
    (∃ n, numeral.value = .ok (.natural n)) ↔ ¬ Unnatural numeral := by
  constructor
  · rintro ⟨n, h⟩ hunnatural
    obtain ⟨whole, rfl, hvalue⟩ := value_eq_natural_iff.mp h
    have hsize : UInt64.size ≤ n.toNat := by simpa [Unnatural, ofInteger, hvalue] using hunnatural
    exact absurd n.toNat_lt_size (Nat.not_lt.mpr hsize)
  · intro h
    obtain ⟨negative, whole, fraction, exponent⟩ := numeral
    simp only [Unnatural, not_or, Bool.not_eq_true, ne_eq, Decidable.not_not, Nat.not_le] at h
    obtain ⟨rfl, rfl, rfl, hlt⟩ := h
    exact ⟨UInt64.ofNat (Nat.ofDigitChars 10 whole 0), value_eq_natural_iff.mpr ⟨whole, rfl,
      (UInt64.toNat_ofNat_of_lt' hlt).symm⟩⟩

/-! ## Numbers -/

/-- A numeral is read up to its end if what follows cannot be taken for more of it. -/
theorem read_append {piece rest : List Char} {numeral : Numeral} {n : Number}
    (h : Writes piece numeral) (hvalue : numeral.value = .ok n) (hrest : Ends rest) :
    read (piece ++ rest) = .ok (n, rest) := by
  simp only [read, scan_append h hrest, hvalue]

theorem value_of_read {piece : List Char} {numeral : Numeral} {n : Number}
    (h : Writes piece numeral) (hread : read piece = .ok (n, [])) : numeral.value = .ok n := by
  have hscan : scan piece = .ok (numeral, []) :=
    (scan_eq_ok_iff ends_nil).mpr ⟨piece, h, (List.append_nil piece).symm⟩
  simp only [read, hscan] at hread
  split at hread
  next hvalue => simpa [hvalue] using hread
  next => simp at hread

/-- Whatever is read as a number was written as a numeral with that value. -/
theorem writes_of_read {text rest : List Char} {n : Number} (h : read text = .ok (n, rest)) :
    ∃ piece numeral, Writes piece numeral ∧ numeral.value = .ok n ∧ text = piece ++ rest := by
  unfold read at h
  split at h
  next => simp at h
  next numeral tail hscan =>
    split at h
    next result hvalue =>
      simp only [Except.ok.injEq, Prod.mk.injEq] at h
      obtain ⟨rfl, rfl⟩ := h
      obtain ⟨piece, hpiece, rfl⟩ := writes_of_scan hscan
      exact ⟨piece, numeral, hpiece, hvalue, rfl⟩
    next => simp at h

end Worklog.Json.Numeral
