import Worklog.Json.Writer

/-!
# String literals written and read back

Each character is read back from the way it is written, so all of them are, up to the closing quote.

* `characters_escaped` — reading undoes writing, whatever follows the closing quote.
* `escaped_printable` — no control character is written.
-/

namespace Worklog

/-! ## Text without control characters -/

/-- A text that stays on one physical line. -/
def Printable (text : List Char) : Prop := ∀ c ∈ text, 0x20 ≤ c.toNat

@[simp] theorem printable_nil : Printable [] := List.forall_mem_nil _

@[simp] theorem printable_cons {c : Char} {text : List Char} :
    Printable (c :: text) ↔ 0x20 ≤ c.toNat ∧ Printable text :=
  List.forall_mem_cons

@[simp] theorem printable_append {text more : List Char} :
    Printable (text ++ more) ↔ Printable text ∧ Printable more :=
  List.forall_mem_append

namespace Json.Literal

/-! ## Hexadecimal escapes -/

/-- A digit is read back. -/
theorem hexDigit?_hexDigit {n : Nat} (h : n < 16) : hexDigit? (hexDigit n) = some n := by
  have hall : ∀ m ∈ List.range 16, hexDigit? (hexDigit m) = some m := by decide
  exact hall n (List.mem_range.mpr h)

theorem hexDigit_printable {n : Nat} (h : n < 16) : 0x20 ≤ (hexDigit n).toNat := by
  have hall : ∀ m ∈ List.range 16, 0x20 ≤ (hexDigit m).toNat := by decide
  exact hall n (List.mem_range.mpr h)

/-- The four digits that stand for a control character. -/
theorem hexWord_control {c : Char} (h : c.toNat < 0x20) (rest : List Char) :
    hexWord ('0' :: '0' :: hexDigit (c.toNat / 16) :: hexDigit (c.toNat % 16) :: rest)
      = .ok (c.toNat, rest) := by
  have hzero : hexDigit? '0' = some 0 := by decide
  have hhigh : hexDigit? (hexDigit (c.toNat / 16)) = some (c.toNat / 16) :=
    hexDigit?_hexDigit (by omega)
  have hlow : hexDigit? (hexDigit (c.toNat % 16)) = some (c.toNat % 16) :=
    hexDigit?_hexDigit (by omega)
  have hsum : c.toNat / 16 * 16 + c.toNat % 16 = c.toNat := by omega
  simp [hexWord, hexWord?, hzero, hhigh, hlow, hsum]

/-- A control character is read back from its escape. -/
theorem hexEscape_control {c : Char} (h : c.toNat < 0x20) (rest : List Char) :
    hexEscape ('0' :: '0' :: hexDigit (c.toNat / 16) :: hexDigit (c.toNat % 16) :: rest)
      = .ok (c, rest) := by
  have htrailing : isTrailing c.toNat = false := by
    simp only [isTrailing, Bool.and_eq_false_iff, decide_eq_false_iff_not]
    omega
  have hleading : isLeading c.toNat = false := by
    simp only [isLeading, Bool.and_eq_false_iff, decide_eq_false_iff_not]
    omega
  simp [hexEscape, hexWord_control h, htrailing, hleading]

/-! ## Characters -/

/-- **A character is read back from the way it is written.** -/
theorem character_escapedChar (c : Char) (rest : List Char) :
    character (escapedChar c ++ rest) = .ok (some c, rest) := by
  -- The cases are those of the writer; only the last two leave the character open.
  unfold escapedChar
  split
  · next h => subst h; rfl
  split
  · next h => subst h; rfl
  split
  · next h => subst h; rfl
  split
  · next h => subst h; rfl
  split
  · next h => subst h; rfl
  split
  · next h => subst h; rfl
  split
  · next h => subst h; rfl
  split
  · next h =>
    have hescape : escape ('u' :: '0' :: '0' :: hexDigit (c.toNat / 16)
        :: hexDigit (c.toNat % 16) :: rest) = .ok (c, rest) := by
      rw [escape, if_pos rfl, hexEscape_control h]
    simp [character, hescape]
  · next hquote hbackslash _ _ _ _ _ hcontrol =>
    rw [List.cons_append, List.nil_append, character, if_neg hquote, if_neg hbackslash,
      if_neg hcontrol]

theorem escapedChar_printable (c : Char) : Printable (escapedChar c) := by
  have hshort {x : Char} (hx : 0x20 ≤ x.toNat) : Printable ['\\', x] := by
    simp [hx]
  unfold escapedChar
  split
  · exact hshort (by decide)
  split
  · exact hshort (by decide)
  split
  · exact hshort (by decide)
  split
  · exact hshort (by decide)
  split
  · exact hshort (by decide)
  split
  · exact hshort (by decide)
  split
  · exact hshort (by decide)
  split
  · have hhigh : 0x20 ≤ (hexDigit (c.toNat / 16)).toNat := hexDigit_printable (by omega)
    have hlow : 0x20 ≤ (hexDigit (c.toNat % 16)).toNat := hexDigit_printable (by omega)
    simp [hhigh, hlow]
  · next hcontrol => simpa using hcontrol

/-! ## Whole literals -/

/-- **Reading a literal undoes writing it.** -/
theorem characters_escaped (cs rest : List Char) :
    characters (escaped cs ++ '"' :: rest) = .ok (cs, rest) := by
  induction cs with
  | nil =>
    rw [characters.eq_def]
    rfl
  | cons c cs ih =>
    have hc : escaped (c :: cs) ++ '"' :: rest
        = escapedChar c ++ (escaped cs ++ '"' :: rest) := by
      simp [escaped]
    rw [hc, characters.eq_def, character_escapedChar]
    simp only [ih]

/-- Nothing unprintable is left in an escaped text. -/
theorem escaped_printable (cs : List Char) : Printable (escaped cs) := by
  intro c hc
  obtain ⟨d, -, hd⟩ := List.mem_flatMap.mp hc
  exact escapedChar_printable d c hd

end Json.Literal

end Worklog
