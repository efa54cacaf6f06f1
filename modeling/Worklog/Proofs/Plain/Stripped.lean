import Worklog.Proofs.Roundtrip.Literal
import Worklog.Terminal.Strip

/-!
# What is left of a text without control sequences

A text with no escape character opens no control sequence. Stripping it drops its control characters,
and nothing else. Among them are characters above the ASCII ones: a text that is all printable by the
rules of a literal may still lose some.

* `stripFrom_ground` — outside every sequence, what is shown is left.
* `strip_of_printable` — a printable text loses its high control characters.
-/

namespace Worklog.Terminal

/-! ## Outside every sequence -/

/-- Outside of control sequences a character is shown, unless it is a control character itself. -/
theorem step_ground {c : Char} (h : c ≠ '\x1b') :
    step .ground c = (.ground, if isShown c then [c] else []) := by
  rw [step, if_neg h]

/-- A text without the escape character loses its control characters and nothing else. -/
theorem stripFrom_ground {text : List Char} (h : '\x1b' ∉ text) :
    stripFrom .ground text = text.filter isShown := by
  induction text with
  | nil => rfl
  | cons c text ih =>
    have hc : '\x1b' ≠ c := List.ne_of_not_mem_cons h
    rw [stripFrom, step_ground hc.symm, ih (List.not_mem_of_not_mem_cons h)]
    by_cases hshown : isShown c = true
    · rw [if_pos hshown, List.filter_cons_of_pos hshown, List.singleton_append]
    · rw [if_neg hshown, List.filter_cons_of_neg hshown, List.nil_append]

/-- Without the escape character no control sequence begins. -/
theorem modeAfter_ground {text : List Char} (h : '\x1b' ∉ text) :
    modeAfter .ground text = .ground := by
  induction text with
  | nil => rfl
  | cons c text ih =>
    have hc : '\x1b' ≠ c := List.ne_of_not_mem_cons h
    rw [modeAfter, List.foldl_cons, step_ground hc.symm]
    exact ih (List.not_mem_of_not_mem_cons h)

/-! ## High control characters -/

/-- A control character above the ASCII characters. -/
def isHighControl (c : Char) : Bool := 0x80 ≤ c.toNat && c.toNat ≤ 0x9f

/-- A text without its high control characters. -/
def withoutHigh (text : List Char) : List Char := text.filter fun c => !isHighControl c

@[simp] theorem withoutHigh_nil : withoutHigh [] = [] := rfl

@[simp] theorem withoutHigh_append (a b : List Char) :
    withoutHigh (a ++ b) = withoutHigh a ++ withoutHigh b := List.filter_append ..

/-- A text without high control characters keeps all of its characters. -/
theorem withoutHigh_eq_self {text : List Char} (h : ∀ c ∈ text, isHighControl c = false) :
    withoutHigh text = text :=
  List.filter_eq_self.mpr fun c hc => by simpa using h c hc

/-- No character of ASCII is a high control character. -/
theorem isHighControl_of_lt {c : Char} (h : c.toNat < 0x80) : isHighControl c = false := by
  simp only [isHighControl, Bool.and_eq_false_iff, decide_eq_false_iff_not]
  omega

@[simp] theorem withoutHigh_cons_of_lt {c : Char} (h : c.toNat < 0x80) (text : List Char) :
    withoutHigh (c :: text) = c :: withoutHigh text :=
  List.filter_cons_of_pos (by simp [isHighControl_of_lt h])

/-- The text as it is shown without a terminal, if it is printable. -/
def cleared (text : String) : String := String.ofList (withoutHigh text.toList)

@[simp] theorem toList_cleared (text : String) : (cleared text).toList = withoutHigh text.toList :=
  String.toList_ofList

/-- A text is cleared of nothing if there is nothing to clear it of. -/
theorem cleared_eq_self {text : String} (h : ∀ c ∈ text.toList, isHighControl c = false) :
    cleared text = text :=
  String.toList_injective (by rw [toList_cleared, withoutHigh_eq_self h])

/-- **A printable text loses its high control characters**, and nothing else. -/
theorem strip_of_printable {text : String} (h : Printable text.toList) :
    strip text = cleared text := by
  have hescape : '\x1b' ∉ text.toList := fun hmem => absurd (h _ hmem) (by decide)
  rw [strip, stripFrom_ground hescape, cleared, withoutHigh]
  congr 1
  refine List.filter_congr fun c hc => ?_
  have hprintable : ¬ c.toNat < 0x20 := Nat.not_lt.mpr (h c hc)
  have hbreak : c ≠ '\n' := by
    rintro rfl
    exact absurd (h _ hc) (by decide)
  simp [isShown, isHighControl, hbreak, hprintable]

end Worklog.Terminal
