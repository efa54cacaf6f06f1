import Mathlib.Data.List.Forall2

/-!
# Tables with related entries

Two tables have the same names in the same order, and what a name stands for in one of them is related
to what it stands for in the other. Then whatever is looked up, put in or taken out under a name, is
related, too.

* `Entrywise` — the relation between tables.
* `Entrywise.lookup`, `Entrywise.filter`, `Entrywise.map_eq` — what it gives.
-/

namespace Worklog

variable {α β γ : Type} {R : α → β → Prop}

/-! ## Lists -/

/-- What does not depend on the side is the same for related lists. -/
theorem map_eq_map_of_forall₂ {f : α → γ} {g : β → γ} {xs : List α} {ys : List β}
    (h : List.Forall₂ R xs ys) (hfg : ∀ a b, R a b → f a = g b) : xs.map f = ys.map g := by
  rw [← List.forall₂_eq_eq_eq, List.forall₂_map_left_iff, List.forall₂_map_right_iff]
  exact h.imp hfg

theorem filterMap_eq_of_forall₂ {f : α → Option γ} {g : β → Option γ} {xs : List α} {ys : List β}
    (h : List.Forall₂ R xs ys) (hfg : ∀ a b, R a b → f a = g b) :
    xs.filterMap f = ys.filterMap g := by
  induction h with
  | nil => rfl
  | cons hfirst _ ih => rw [List.filterMap_cons, List.filterMap_cons, ih, hfg _ _ hfirst]

/-- Two options are both empty, or hold things that are related. -/
theorem none_or_some {a : Option α} {b : Option β} (h : Option.Rel R a b) :
    (a = none ∧ b = none) ∨ ∃ x y, a = some x ∧ b = some y ∧ R x y := by
  cases h with
  | none => exact .inl ⟨rfl, rfl⟩
  | some hrel => exact .inr ⟨_, _, rfl, rfl, hrel⟩

/-! ## Tables -/

section Tables

variable {κ : Type}

/-- The same names in the same order, for things that are related. -/
def Entrywise (R : α → β → Prop) : List (κ × α) → List (κ × β) → Prop :=
  List.Forall₂ fun a b => a.1 = b.1 ∧ R a.2 b.2

/-- A table is related to itself if all things are. -/
theorem entrywise_refl {R : α → α → Prop} (hrefl : ∀ x, R x x) (table : List (κ × α)) :
    Entrywise R table table :=
  List.forall₂_same.mpr fun entry _ => ⟨rfl, hrefl entry.2⟩

variable {a : List (κ × α)} {b : List (κ × β)}

/-- Under a name there is nothing in both tables, or there are things that are related. -/
theorem Entrywise.lookup [BEq κ] (h : Entrywise R a b) (name : κ) :
    Option.Rel R (a.lookup name) (b.lookup name) := by
  induction h with
  | nil => exact .none
  | @cons x y a b hentry _ ih =>
    obtain ⟨key, value⟩ := x
    obtain ⟨_, other⟩ := y
    obtain ⟨rfl, hvalue⟩ := hentry
    simp only [List.lookup_cons]
    cases name == key with
    | true => exact .some hvalue
    | false => exact ih

theorem Entrywise.filter (h : Entrywise R a b) (keep : κ → Bool) :
    Entrywise R (a.filter fun entry => keep entry.1) (b.filter fun entry => keep entry.1) := by
  induction h with
  | nil => exact .nil
  | @cons x y a b hentry _ ih =>
    rw [List.filter_cons, List.filter_cons, hentry.1]
    split
    next => exact .cons hentry ih
    next => exact ih

/-- The names, and what related things have in common. -/
theorem Entrywise.map_eq (h : Entrywise R a b) {f : α → γ} {g : β → γ}
    (hfg : ∀ x y, R x y → f x = g y) :
    (a.map fun entry => (entry.1, f entry.2)) = b.map fun entry => (entry.1, g entry.2) :=
  map_eq_map_of_forall₂ h fun _ _ hentry => Prod.ext hentry.1 (hfg _ _ hentry.2)

end Tables

end Worklog
