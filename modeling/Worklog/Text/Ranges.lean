/-!
# Ranges of characters

A set of characters given by the ranges of code points that make it up, each with its first and its
last member.

* `Ranges.mem_iff` — a character is in the set iff one of the ranges holds it.
-/

namespace Worklog.Text

/-- A set of characters as a list of ranges, both ends included. -/
abbrev Ranges := Array (Nat × Nat)

namespace Ranges

def contains (ranges : Ranges) (c : Char) : Bool :=
  ranges.any fun range => range.1 ≤ c.toNat && c.toNat ≤ range.2

theorem mem_iff (ranges : Ranges) (c : Char) :
    ranges.contains c = true ↔ ∃ range ∈ ranges, range.1 ≤ c.toNat ∧ c.toNat ≤ range.2 := by
  rw [contains, Array.any_eq_true']
  simp

end Ranges

end Worklog.Text
