/-
  QueryLint.Text.CharSet

  Sets of characters given as inclusive ranges of code points, the form in which
  character properties are tabulated.
-/
namespace QueryLint.Text

/-- A set of characters, as inclusive ranges of code points in increasing order. -/
structure CharSet where
  ranges : List (Nat × Nat)

/-- Membership: some range holds the code point. -/
def CharSet.contains (s : CharSet) (c : Char) : Bool :=
  s.ranges.any fun r => r.1 ≤ c.toNat && c.toNat ≤ r.2

/-- A character is in a set exactly when one of the ranges holds its code point. -/
theorem CharSet.contains_iff {s : CharSet} {c : Char} :
    s.contains c = true ↔ ∃ r ∈ s.ranges, r.1 ≤ c.toNat ∧ c.toNat ≤ r.2 := by
  simp [CharSet.contains]

end QueryLint.Text
