/-!
# Sets of code points

A property of characters beyond ASCII is a set of code points, given as inclusive ranges in
ascending order.  The tables of the single properties stand in the modules named for them.
-/

namespace DocLinks
namespace Text

/-- A set of code points: inclusive ranges, ascending and disjoint. -/
abbrev CodeRanges := List (Nat × Nat)

namespace CodeRanges

/-- Whether a character lies in one of the ranges. -/
def contains (rs : CodeRanges) (c : Char) : Bool :=
  rs.any fun r => r.1 ≤ c.toNat && c.toNat ≤ r.2

theorem contains_iff (rs : CodeRanges) (c : Char) :
    rs.contains c = true ↔ ∃ r ∈ rs, r.1 ≤ c.toNat ∧ c.toNat ≤ r.2 := by
  simp [contains]

end CodeRanges

end Text
end DocLinks
