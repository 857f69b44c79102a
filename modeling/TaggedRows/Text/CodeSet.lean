/-!
# Sets of code points

A set of code points is given by its *boundaries*: the points, in increasing order, at which
membership changes. A code point is in the set when an odd number of boundaries lies at or below
it, so the tables of character properties stay short lists of numbers.
-/

namespace TaggedRows.Text

/-- Membership in the set with the given boundaries. -/
def inBounds (bounds : List Nat) (n : Nat) : Bool :=
  (bounds.takeWhile (· ≤ n)).length % 2 == 1

/-- Membership of a character. -/
def charIn (bounds : List Nat) (c : Char) : Bool :=
  inBounds bounds c.toNat

theorem inBounds_nil (n : Nat) : inBounds [] n = false := rfl

/-- Below the first boundary nothing is in the set. -/
theorem inBounds_of_lt {b n : Nat} (bs : List Nat) (h : n < b) : inBounds (b :: bs) n = false := by
  simp [inBounds, List.takeWhile, Nat.not_le.2 h]

end TaggedRows.Text
