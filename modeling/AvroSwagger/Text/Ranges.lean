/-!
# AvroSwagger.Text.Ranges

**Sets of characters as ranges of code points.**

The ends of a range belong to it.  Ranges are listed in increasing order.
-/

namespace AvroSwagger.Text

/-- Ranges of code points, each with its first and its last. -/
abbrev Ranges : Type := List (Nat × Nat)

/-- Whether a character lies in one of the ranges. -/
def Ranges.holds (ranges : Ranges) (c : Char) : Bool :=
  ranges.any fun (first, last) => first ≤ c.toNat && c.toNat ≤ last

end AvroSwagger.Text
