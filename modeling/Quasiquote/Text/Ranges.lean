/-!
# Sets of characters

A set of characters is written as closed ranges of character numbers, ascending and apart, so that a
set has one written form.
-/

namespace Quasiquote

/-- Whether no range is empty, and each starts behind a gap. -/
def areAscending : List (Nat × Nat) → Bool
  | [] => true
  | [(first, last)] => first ≤ last
  | (first, last) :: (next, end') :: rest =>
    first ≤ last && last + 1 < next && areAscending ((next, end') :: rest)

structure Ranges where
  bounds : List (Nat × Nat)
  ascending : areAscending bounds

def Ranges.has (ranges : Ranges) (c : Char) : Bool :=
  ranges.bounds.any fun (first, last) => first ≤ c.toNat && c.toNat ≤ last

end Quasiquote
