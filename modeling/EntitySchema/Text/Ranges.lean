/-!
# Ranges of code points

A character property is stored as the list of the closed ranges of code points that have it.
-/

set_option autoImplicit false

namespace EntitySchema.Text

def inRanges (ranges : List (Nat × Nat)) (n : Nat) : Bool :=
  ranges.any fun r => decide (r.1 ≤ n) && decide (n ≤ r.2)

end EntitySchema.Text
