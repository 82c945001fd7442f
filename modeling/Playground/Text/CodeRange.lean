/-!
# Inclusive ranges of code points

Character classes beyond ASCII are tables of ranges. `inRanges` is the only way
the tables are consulted, so a class is exactly the union of its rows.
-/

namespace Playground.Text

/-- Whether a character lies in one of the inclusive ranges of a table. -/
def inRanges (table : Array (Nat × Nat)) (character : Char) : Bool :=
  table.any fun range => range.1 ≤ character.toNat && character.toNat ≤ range.2

end Playground.Text
