/-!
Sets of characters given by ranges of code points, as the tables of the Unicode standard give them.
-/

namespace IvrFlow.Text

/-- Ranges of code points, both ends included. -/
abbrev Ranges := List (Nat × Nat)

/-- A character belongs to a table when one of the table's ranges holds its code point. -/
def Ranges.contains (table : Ranges) (c : Char) : Bool :=
  table.any fun range => range.1 ≤ c.toNat && c.toNat ≤ range.2

end IvrFlow.Text
