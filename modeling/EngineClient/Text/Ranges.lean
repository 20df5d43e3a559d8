/-!
# Ranges of code points

A property of characters is kept as a list of inclusive ranges of code points.
-/

namespace EngineClient.Text

/-- Inclusive ranges of code points. -/
abbrev Ranges := List (Nat × Nat)

def Ranges.contains (table : Ranges) (c : Char) : Bool :=
  table.any fun range => range.1 ≤ c.toNat && c.toNat ≤ range.2

end EngineClient.Text
