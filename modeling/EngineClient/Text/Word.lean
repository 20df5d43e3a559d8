import EngineClient.Text.Ranges
import EngineClient.Text.WordTable

/-!
# Word characters

Letters, marks, decimal digits, connectors such as the low line, and the two joiners.
-/

namespace EngineClient.Text

def isWordChar (c : Char) : Bool :=
  if c.toNat < 0x80 then c.isAlphanum || c == '_' else wordTable.contains c

end EngineClient.Text
