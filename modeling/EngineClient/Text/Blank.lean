import EngineClient.Text.Ranges

/-!
# White space

The characters that count as blank, and the texts made of them alone.
-/

namespace EngineClient.Text

/-- The characters with the property White_Space. -/
def whiteSpaceTable : Ranges :=
  [(0x9, 0xD), (0x20, 0x20), (0x85, 0x85), (0xA0, 0xA0), (0x1680, 0x1680), (0x2000, 0x200A),
   (0x2028, 0x2029), (0x202F, 0x202F), (0x205F, 0x205F), (0x3000, 0x3000)]

def isSpace (c : Char) : Bool := whiteSpaceTable.contains c

/-- Whether nothing is left of a string once white space is taken off both ends. -/
def isBlank (s : String) : Bool := s.toList.all isSpace

end EngineClient.Text
