import EngineClient.Text.Ranges
import EngineClient.Text.GraphemeExtendTable
import EngineClient.Text.UnprintableTable

/-!
# Quoted text

A text inside a message stands between double quotes, with escapes for what could not be read:
quotes, backslashes, line ends, characters without a glyph and marks that would attach to the
character before them.
-/

namespace EngineClient.Text

/-- Whether a character shows as itself in quoted text. -/
def isReadable (c : Char) : Bool :=
  if c.toNat < 0x80 then 0x20 ≤ c.toNat && c.toNat ≤ 0x7E
  else !graphemeExtendTable.contains c && !unprintableTable.contains c

def codePointEscape (c : Char) : List Char :=
  '\\' :: 'u' :: '\x7b' :: Nat.toDigits 16 c.toNat ++ ['\x7d']

def quotedChar (c : Char) : List Char :=
  if c = '"' || c = '\\' then ['\\', c]
  else if c = '\x00' then ['\\', '0']
  else if c = '\t' then ['\\', 't']
  else if c = '\r' then ['\\', 'r']
  else if c = '\n' then ['\\', 'n']
  else if isReadable c then [c]
  else codePointEscape c

/-- A text between double quotes. -/
def quoted (s : String) : String :=
  String.ofList ('"' :: s.toList.flatMap quotedChar ++ ['"'])

end EngineClient.Text
