import EngineClient.Text.Utf8

/-!
# Percent-encoding

Object keys and query values are sent with the bytes that mean something in an address written as
`%` and two hexadecimal digits. Values of a query have a plus sign for a space; in a path a plus sign
would stay one, so a space is written as `%20` there.
-/

namespace EngineClient.Percent

def hexDigit (n : Nat) : Char :=
  if n < 10 then Char.ofNat (48 + n) else Char.ofNat (55 + n)

/-- A byte as `%` and two digits. -/
def triple (b : UInt8) : List Char := ['%', hexDigit (b.toNat / 16), hexDigit (b.toNat % 16)]

/-- The bytes that stand for themselves: ASCII letters and digits and four marks. -/
def isPlain (b : UInt8) : Bool :=
  let c := Char.ofNat b.toNat
  c.isAlphanum || c == '*' || c == '-' || c == '.' || c == '_'

def formByte (b : UInt8) : List Char :=
  if isPlain b then [Char.ofNat b.toNat] else if b = 32 then ['+'] else triple b

/-- A text as the value of a query. -/
def form (text : List Char) : List Char := (Utf8.encode text).flatMap formByte

/-- A segment of a path: as in a query, but with a space instead of each plus sign, written as a
triple. -/
def segment (text : List Char) : List Char :=
  (form text).flatMap fun c => if c = '+' then ['%', '2', '0'] else [c]

/-- The path of an object key: its segments, each encoded. -/
def keyPath (key : List Char) : List Char :=
  ['/'].intercalate ((key.splitOn '/').map segment)

def hexValue? (c : Char) : Option Nat :=
  if c.isDigit then some (c.toNat - 48)
  else if 'A' ≤ c ∧ c ≤ 'F' then some (c.toNat - 55)
  else if 'a' ≤ c ∧ c ≤ 'f' then some (c.toNat - 87)
  else none

/-- The bytes that a percent-encoded text stands for. A plus sign is no space here, and what is not
encoded stands for its own bytes. -/
def decode : List Char → Bytes
  | [] => []
  | '%' :: h :: l :: rest =>
    match hexValue? h, hexValue? l with
    | some high, some low => UInt8.ofNat (high * 16 + low) :: decode rest
    | _, _ => Utf8.encode ['%'] ++ decode (h :: l :: rest)
  | c :: rest => Utf8.encode [c] ++ decode rest

end EngineClient.Percent
