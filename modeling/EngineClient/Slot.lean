import EngineClient.Error

/-!
# Slots

A batch crosses the boundary to the engine as a row of slots. A slot is a length, four bytes little
endian and signed, and that many bytes; length -1 marks an absent value. `wire` is the row of a list
of optional values, `encode` writes rows of values that are all present, and `decode` reads a whole
buffer as a row or says where it stops being one.
-/

namespace EngineClient.Slot

/-- The longest value a slot can hold. -/
def maxLength : Nat := 2147483647

/-- Four bytes, least significant first. -/
def word (n : Nat) : Bytes :=
  [UInt8.ofNat n, UInt8.ofNat (n / 256), UInt8.ofNat (n / 65536), UInt8.ofNat (n / 16777216)]

/-- The number that four bytes spell, least significant first. -/
def ofWord (b₀ b₁ b₂ b₃ : UInt8) : Nat :=
  b₀.toNat + b₁.toNat * 256 + b₂.toNat * 65536 + b₃.toNat * 16777216

/-- A 32-bit word as a signed number. -/
def signed (n : Nat) : Int := if n ≤ maxLength then n else (n : Int) - 4294967296

def wireSlot : Option Bytes → Bytes
  | none => [0xFF, 0xFF, 0xFF, 0xFF]
  | some value => word value.length ++ value

/-- The slots of a list of values, one after the other. -/
def wire (values : List (Option Bytes)) : Bytes := values.flatMap wireSlot

/-- Writes items as slots. -/
def encode : List Bytes → Except Error Bytes
  | [] => .ok []
  | item :: rest =>
    if maxLength < item.length then .error (.engineCall (.itemTooLong item.length))
    else match encode rest with
      | .ok row => .ok (word item.length ++ (item ++ row))
      | .error e => .error e

/-- Reads slots from a buffer that starts at `offset`, and puts them, last first, before those
`found` already. -/
def decodeOnto (found : List (Option Bytes)) (offset : Nat) :
    Bytes → Except Error (List (Option Bytes))
  | [] => .ok found
  | b₀ :: b₁ :: b₂ :: b₃ :: rest =>
    let length := signed (ofWord b₀ b₁ b₂ b₃)
    if length = -1 then decodeOnto (none :: found) (offset + 4) rest
    else if length < 0 then .error (.decode (.invalidLength length offset))
    else
      let size := length.toNat
      let value := rest.take size
      if value.length < size then .error (.decode (.overrun offset size rest.length))
      else decodeOnto (some value :: found) (offset + 4 + size) (rest.drop size)
  | short => .error (.decode (.truncatedHeader offset short.length))
termination_by buffer => buffer.length

/-- The values in the slots of a buffer. -/
def decode (buffer : Bytes) : Except Error (List (Option Bytes)) :=
  (decodeOnto [] 0 buffer).map List.reverse

/-- Reads values as texts, the first with the number `index`, and puts them, last first, before
those `found` already. -/
def textsOnto (found : List (Option String)) (index : Nat) :
    List (Option Bytes) → Except Error (List (Option String))
  | [] => .ok found
  | none :: rest => textsOnto (none :: found) (index + 1) rest
  | some value :: rest =>
    match Utf8.decode value with
    | .error defect => .error (.decode (.slotNotText index defect))
    | .ok text => textsOnto (some (String.ofList text) :: found) (index + 1) rest

def texts (values : List (Option Bytes)) : Except Error (List (Option String)) :=
  (textsOnto [] 0 values).map List.reverse

def decodeTexts (buffer : Bytes) : Except Error (List (Option String)) :=
  (decode buffer).bind texts

end EngineClient.Slot
