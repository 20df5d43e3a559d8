import EngineClient.Settings
import EngineClient.Settings.WireError

/-!
# The encoding of settings

Settings are encoded as one message with a field for each table. An entry of a table is a message of
its own with its name in field 1 and its value in field 2, and either is left out when it is the
default. The decoder takes fields in any order, lets a later entry win over an earlier one of the
same name, and skips fields it does not know.
-/

namespace EngineClient.Wire

/-- Base-128 digits, least significant first, with the top bit set on all but the last. -/
def varint (n : Nat) : Bytes :=
  if n < 128 then [UInt8.ofNat n] else UInt8.ofNat (n % 128 + 128) :: varint (n / 128)
termination_by n

/-- Reads a varint of at most `places` digits. Of ten digits, the last can only be 0 or 1, since the
number has 64 bits. -/
def readVarintWithin : (places : Nat) → Bytes → Except WireFault (Nat × Bytes)
  | 0, _ => .error .invalidVarint
  | _ + 1, [] => .error .invalidVarint
  | places + 1, b :: rest =>
    if b < 128 then
      if places = 0 && 1 < b then .error .invalidVarint else .ok (b.toNat, rest)
    else match readVarintWithin places rest with
      | .ok (high, rest) => .ok (b.toNat - 128 + 128 * high, rest)
      | .error e => .error e

def readVarint (input : Bytes) : Except WireFault (Nat × Bytes) := readVarintWithin 10 input

/-- Splits off the first `size` bytes. -/
def readExactly (size : Nat) (input : Bytes) : Except WireFault (Bytes × Bytes) :=
  let value := input.take size
  if value.length < size then .error .bufferUnderflow else .ok (value, input.drop size)

/-- Bytes behind their length. -/
def block (value : Bytes) : Bytes := varint value.length ++ value

def readBlock (input : Bytes) : Except WireFault (Bytes × Bytes) := do
  let (size, rest) ← readVarint input
  readExactly size rest

/-- The key of a field: its number and the layout of its value. -/
def fieldKey (tag : Nat) (wireType : WireType) : Bytes := varint (tag * 8 + wireType.code)

def readKey (input : Bytes) : Except WireFault (Nat × WireType × Bytes) := do
  let (key, rest) ← readVarint input
  if 4294967295 < key then throw (.invalidKey key)
  match WireType.ofCode? (key % 8) with
  | none => throw (.invalidWireType (key % 8))
  | some wireType => if key / 8 = 0 then throw .invalidTag else return (key / 8, wireType, rest)

/-- How values of a type are laid out. -/
structure Layout (α : Type) where
  wireType : WireType
  default : α
  /-- The values that need not be written. -/
  isDefault : α → Bool
  write : α → Bytes
  read : Bytes → Except WireFault (α × Bytes)

def text : Layout String where
  wireType := .lengthDelimited
  default := ""
  isDefault := (· == "")
  write s := block (bytesOf s)
  read input := do
    let (value, rest) ← readBlock input
    match stringOf? value with
    | some s => return (s, rest)
    | none => throw .notText

/-- Integers of 64 bits, as the two's complement. -/
def int : Layout Int64 where
  wireType := .varint
  default := 0
  isDefault := (· == 0)
  write n := varint n.toUInt64.toNat
  read input := do
    let (n, rest) ← readVarint input
    return ((UInt64.ofNat n).toInt64, rest)

/-- Floating-point numbers, as four bytes, least significant first. -/
def float : Layout Float32Bits where
  wireType := .thirtyTwoBit
  default := ⟨0⟩
  isDefault := Float32Bits.isZero
  write x := [x.bits.toUInt8, (x.bits >>> 8).toUInt8, (x.bits >>> 16).toUInt8,
    (x.bits >>> 24).toUInt8]
  read
    | b₀ :: b₁ :: b₂ :: b₃ :: rest =>
      .ok (⟨UInt32.ofNat (b₀.toNat + b₁.toNat * 256 + b₂.toNat * 65536 + b₃.toNat * 16777216)⟩,
        rest)
    | _ => .error .bufferUnderflow

def bytes : Layout Bytes where
  wireType := .lengthDelimited
  default := []
  isDefault := List.isEmpty
  write := block
  read := readBlock

def bool : Layout Bool where
  wireType := .varint
  default := false
  isDefault := (!·)
  write b := varint b.toNat
  read input := do
    let (n, rest) ← readVarint input
    return (n != 0, rest)

/-- A field of an entry, left out when its value is the default. -/
def optionalField {α : Type} (layout : Layout α) (tag : Nat) (value : α) : Bytes :=
  if layout.isDefault value then [] else fieldKey tag layout.wireType ++ layout.write value

/-- An entry of a table as a field of the message. -/
def entryField {α : Type} (layout : Layout α) (tag : Nat) (entry : String × α) : Bytes :=
  fieldKey tag .lengthDelimited
    ++ block (optionalField text 1 entry.1 ++ optionalField layout 2 entry.2)

/-- The entries of a table as fields of the message. -/
def tableFields {α : Type} (layout : Layout α) (tag : Nat) (table : Table α) : Bytes :=
  table.entries.flatMap (entryField layout tag)

def encode (s : Settings) : Bytes :=
  tableFields text 1 s.strings ++ tableFields int 2 s.ints ++ tableFields float 3 s.floats
    ++ tableFields bytes 4 s.bytes ++ tableFields bool 5 s.bools

def skipScalar (wireType : WireType) (input : Bytes) : Except WireFault Bytes :=
  match wireType with
  | .varint => (readVarint input).map Prod.snd
  | .sixtyFourBit => (readExactly 8 input).map Prod.snd
  | .thirtyTwoBit => (readExactly 4 input).map Prod.snd
  | .lengthDelimited => (readBlock input).map Prod.snd
  | .startGroup | .endGroup => .error .unexpectedEndGroup

/-- Skips to the end of the innermost of the open `groups`, and on until none is open. At most
`limit` groups may be open at once. Each step reads at least the byte of a key, so that the length
of the input bounds their number. -/
def skipGroups (limit : Nat) : (steps : Nat) → (groups : List Nat) → Bytes → Except WireFault Bytes
  | _, [], input => .ok input
  | 0, _ :: _, _ => .error .bufferUnderflow
  | steps + 1, group :: outer, input => do
    let (tag, wireType, rest) ← readKey input
    if wireType = .endGroup then
      if tag = group then skipGroups limit steps outer rest else throw .unexpectedEndGroup
    else if limit ≤ (group :: outer).length then throw .recursionLimit
    else if wireType = .startGroup then skipGroups limit steps (tag :: group :: outer) rest
    else do
      let rest ← skipScalar wireType rest
      skipGroups limit steps (group :: outer) rest

def skipField (limit tag : Nat) (wireType : WireType) (input : Bytes) : Except WireFault Bytes :=
  if wireType = .startGroup then skipGroups limit (input.length + 1) [tag] input
  else skipScalar wireType input

/-- The number of groups that may be open inside the message. -/
def nestingLimit : Nat := 100

/-- Refuses a value that is not laid out as its field is. -/
def expect (actual expected : WireType) : Except WireFault Unit :=
  if actual = expected then .ok () else .error (.wrongWireType actual expected)

/-- Reads the fields of an entry until at most `after` bytes are left, starting from the name and
value read so far. -/
def readEntryFields {α : Type} (layout : Layout α) (after : Nat) :
    (steps : Nat) → (entry : String × α) → Bytes → Except WireFault ((String × α) × Bytes)
  | 0, _, _ => .error .bufferUnderflow
  | steps + 1, entry, input =>
    if input.length < after then .error .lengthExceeded
    else if input.length = after then .ok (entry, input)
    else do
      let (tag, wireType, rest) ← readKey input
      match tag with
      | 1 =>
        expect wireType text.wireType
        let (key, rest) ← text.read rest
        readEntryFields layout after steps (key, entry.2) rest
      | 2 =>
        expect wireType layout.wireType
        let (value, rest) ← layout.read rest
        readEntryFields layout after steps (entry.1, value) rest
      | _ =>
        let rest ← skipField (nestingLimit - 1) tag wireType rest
        readEntryFields layout after steps entry rest

/-- Reads an entry behind its length. Its fields may run into what follows the entry before that is
noticed. -/
def readEntry {α : Type} (layout : Layout α) (input : Bytes) :
    Except WireFault ((String × α) × Bytes) := do
  let (size, rest) ← readVarint input
  let room := rest.length
  if room < size then throw .bufferUnderflow
  readEntryFields layout (room - size) (room + 1) ("", layout.default) rest

/-- Marks the faults of a field with its name. -/
def inField {β : Type} (field : String) (r : Except WireFault β) : Except WireError β :=
  r.mapError fun fault => ⟨some field, fault⟩

/-- Reads one field of the message into the settings. -/
def readField (s : Settings) (input : Bytes) : Except WireError (Settings × Bytes) := do
  let (tag, wireType, rest) ← (readKey input).mapError (WireError.mk none)
  match tag with
  | 1 =>
    let ((key, value), rest) ← inField "string_configs" (readEntry text rest)
    return (s.set (.string key value), rest)
  | 2 =>
    let ((key, value), rest) ← inField "int_configs" (readEntry int rest)
    return (s.set (.int key value), rest)
  | 3 =>
    let ((key, value), rest) ← inField "float_configs" (readEntry float rest)
    return (s.set (.float key value), rest)
  | 4 =>
    let ((key, value), rest) ← inField "bytes_configs" (readEntry bytes rest)
    return (s.set (.bytes key value), rest)
  | 5 =>
    let ((key, value), rest) ← inField "bool_configs" (readEntry bool rest)
    return (s.set (.bool key value), rest)
  | _ =>
    let rest ← (skipField nestingLimit tag wireType rest).mapError (WireError.mk none)
    return (s, rest)

/-- Reads the fields of a message until nothing is left. Each step reads at least the byte of a
key. -/
def readFields : (steps : Nat) → Settings → Bytes → Except WireError Settings
  | _, s, [] => .ok s
  | 0, _, _ :: _ => .error ⟨none, .bufferUnderflow⟩
  | steps + 1, s, input => do
    let (s, rest) ← readField s input
    readFields steps s rest

def decode (message : Bytes) : Except WireError Settings := readFields message.length .empty message

end EngineClient.Wire
