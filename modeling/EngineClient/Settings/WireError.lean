/-!
# Errors of the settings decoder

Encoded settings are a message of numbered fields. Each way in which the bytes can fail to be one
has a constructor, and an error inside a field of the message names the field.
-/

namespace EngineClient

/-- How the value of a field is laid out. -/
inductive WireType where
  | varint
  | sixtyFourBit
  | lengthDelimited
  | startGroup
  | endGroup
  | thirtyTwoBit
deriving Repr, DecidableEq

namespace WireType

def code : WireType → Nat
  | varint => 0
  | sixtyFourBit => 1
  | lengthDelimited => 2
  | startGroup => 3
  | endGroup => 4
  | thirtyTwoBit => 5

def ofCode? : Nat → Option WireType
  | 0 => some varint
  | 1 => some sixtyFourBit
  | 2 => some lengthDelimited
  | 3 => some startGroup
  | 4 => some endGroup
  | 5 => some thirtyTwoBit
  | _ => none

def name : WireType → String
  | varint => "Varint"
  | sixtyFourBit => "SixtyFourBit"
  | lengthDelimited => "LengthDelimited"
  | startGroup => "StartGroup"
  | endGroup => "EndGroup"
  | thirtyTwoBit => "ThirtyTwoBit"

end WireType

/-- What is wrong with an encoded message. -/
inductive WireFault where
  | invalidVarint
  | invalidKey (key : Nat)
  | invalidWireType (code : Nat)
  | invalidTag
  | bufferUnderflow
  | lengthExceeded
  | wrongWireType (actual expected : WireType)
  | notText
  | unexpectedEndGroup
  | recursionLimit
deriving Repr, DecidableEq

def WireFault.message : WireFault → String
  | invalidVarint => "invalid varint"
  | invalidKey key => s!"invalid key value: {key}"
  | invalidWireType code => s!"invalid wire type value: {code}"
  | invalidTag => "invalid tag value: 0"
  | bufferUnderflow => "buffer underflow"
  | lengthExceeded => "delimited length exceeded"
  | wrongWireType actual expected =>
    s!"invalid wire type: {actual.name} (expected {expected.name})"
  | notText => "invalid string value: data is not UTF-8 encoded"
  | unexpectedEndGroup => "unexpected end group tag"
  | recursionLimit => "recursion limit reached"

/-- A fault and the field of the message it was found in, if any. -/
structure WireError where
  field : Option String := none
  fault : WireFault
deriving Repr, DecidableEq

def WireError.message (e : WireError) : String :=
  let place := match e.field with
    | some field => s!"EngineConfig.{field}: "
    | none => ""
  "failed to decode Protobuf message: " ++ place ++ e.fault.message

end EngineClient
