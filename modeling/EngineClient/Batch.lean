import EngineClient.Slot

/-!
# Batches

A batch asks for every field of every key. Keys go out byte keys first, then text keys, and the
answer has one slot per pair with the keys outside and the fields inside.
-/

namespace EngineClient

/-- Keys and field names of one batched lookup. -/
structure Batch where
  keys : List Bytes
  fields : List String
deriving Repr, DecidableEq

namespace Batch

def ofKeys (byteKeys : List Bytes) (textKeys fields : List String) : Batch :=
  ⟨byteKeys ++ textKeys.map bytesOf, fields⟩

def slotCount (b : Batch) : Nat := b.keys.length * b.fields.length

def isEmpty (b : Batch) : Bool := b.slotCount == 0

/-- The pairs in the order of the answer. -/
def slots (b : Batch) : List (Bytes × String) :=
  b.keys.flatMap fun key => b.fields.map fun field => (key, field)

def encodeKeys (b : Batch) : Except Error Bytes := Slot.encode b.keys

def encodeFields (b : Batch) : Except Error Bytes := Slot.encode (b.fields.map bytesOf)

end Batch

end EngineClient
