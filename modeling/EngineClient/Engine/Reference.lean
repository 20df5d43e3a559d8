import EngineClient.Engine

/-!
# A reference engine

The engine over a store of values answers as the calls are meant: a lookup with the value or no
buffer, a batch slot by slot, keys outside and fields inside. Its answers can be replaced by fixed
ones to see what the client makes of them.
-/

namespace EngineClient

/-- The values of an engine by key and field. -/
abbrev ValueStore := Bytes → Bytes → Option Bytes

/-- The store of some values, of which the last of each key and field counts. -/
def ValueStore.ofList (values : List (Bytes × Bytes × Bytes)) : ValueStore := fun key field =>
  (values.reverse.find? fun v => v.1 == key && v.2.1 == field).map (·.2.2)

def ValueStore.answer (store : ValueStore) (key field : Bytes) : Buffer :=
  match store key field with
  | some value => .ofBytes value
  | none => .null

/-- The values of a row of slots; a buffer that is no such row has none. -/
def slotValues (buffer : Bytes) : List Bytes :=
  match Slot.decode buffer with
  | .ok values => values.map (·.getD [])
  | .error _ => []

/-- The answer to a batch: a slot for each pair. -/
def ValueStore.batchAnswer (store : ValueStore) (keys fields : Bytes) : Buffer :=
  .ofBytes <| Slot.wire <|
    (slotValues keys).flatMap fun key => (slotValues fields).map fun field => store key field

/-- The behaviour of a reference engine. -/
structure Reference where
  values : List (Bytes × Bytes × Bytes) := []
  status : Int64 := 0
  handle : Int64 := 42
  healthStatus : Int64 := 0
  fixedGet : Option Buffer := none
  fixedMultiget : Option Buffer := none

def Reference.engine (r : Reference) : Engine :=
  let store := ValueStore.ofList r.values
  { health := fun _ _ => r.healthStatus
    openIndex := fun _ _ => ⟨r.handle, r.status⟩
    get := fun _ _ key field => r.fixedGet.getD (store.answer key field)
    multiget := fun _ _ keys fields => r.fixedMultiget.getD (store.batchAnswer keys fields) }

end EngineClient
