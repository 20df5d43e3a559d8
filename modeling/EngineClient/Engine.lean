import EngineClient.Batch

/-!
# Engines

An engine is a loaded library that answers calls. What it answers may depend on every call made
before, so an engine is given by its answers to a call after a history of calls. The buffers it
returns belong to it until they are handed back.
-/

namespace EngineClient

/-- A buffer returned by the engine: its declared length and the memory it points at, if it points
anywhere. -/
structure Buffer where
  length : Int32
  memory : Option Bytes
deriving Repr, DecidableEq

namespace Buffer

def null : Buffer := ⟨0, none⟩

def ofBytes (data : Bytes) : Buffer := ⟨Int32.ofNat data.length, some data⟩

def isNull (b : Buffer) : Bool := b.memory.isNone

/-- Whether the buffer carries no value: it points nowhere or its length is not positive. -/
def isEmpty (b : Buffer) : Bool := b.isNull || b.length ≤ 0

def contents (b : Buffer) : Bytes :=
  match b.memory with
  | some data => if b.isEmpty then [] else data.take b.length.toInt.toNat
  | none => []

/-- The value that the buffer carries, if any. -/
def value? (b : Buffer) : Option Bytes := if b.isEmpty then none else some b.contents

end Buffer

/-- The answer to the opening of an index; status 0 means success. -/
structure Opening where
  handle : Int64
  status : Int64
deriving Repr, DecidableEq

/-- A call to an engine with its answer. -/
inductive Call where
  | health (probe : Bytes) (status : Int64)
  | opened (config : Bytes) (answer : Opening)
  | closed (handle : Int64)
  | got (handle : Int64) (key field : Bytes) (answer : Buffer)
  | multigot (handle : Int64) (keys fields : Bytes) (answer : Buffer)
  | freed (buffer : Buffer)
deriving Repr, DecidableEq

/-- The answers of an engine to each call, given the calls before it, latest first. -/
structure Engine where
  health : List Call → Bytes → Int64
  openIndex : List Call → Bytes → Opening
  get : List Call → Int64 → Bytes → Bytes → Buffer
  multiget : List Call → Int64 → Bytes → Bytes → Buffer

end EngineClient
