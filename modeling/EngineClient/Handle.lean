import EngineClient.Engine

/-!
# Engine handles

A handle owns an engine and at most one index opened in it. Opening an open handle and closing a
closed one do nothing. Every buffer that a lookup returns is handed back to the engine before the
lookup is over, whatever it held.
-/

namespace EngineClient

/-- An engine, the handle of its index while one is open, and the calls made so far, latest
first. -/
structure Handle where
  engine : Engine
  token : Option Int64 := none
  history : List Call := []

namespace Handle

/-- The value that stands for no index. -/
def closedToken : Int64 := -1

/-- The longest argument that can be handed to an engine. -/
def maxArgument : Nat := 2147483647

/-- A handle on a loaded engine, closed. -/
def ofEngine (engine : Engine) : Handle := { engine }

def calls (h : Handle) : List Call := h.history.reverse

def record (h : Handle) (call : Call) : Handle := { h with history := call :: h.history }

def isOpen (h : Handle) : Bool := h.token.isSome

/-- The handle of the open index, or the value that stands for none. -/
def rawToken (h : Handle) : Int64 := h.token.getD closedToken

/-- Refuses arguments that are too long for an engine. -/
def checkLength (size : Nat) (what : String) : Except Error Unit :=
  if size ≤ maxArgument then .ok () else .error (.engineCall (.argumentTooLong what size))

def openWith (h : Handle) (config : Bytes) : Except Error Unit × Handle :=
  if h.isOpen then (.ok (), h)
  else match checkLength config.length "config" with
    | .error e => (.error e, h)
    | .ok () =>
      let answer := h.engine.openIndex h.history config
      let h := h.record (.opened config answer)
      if answer.status = 0 then (.ok (), { h with token := some answer.handle })
      else (.error (.engineOpen answer.status), h)

def close (h : Handle) : Handle :=
  match h.token with
  | some token => { h.record (.closed token) with token := none }
  | none => h

def drop (h : Handle) : Handle := h.close

/-- Hands a buffer back to the engine. -/
def release (h : Handle) (buffer : Buffer) : Handle :=
  if buffer.isNull then h else h.record (.freed buffer)

def healthCheck (h : Handle) (probe : String) : Except Error Bool × Handle :=
  if (bytesOf probe).contains 0 then (.error (.engineCall .nulInProbe), h)
  else
    let status := h.engine.health h.history (bytesOf probe)
    (.ok (status == 0), h.record (.health (bytesOf probe) status))

def get (h : Handle) (key : Bytes) (field : String) : Except Error (Option Bytes) × Handle :=
  match checkLength key.length "primary key" with
  | .error e => (.error e, h)
  | .ok () =>
    if (bytesOf field).contains 0 then (.error (.engineCall (.nulInField field)), h)
    else match h.token with
      | none => (.error .engineClosed, h)
      | some token =>
        let buffer := h.engine.get h.history token key (bytesOf field)
        let h := h.record (.got token key (bytesOf field) buffer)
        (.ok buffer.value?, h.release buffer)

def textValue (field : String) : Option Bytes → Except Error (Option String)
  | none => .ok none
  | some value =>
    match Utf8.decode value with
    | .ok text => .ok (some (String.ofList text))
    | .error defect => .error (.decode (.valueNotText field defect))

def getText (h : Handle) (key : Bytes) (field : String) :
    Except Error (Option String) × Handle :=
  let (result, h) := h.get key field
  (result.bind (textValue field), h)

/-- The values in the answer to a batch of `count` slots. -/
def batchValues (count : Nat) (buffer : Buffer) : Except Error (List (Option Bytes)) :=
  if buffer.isEmpty then .ok (List.replicate count none)
  else match Slot.decode buffer.contents with
    | .error e => .error e
    | .ok values =>
      if values.length = count then .ok values
      else .error (.decode (.slotCount count values.length))

def batchArguments (batch : Batch) : Except Error (Bytes × Bytes) := do
  let keys ← batch.encodeKeys
  let fields ← batch.encodeFields
  checkLength keys.length "encoded primary keys"
  checkLength fields.length "encoded field names"
  return (keys, fields)

/-- Looks up every field of every key of a batch. Nothing is asked of the engine if nothing is asked
for. -/
def multiget (h : Handle) (batch : Batch) : Except Error (List (Option Bytes)) × Handle :=
  if batch.isEmpty then (.ok [], h)
  else match batchArguments batch with
    | .error e => (.error e, h)
    | .ok (keys, fields) =>
      match h.token with
      | none => (.error .engineClosed, h)
      | some token =>
        let buffer := h.engine.multiget h.history token keys fields
        let h := h.record (.multigot token keys fields buffer)
        (batchValues batch.slotCount buffer, h.release buffer)

def multigetTexts (h : Handle) (batch : Batch) :
    Except Error (List (Option String)) × Handle :=
  let (result, h) := h.multiget batch
  (result.bind Slot.texts, h)

end Handle

end EngineClient
