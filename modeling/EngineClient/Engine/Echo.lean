import EngineClient.Engine.Reference

/-!
# An echo engine

A small engine for trying out a client. A lookup answers `key=field`; some fields, keys, probes and
configurations stand for the unusual answers that an engine can give.
-/

namespace EngineClient.Echo

private def lit (s : String) : Bytes := bytesOf s

/-- The configuration of the latest opening that succeeded. -/
def configuration : List Call → Bytes
  | [] => []
  | .opened config answer :: earlier =>
    if answer.status = 0 then config else configuration earlier
  | _ :: earlier => configuration earlier

/-- Whether a byte string occurs in another. -/
def occursIn (part : Bytes) : Bytes → Bool
  | [] => part.isEmpty
  | b :: rest => part.isPrefixOf (b :: rest) || occursIn part rest

def answer (config key field : Bytes) : Buffer :=
  if field = lit "absent" then .null
  else if field = lit "empty" then .ofBytes []
  else if field = lit "negative" then ⟨-5, some (lit "xxxxx")⟩
  else if (lit "@has:").isPrefixOf field then
    .ofBytes (if occursIn (field.drop 5) config then lit "yes" else lit "no")
  else .ofBytes (key ++ lit "=" ++ field)

/-- The value in a slot of a batch. -/
def slotValue (key field : Bytes) : Option Bytes :=
  if field = lit "absent" then none
  else if field = lit "empty" then some []
  else some (key ++ lit "=" ++ field)

/-- Adds the slots of each key to a row; the key `!null` gives up the whole answer, and `!cut`
takes a byte off the row instead of adding to it. -/
def rowOnto (fields : List Bytes) (row : Bytes) : List Bytes → Option Bytes
  | [] => some row
  | key :: rest =>
    if key = lit "!null" then none
    else if key = lit "!cut" then rowOnto fields row.dropLast rest
    else rowOnto fields (row ++ Slot.wire (fields.map (slotValue key))) rest

def batchAnswer (keys fields : Bytes) : Buffer :=
  match rowOnto (slotValues fields) [] (slotValues keys) with
  | some row => .ofBytes row
  | none => .null

/-- The answer to an opening: the length of the configuration plus 1000 as the handle, or as the
status if it starts with an exclamation mark. -/
def opening (config : Bytes) : Opening :=
  if config.head? = some 33 then ⟨0, Int64.ofNat config.length⟩
  else ⟨Int64.ofNat (1000 + config.length), 0⟩

def health (probe : Bytes) : Int64 :=
  if probe = lit "bad" then -7 else if probe.isEmpty then 1 else 0

def engine : Engine where
  health _ probe := health probe
  openIndex _ config := opening config
  get past _ key field := answer (configuration past) key field
  multiget _ _ keys fields := batchAnswer keys fields

end EngineClient.Echo
