import EngineClient.Settings.Table
import EngineClient.Text.Utf8

/-!
# Engine settings

What the engine is opened with: five tables, one for each type of value. Floating-point values are
kept as their bits, since the engine receives the bits.
-/

namespace EngineClient

/-- A single-precision number by its IEEE 754 bits. -/
structure Float32Bits where
  bits : UInt32
deriving Repr, DecidableEq

namespace Float32Bits

def isZero (x : Float32Bits) : Bool := x.bits.toNat % 2147483648 == 0

def isNaN (x : Float32Bits) : Bool := 2139095040 < x.bits.toNat % 2147483648

/-- Equality of the numbers: the zeros are equal, and no NaN equals anything. -/
def sameNumber (x y : Float32Bits) : Bool :=
  !x.isNaN && !y.isNaN && (x.bits == y.bits || x.isZero && y.isZero)

end Float32Bits

/-- Settings by type and name. -/
structure Settings where
  strings : Table String
  ints : Table Int64
  floats : Table Float32Bits
  bytes : Table Bytes
  bools : Table Bool

namespace Settings

def empty : Settings := ⟨.empty, .empty, .empty, .empty, .empty⟩

/-- A single setting. -/
inductive Entry where
  | string (key value : String)
  | int (key : String) (value : Int64)
  | float (key : String) (value : Float32Bits)
  | bytes (key : String) (value : Bytes)
  | bool (key : String) (value : Bool)

def set (s : Settings) : Entry → Settings
  | .string key value => { s with strings := s.strings.insert key value }
  | .int key value => { s with ints := s.ints.insert key value }
  | .float key value => { s with floats := s.floats.insert key value }
  | .bytes key value => { s with bytes := s.bytes.insert key value }
  | .bool key value => { s with bools := s.bools.insert key value }

/-- The settings of a list, of which the last of each type and name counts. -/
def ofList (entries : List Entry) : Settings := entries.foldl set empty

/-- Sets every setting of `above` in `s`. -/
def overlay (s above : Settings) : Settings where
  strings := s.strings.overlay above.strings
  ints := s.ints.overlay above.ints
  floats := s.floats.overlay above.floats
  bytes := s.bytes.overlay above.bytes
  bools := s.bools.overlay above.bools

/-- Whether two settings hold the same values, floating-point values compared as numbers. -/
def sameValues (a b : Settings) : Bool :=
  a.strings.entries == b.strings.entries && a.ints.entries == b.ints.entries
    && a.floats.entries.length == b.floats.entries.length
    && (a.floats.entries.zip b.floats.entries).all
        (fun (x, y) => x.1 == y.1 && x.2.sameNumber y.2)
    && a.bytes.entries == b.bytes.entries && a.bools.entries == b.bools.entries

end Settings

end EngineClient
