import EngineClient.Engine.Echo
import EngineClient.Loader

/-!
# Images of the echo engine

The echo engine as a file: a line that marks it, and a line for each name that it exports.
-/

namespace EngineClient.Echo

def mark : String := "echo engine"

def file (exported : List String) : Bytes := bytesOf ("\n".intercalate (mark :: exported))

/-- The library in a file, if it is an image of the echo engine. -/
def image? (data : Bytes) : Option Image :=
  match (data.splitOn 10).filterMap stringOf? with
  | first :: exported => if first == mark then some ⟨exported, engine⟩ else none
  | [] => none

end EngineClient.Echo
