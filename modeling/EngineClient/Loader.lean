import EngineClient.FileSystem
import EngineClient.Handle

/-!
# Loading engines

A loader turns the path of a binary into an engine. The dynamic loader looks at the file: it must be
the image of a library, and the library must export every call of an engine. What the library does
then is up to the image.
-/

namespace EngineClient

/-- Produces the engine in a binary. -/
abbrev Loader := FileSystem → Path → Except Error Engine

/-- A library: the names it exports and what its calls do. -/
structure Image where
  exported : List String
  engine : Engine

namespace Loader

/-- The calls of an engine, in the order in which they are looked up. -/
def requiredSymbols : List String :=
  ["health_check", "open_index_v2", "close_index", "get_field_value", "multiget_field_values",
   "free_bytes_buffer"]

/-- The engine of a library that exports every call. -/
def bind (image : Image) : Except Error Engine :=
  match requiredSymbols.find? fun name => !image.exported.contains name with
  | none => .ok image.engine
  | some name => .error (.libraryLoad (.missingSymbol name s!"undefined symbol: {name}"))

/-- Loads the library at a path, given what the contents of files mean as libraries. A path without
a slash is not looked up in the working directory. -/
def dynamic (images : Bytes → Option Image) : Loader := fun fs path =>
  let refuse (reason : String) : Except Error Engine :=
    .error (.libraryLoad (.cannotOpen path reason))
  if path.contains 0 then .error (.libraryLoad (.nulInPath path))
  else if !path.contains Path.slash then
    refuse "cannot open shared object file: No such file or directory"
  else match fs.stat path with
    | .error e => refuse s!"cannot open shared object file: {e.message}"
    | .ok (.file f) =>
      match images f.data with
      | some image => bind image
      | none => refuse "invalid ELF header"
    | .ok _ => refuse "cannot read file data: Is a directory"

end Loader

namespace Handle

/-- A handle on the engine in the binary at a path, closed. -/
def load (loader : Loader) (fs : FileSystem) (path : Path) : Except Error Handle :=
  (loader fs path).map ofEngine

end Handle

end EngineClient
