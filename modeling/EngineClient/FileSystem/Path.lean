import EngineClient.Text.Utf8

/-!
# Paths

A path is a byte string cut at slashes. It is absolute when it starts with one. Empty segments mean
nothing, `.` is the directory itself and `..` the directory above.
-/

namespace EngineClient

/-- The name of a directory entry. -/
abbrev Name := Bytes

/-- A path as the user spells it. -/
abbrev Path := Bytes

namespace Path

/-- The byte between two segments. -/
def slash : UInt8 := 47

/-- The name of a directory in itself. -/
def self : Name := [46]

/-- The name of the directory above. -/
def up : Name := [46, 46]

def ofString (s : String) : Path := bytesOf s

def isAbsolute (p : Path) : Bool := p.head? == some slash

/-- Whether a path ends with a slash. -/
def endsOpen (p : Path) : Bool := p.getLast? == some slash

/-- The path of `name` below `p`; an absolute `name` stands for itself. -/
def join (p name : Path) : Path :=
  if name.head? == some slash then name
  else if p.isEmpty || endsOpen p then p ++ name
  else p ++ slash :: name

def segments (p : Path) : List Name := (p.splitOn slash).filter (!·.isEmpty)

/-- The directory entries that following a path goes through. A slash at the end asks for a
directory, as `.` does. -/
def steps (p : Path) : List Name := segments p ++ if endsOpen p then [self] else []

/-- The parts of a path in its simplest spelling: `.` is dropped except at the start of a relative
path. -/
def parts (p : Path) : List Name :=
  match segments p with
  | [] => []
  | first :: rest =>
    if !isAbsolute p && first == self then first :: rest.filter (· != self)
    else (first :: rest).filter (· != self)

def ofParts (absolute : Bool) (parts : List Name) : Path :=
  (if absolute then [slash] else []) ++ [slash].intercalate parts

/-- The last part of a path, if it names an entry. -/
def fileName? (p : Path) : Option Name :=
  match (parts p).getLast? with
  | some name => if name == self || name == up then none else some name
  | none => none

def trimEnd (p : Path) : Path := (p.reverse.dropWhile (· == slash)).reverse

end Path

end EngineClient
