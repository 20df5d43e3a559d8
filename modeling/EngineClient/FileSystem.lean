import EngineClient.FileSystem.IoError
import EngineClient.FileSystem.Path

/-!
# File systems

A file system is a value: the entries below the root, each at its location, and the working
directory from which relative paths start. Every operation on files is a function of it. A path is
resolved step by step, following at most forty symbolic links.
-/

namespace EngineClient

/-- A place in the tree: the names from the root down. -/
abbrev Location := List Name

/-- The content of a file and the seconds since it was last written; a negative age is a date in the
future. -/
structure File where
  data : Bytes
  age : Int := 0
deriving Repr, DecidableEq

/-- What stands at a location. -/
inductive Entry where
  | dir
  | file (f : File)
  | link (target : Path)
deriving Repr, DecidableEq

/-- The entry after bytes have been added to the end of the file that it may be. -/
def Entry.extend (data : Bytes) : Entry → Entry
  | .file f => .file ⟨f.data ++ data, 0⟩
  | entry => entry

/-- The entries below the root, latest first, and the working directory. -/
structure FileSystem where
  entries : List (Location × Entry) := []
  workDir : Location := []
deriving Repr, DecidableEq

namespace FileSystem

/-- The entry at a location. The root is always a directory. -/
def entry? (fs : FileSystem) (loc : Location) : Option Entry :=
  if loc = [] then some .dir else fs.entries.lookup loc

/-- Puts an entry at a location, in the place of what stood there. -/
def put (fs : FileSystem) (loc : Location) (entry : Entry) : FileSystem :=
  { fs with entries := (loc, entry) :: fs.entries.filter (·.1 != loc) }

/-- Changes the entry at a location where it stands. -/
def modify (fs : FileSystem) (loc : Location) (change : Entry → Entry) : FileSystem :=
  { fs with entries := fs.entries.map fun e => if e.1 = loc then (e.1, change e.2) else e }

/-- Removes the entry at a location. -/
def erase (fs : FileSystem) (loc : Location) : FileSystem :=
  { fs with entries := fs.entries.filter (·.1 != loc) }

def eraseTree (fs : FileSystem) (loc : Location) : FileSystem :=
  { fs with entries := fs.entries.filter fun e => !loc.isPrefixOf e.1 }

def below (fs : FileSystem) (loc : Location) : List (Location × Entry) :=
  fs.entries.filter fun e => loc.isPrefixOf e.1 && e.1 != loc

def names (fs : FileSystem) (dir : Location) : List Name :=
  fs.entries.filterMap fun e =>
    if e.1.dropLast = dir then e.1.getLast? else none

/-! ## Resolving paths -/

def maxName : Nat := 255

def maxPath : Nat := 4095

/-- The number of symbolic links that may be followed on the way. -/
def maxLinks : Nat := 40

/-- Goes from a directory through the names of a path. The last name need not exist. A link on the
way is handed to `jump` with the names that remain; so is one at the end if it is to be followed. -/
def stepWith (fs : FileSystem) (followLast : Bool)
    (jump : Location → Path → List Name → Except IoError Location) :
    Location → List Name → Except IoError Location
  | here, [] => .ok here
  | here, name :: rest =>
    if name = Path.self then stepWith fs followLast jump here rest
    else if name = Path.up then stepWith fs followLast jump here.dropLast rest
    else if maxName < name.length then .error .nameTooLong
    else match fs.entry? (here ++ [name]) with
      | none => if rest.isEmpty then .ok (here ++ [name]) else .error .notFound
      | some .dir => stepWith fs followLast jump (here ++ [name]) rest
      | some (.file _) => if rest.isEmpty then .ok (here ++ [name]) else .error .notADirectory
      | some (.link target) =>
        if rest.isEmpty && !followLast then .ok (here ++ [name]) else jump here target rest

/-- Goes from a directory through the names of a path, following at most `links` links. -/
def walk (fs : FileSystem) (followLast : Bool) :
    (links : Nat) → Location → List Name → Except IoError Location
  | 0 => fs.stepWith followLast fun _ _ _ => .error .tooManyLinks
  | links + 1 => fs.stepWith followLast fun here target rest =>
      fs.walk followLast links (if target.isAbsolute then [] else here) (target.steps ++ rest)

/-- The location of a path. Its parent exists and is a directory; the entry itself may be
missing. -/
def resolve (fs : FileSystem) (followLast : Bool) (p : Path) : Except IoError Location :=
  if p.contains 0 then .error .nulInPath
  else if p.isEmpty then .error .notFound
  else if maxPath < p.length then .error .nameTooLong
  else fs.walk followLast maxLinks (if p.isAbsolute then [] else fs.workDir) p.steps

/-- The entry that a path leads to, links followed. -/
def stat (fs : FileSystem) (p : Path) : Except IoError Entry := do
  let loc ← fs.resolve true p
  match fs.entry? loc with
  | some entry => return entry
  | none => throw .notFound

def isDir (fs : FileSystem) (p : Path) : Bool :=
  match fs.stat p with
  | .ok .dir => true
  | _ => false

/-- The file that a path leads to. -/
def file? (fs : FileSystem) (p : Path) : Option File :=
  match fs.stat p with
  | .ok (.file f) => some f
  | _ => none

def isFile (fs : FileSystem) (p : Path) : Bool := (fs.file? p).isSome

/-! ## Operations -/

def makeDir (fs : FileSystem) (p : Path) : Except IoError FileSystem := do
  let loc ← fs.resolve false (if p.trimEnd.isEmpty then p else p.trimEnd)
  match fs.entry? loc with
  | some _ => throw .alreadyExists
  | none => return fs.put loc .dir

/-- Creates a directory that may exist already. If one above it is missing, `above` comes first. What
was created stays when a later step fails. -/
def makeDirAfter (above : FileSystem → Except IoError Unit × FileSystem) (p : Path)
    (fs : FileSystem) : Except IoError Unit × FileSystem :=
  match fs.makeDir p with
  | .ok fs => (.ok (), fs)
  | .error e =>
    if e = .notFound then
      match above fs with
      | (.error e, fs) => (.error e, fs)
      | (.ok (), fs) =>
        match fs.makeDir p with
        | .ok fs => (.ok (), fs)
        | .error e => (if fs.isDir p then .ok () else .error e, fs)
    else (if fs.isDir p then .ok () else .error e, fs)

/-- Creates the directory with the given parts, last first, after those above it that are
missing. -/
def makeDirsFrom (absolute : Bool) :
    (parts : List Name) → FileSystem → Except IoError Unit × FileSystem
  | [], fs => (.ok (), fs)
  | name :: above, fs =>
    makeDirAfter (makeDirsFrom absolute above) (Path.ofParts absolute (name :: above).reverse) fs

/-- Creates a directory and those above it that are missing. A directory that exists is left as it
is. -/
def makeDirs (fs : FileSystem) (p : Path) : Except IoError Unit × FileSystem :=
  match p.parts.reverse with
  | [] => (.ok (), fs)
  | _ :: above => makeDirAfter (makeDirsFrom p.isAbsolute above) p fs

/-- The names in the directory that a path leads to. -/
def readDir (fs : FileSystem) (p : Path) : Except IoError (List Name) := do
  let loc ← fs.resolve true p
  match fs.entry? loc with
  | some .dir => return fs.names loc
  | some _ => throw .notADirectory
  | none => throw .notFound

/-- Writes a file, in the place of the file that the path leads to if there is one. -/
def writeFile (fs : FileSystem) (p : Path) (f : File) : Except IoError FileSystem := do
  let loc ← fs.resolve true p
  match fs.entry? loc with
  | some .dir => throw .isADirectory
  | _ => return fs.put loc (.file f)

/-- Creates an empty file where nothing stands. -/
def createFile (fs : FileSystem) (p : Path) : Except IoError (Location × FileSystem) := do
  let loc ← fs.resolve false p
  match fs.entry? loc with
  | some _ => throw .alreadyExists
  | none => return (loc, fs.put loc (.file ⟨[], 0⟩))

/-- Adds to the end of an open file. Once the file is gone this shows nowhere. -/
def append (fs : FileSystem) (loc : Location) (data : Bytes) : FileSystem :=
  fs.modify loc (Entry.extend data)

/-- Creates a symbolic link where nothing stands. -/
def makeLink (fs : FileSystem) (p target : Path) : Except IoError FileSystem := do
  let loc ← fs.resolve false p
  match fs.entry? loc with
  | some _ => throw .alreadyExists
  | none => return fs.put loc (.link target)

def removeFile (fs : FileSystem) (p : Path) : Except IoError FileSystem := do
  let loc ← fs.resolve false p
  match fs.entry? loc with
  | some .dir => throw .isADirectory
  | some _ => return fs.erase loc
  | none => throw .notFound

/-- Removes whatever a path names, a directory with everything in it. -/
def removeAll (fs : FileSystem) (p : Path) : Except IoError FileSystem := do
  let loc ← fs.resolve false p
  match fs.entry? loc with
  | some _ => return fs.eraseTree loc
  | none => throw .notFound

/-- Moves a file or a link to another path, in the place of the file or link that stands there. -/
def moveFile (fs : FileSystem) (source target : Path) : Except IoError FileSystem := do
  if source.contains 0 || target.contains 0 then throw .invalidArgument
  let loc ← fs.resolve false source
  match fs.entry? loc with
  | none => throw .notFound
  | some .dir => throw .isADirectory
  | some entry =>
    let loc' ← fs.resolve false target
    match fs.entry? loc' with
    | some .dir => throw .isADirectory
    | _ => return (fs.erase loc).put loc' entry

end FileSystem

end EngineClient
