import EngineClient.Download
import EngineClient.Version

/-!
# The local store

The installed engine binary lives in the directory `bin` below a mount directory. `installed?` finds
it, and `replace` installs another one: the new binary is received into a partial file beside the
old one, takes its name in one step, and only then are the other files removed. Several processes
may do this at once, so fresh partial files of others are left alone.
-/

namespace EngineClient

/-- A binary together with its version: a file's path, or an object's key. -/
structure Asset where
  version : Version
  location : String
deriving Repr, DecidableEq

/-- The running maximum of a search: a candidate counts if it is higher than what was found. -/
def higher (found : Option Asset) (candidate : Asset) : Option Asset :=
  match found with
  | none => some candidate
  | some best => if best.version < candidate.version then some candidate else some best

/-- The first candidate of the highest version. -/
def highest (candidates : List Asset) : Option Asset := candidates.foldl higher none

/-- The store of the binary below a mount directory. -/
structure Store where
  mount : Path
deriving Repr, DecidableEq

namespace Store

def binDir (s : Store) : Path := s.mount.join (Path.ofString "bin")

/-- The path of an entry of that directory. -/
def pathOf (s : Store) (name : Name) : Path := s.binDir.join name

/-- Creates the directory of the binary and those above it that are missing. -/
def ensureDirectory (s : Store) (fs : FileSystem) : Except IoError Unit × FileSystem :=
  fs.makeDirs s.binDir

/-- The binary that a name stands for, if it is a file and its name has a version. -/
def candidate? (s : Store) (fs : FileSystem) (name : Name) : Option Asset :=
  if fs.isFile (s.pathOf name) then
    match stringOf? name with
    | none => none
    | some text => (Version.ofFileName? text).map fun v => ⟨v, lossyString (s.pathOf name)⟩
  else none

def installed? (s : Store) (fs : FileSystem) : Except IoError (Option Asset) :=
  if fs.isDir s.binDir then
    (fs.readDir s.binDir).map fun names => highest (names.filterMap (s.candidate? fs))
  else .ok none

/-! ## Partial files -/

/-- The start of the name of every partial file. -/
def partialMark : Name := bytesOf ".download-"

/-- The age in seconds from which on a partial file counts as abandoned. -/
def staleAge : Int := 3600

/-- Six letters and digits that spell a number. -/
def sixDigits (n : Nat) : Name :=
  let digits := "0123456789abcdefghijklmnopqrstuvwxyzABCDEFGHIJKLMNOPQRSTUVWXYZ".toList.toArray
  (List.range 6).reverse.map fun place => (digits[n / Nat.pow 62 place % 62]?.getD '0').toNat.toUInt8

/-- The first number tried in the name of a partial file. -/
def firstPartial : Nat := 31415926535

/-- Creates a partial file under the first free of `tries + 1` names. -/
def createPartialFrom (s : Store) (fs : FileSystem) :
    (tries number : Nat) → Except IoError (Path × Location × FileSystem)
  | 0, number =>
    let path := s.pathOf (partialMark ++ sixDigits number)
    (fs.createFile path).map fun r => (path, r)
  | tries + 1, number =>
    let path := s.pathOf (partialMark ++ sixDigits number)
    match fs.createFile path with
    | .ok r => .ok (path, r)
    | .error .alreadyExists => createPartialFrom s fs tries (number + 1)
    | .error e => .error e

/-- Creates a partial file under a name that is not taken. -/
def createPartial (s : Store) (fs : FileSystem) : Except IoError (Path × Location × FileSystem) :=
  createPartialFrom s fs fs.entries.length firstPartial

def isPartialName (name : Name) : Bool :=
  (stringOf? name).isSome && partialMark.isPrefixOf name

/-- Whether an entry is a partial file that may still be written to. -/
def isLivePartial (s : Store) (fs : FileSystem) (name : Name) : Bool :=
  isPartialName name &&
    match fs.file? (s.pathOf name) with
    | some f => f.age < staleAge
    | none => true

/-! ## Replacing the binary -/

/-- Whether a name can be that of an installed binary: it is the last part of itself as a path. -/
def accepts (name : Name) : Bool := Path.fileName? name == some name

/-- Gives the partial file its final name. -/
def persist (s : Store) (file : Path) (name : Name) (fs : FileSystem) :
    Except IoError FileSystem :=
  fs.moveFile file (s.pathOf name)

def discard (file : Path) (t : Transfer) : Transfer :=
  match t.fs.removeFile file with
  | .ok fs => t.advance fs
  | .error _ => t

/-- Whether cleaning up after the installation of `keep` removes an entry. -/
def isLeftover (s : Store) (fs : FileSystem) (keep name : Name) : Bool :=
  fs.isFile (s.pathOf name) && name != keep && !s.isLivePartial fs name

/-- Goes through the names of a directory and removes the files that are left over from earlier
installations. A file that another process has removed already is no failure. -/
def sweep (s : Store) (keep : Name) : List Name → Transfer → Except IoError Unit × Transfer
  | [], t => (.ok (), t)
  | name :: rest, t =>
    if s.isLeftover t.fs keep name then
      match t.fs.removeFile (s.pathOf name) with
      | .ok fs => sweep s keep rest (t.advance fs)
      | .error e => if e = .notFound then sweep s keep rest t else (.error e, t)
    else sweep s keep rest t

/-- Removes everything but the binary `keep`. -/
def cleanUp (s : Store) (keep : Name) (t : Transfer) : Except IoError Unit × Transfer :=
  match t.fs.readDir s.binDir with
  | .ok names => s.sweep keep names t
  | .error e => (.error e, t)

/-- Cleans up after an installation and answers with the path of the binary. -/
def settle (s : Store) (name : Name) (t : Transfer) : Except Error Path × Transfer :=
  match s.cleanUp name t with
  | (.ok (), t) => (.ok (s.pathOf name), t)
  | (.error e, t) => (.error (.io e), t)

/-- Installs a partial file that is complete. If it has vanished, but a binary of that name is
there, another process has installed it. -/
def install (s : Store) (file : Path) (name : Name) (t : Transfer) :
    Except Error Path × Transfer :=
  match s.persist file name t.fs with
  | .ok fs => s.settle name (t.advance fs)
  | .error e =>
    let installed := t.fs.isFile (s.pathOf name)
    let t := discard file t
    if installed then s.settle name t else (.error (.io e), t)

/-- Receives a stream into a partial file and installs it under a name. -/
def receiveAndInstall (s : Store) (name : String) (chunkSize : Nat) (source : Source)
    (file : Path) (loc : Location) (t : Transfer) : Except Error Path × Transfer :=
  match download loc chunkSize source t with
  | (.cancelled, t) => (.error .cancelled, discard file t)
  | (.failed reason, t) =>
    (.error (.fetch (.brokenStream name t.received reason)), discard file t)
  | (.complete, t) =>
    if t.received = 0 then (.error (.fetch (.emptyBody name)), discard file t)
    else s.install file (bytesOf name) t

/-- Replaces the installed binary by one that arrives on a stream. On failure the partial file is
gone and the old binary untouched. -/
def replace (s : Store) (name : String) (chunkSize : Nat) (source : Source) (t : Transfer) :
    Except Error Path × Transfer :=
  let t := t.restart
  if accepts (bytesOf name) then
    match s.ensureDirectory t.fs with
    | (.error e, fs) => (.error (.io e), t.advance fs)
    | (.ok (), fs) =>
      let t := t.advance fs
      match s.createPartial t.fs with
      | .error e => (.error (.io e), t)
      | .ok (file, loc, fs) =>
        s.receiveAndInstall name chunkSize source file loc (t.advance fs)
  else (.error (.fetch (.refusedName name)), t)

def rivalChunk : Nat := 4

/-- Another process installs a binary in the store. -/
def rival (s : Store) (name : String) (data : Bytes) (fs : FileSystem) :
    FileSystem × Option String :=
  match s.replace name rivalChunk [.data data] { fs } with
  | (.ok _, t) => (t.fs, none)
  | (.error e, t) => (t.fs, some e.message)

/-- Another process removes the partial files from the directory of the binary. -/
def clearPartials (s : Store) (fs : FileSystem) : FileSystem :=
  (((fs.readDir s.binDir).toOption.getD []).filter partialMark.isPrefixOf).foldl
    (fun fs name => (fs.removeAll (s.pathOf name)).toOption.getD fs) fs

end Store

end EngineClient
