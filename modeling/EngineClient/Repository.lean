import EngineClient.Platform
import EngineClient.Store

/-!
# Repositories

A repository publishes engine binaries under keys such as `release/linux-x86_64/0.0.1-engine.so`:
the folder of a platform, and a name with a version. A repository may be a list of objects given
outright or a directory that holds the same tree.
-/

namespace EngineClient

/-- Lists and fetches published binaries. Both may look at the file system. -/
structure Repository where
  listKeys : FileSystem → String → Except Error (List String)
  fetch : FileSystem → String → Except Error Source

/-- A question to a repository. -/
inductive Query where
  | list (folder : String)
  | fetch (key : String)
deriving Repr, DecidableEq

def keySegments (key : String) : List String := (key.toList.splitOn '/').map String.ofList

def keyName (key : String) : String :=
  String.ofList (key.toList.reverse.takeWhile (· != '/')).reverse

namespace Repository

/-- The binary that a key stands for, if its name has a version. -/
def candidate? (key : String) : Option Asset :=
  (Version.ofFileName? (keyName key)).map fun v => ⟨v, key⟩

/-- The first of the listed binaries of the highest version. -/
def select (keys : List String) : Option Asset := highest (keys.filterMap candidate?)

/-- The published binary of the highest version for a platform. -/
def latest? (r : Repository) (fs : FileSystem) (p : Platform) : Except Error (Option Asset) :=
  (r.listKeys fs p.folder).map select

def ofObjects (keys : Except Error (List String))
    (objects : List (String × Except Error Source)) : Repository where
  listKeys _ _ := keys
  fetch _ key :=
    match objects.lookup key with
    | some object => object
    | none => .error (.fetch (.other s!"no such object: {key}"))

/-! ## Directories -/

/-- The path of an object below the root of a directory. Segments that would leave it are
refused. -/
def pathUnder (root : Path) (key : String) : Except Error Path :=
  let segments := (keySegments key).filter (!·.isEmpty)
  if segments.any fun s => s == "." || s == ".." then .error (.fetch (.invalidKey key))
  else .ok (segments.foldl (fun path s => path.join (Path.ofString s)) root)

/-- A folder without the slashes at its end. -/
def trimFolder (folder : String) : String :=
  String.ofList (folder.toList.reverse.dropWhile (· == '/')).reverse

def keysIn (fs : FileSystem) (dir : Path) (folder : String) (names : List Name) : List String :=
  let files := names.filter fun name => fs.isFile (dir.join name)
  ((files.filterMap stringOf?).map fun name => trimFolder folder ++ "/" ++ name).mergeSort

def ofDirectory (root : Path) : Repository where
  listKeys fs folder :=
    match pathUnder root folder with
    | .error e => .error e
    | .ok dir =>
      if fs.isDir dir then
        match fs.readDir dir with
        | .ok names => .ok (keysIn fs dir folder names)
        | .error e => .error (.io e)
      else .ok []
  fetch fs key :=
    match pathUnder root key with
    | .error e => .error e
    | .ok path =>
      match fs.stat path with
      | .error e => .error (.fetch (.cannotOpen path e))
      | .ok (.file f) => .ok [.data f.data]
      | .ok _ => .ok [.fail IoError.isADirectory.message]

end Repository

end EngineClient
