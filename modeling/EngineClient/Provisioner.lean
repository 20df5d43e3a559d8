import EngineClient.Repository

/-!
# Provisioning

Which binary to load: the installed one, unless a higher version is published for the platform. A
published binary is downloaded and takes the place of the installed one; nothing is ever downgraded
or fetched again. Trouble with the repository is no failure as long as a binary is installed.
-/

namespace EngineClient

/-- The size of a download chunk unless another is asked for: 8 MiB. -/
def defaultChunkSize : Nat := 8388608

/-- Keeps the store of a mount directory up to date. Without a platform no repository is asked. -/
structure Provisioner where
  store : Store
  platform : Option Platform := Platform.host
  chunkSize : Nat := defaultChunkSize
deriving Repr, DecidableEq

/-- The outcome of a search for a binary: the path to load, the questions asked and the state
reached. -/
structure Provision where
  result : Except Error (Option Path)
  queries : List Query := []
  transfer : Transfer

namespace Provisioner

/-- Fetches a published binary and installs it. If that fails because of the repository, there is
nothing to load. -/
def install (p : Provisioner) (repo : Repository) (remote : Asset) (t : Transfer) :
    Except Error (Option Path) × Transfer :=
  match repo.fetch t.fs remote.location with
  | .error _ => (.ok none, t)
  | .ok source =>
    match p.store.replace (keyName remote.location) p.chunkSize source t with
    | (.ok path, t) => (.ok (some path), t)
    | (.error (.fetch _), t) => (.ok none, t)
    | (.error e, t) => (.error e, t)

/-- Whether a published binary is to take the place of the installed one. -/
def supersedes (remote : Asset) (localAsset : Option Asset) : Bool :=
  match localAsset with
  | none => true
  | some asset => asset.version < remote.version

/-- Decides with the installed binary known. -/
def choose (p : Provisioner) (repo : Repository) (localAsset : Option Asset) (t : Transfer) :
    Provision :=
  let localPath := localAsset.map fun asset => Path.ofString asset.location
  match p.platform with
  | none => ⟨.ok localPath, [], t⟩
  | some platform =>
    let queries := [Query.list platform.folder]
    match repo.latest? t.fs platform with
    | .error e => ⟨if localPath.isSome then .ok localPath else .error e, queries, t⟩
    | .ok none => ⟨.ok localPath, queries, t⟩
    | .ok (some remote) =>
      if supersedes remote localAsset then
        let (result, t) := p.install repo remote t
        ⟨result, queries ++ [.fetch remote.location], t⟩
      else ⟨.ok localPath, queries, t⟩

/-- The path of the binary to load, after downloading it if a higher version is published. -/
def resolve (p : Provisioner) (repo : Repository) (t : Transfer) : Provision :=
  match p.store.ensureDirectory t.fs with
  | (.error e, fs) => ⟨.error (.io e), [], t.advance fs⟩
  | (.ok (), fs) =>
    let t := t.advance fs
    match p.store.installed? t.fs with
    | .error e => ⟨.error (.io e), [], t⟩
    | .ok localAsset => p.choose repo localAsset t

end Provisioner

end EngineClient
