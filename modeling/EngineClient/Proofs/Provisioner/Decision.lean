import Mathlib
import EngineClient.Provisioner
import EngineClient.Proofs.Repository.Selection
import EngineClient.Proofs.Store.Undisturbed

/-!
# The decision of a provisioner

Which questions a provisioner asks and which binary it answers with, for every tree and repository.
The repository is asked for its list at most once, and for a binary only if that is of a higher
version than the installed one. A binary that has been downloaded is installed under its version.
-/

namespace EngineClient

open FileSystem

variable {repo : Repository} {fs : FileSystem} {platform : Platform} {remote : Asset}

theorem slash_not_mem_keyName (key : String) : '/' ∉ (keyName key).toList := by
  rw [keyName, String.toList_ofList, List.mem_reverse]
  intro hmem
  have hslash := List.mem_takeWhile_imp hmem
  simp at hslash

theorem Repository.version_of_latest? (h : repo.latest? fs platform = .ok (some remote)) :
    Version.ofFileName? (keyName remote.location) = some remote.version := by
  obtain ⟨keys, -, hselect⟩ := latest?_eq_ok h
  have hfirst := select_selectsFirst keys
  rw [← hselect] at hfirst
  cases hfirst with
  | best _ hversion => exact hversion

namespace Provisioner

variable {p : Provisioner} {t : Transfer} {made : FileSystem} {found : Option Asset}
variable {source : Source}

/-- What is published for the platform; nothing is for one that is not supported. -/
def listing (p : Provisioner) (repo : Repository) (fs : FileSystem) :
    Except Error (Option Asset) :=
  match p.platform with
  | none => .ok none
  | some platform => repo.latest? fs platform

/-- A binary of a higher version than the installed one is published. -/
def Upgrade (p : Provisioner) (repo : Repository) (fs : FileSystem) (found : Option Asset)
    (remote : Asset) : Prop :=
  p.listing repo fs = .ok (some remote) ∧ ∀ a ∈ found, a.version < remote.version

/-- How the download of a binary may end when a partial file has been created in the tree `made`:
the result and the tree that is reached. -/
inductive Delivers (s : Store) (remote : Asset) (source : Source) (cancelled : Bool)
    (made : FileSystem) : Except Error (Option Path) → FileSystem → Prop
  | cancelled (hending : source.ending cancelled made = .cancelled) :
      Delivers s remote source cancelled made (.error .cancelled) made
  | broken {reason : String} (hending : source.ending cancelled made = .failed reason) :
      Delivers s remote source cancelled made (.ok none) made
  | empty (hending : source.ending cancelled made = .complete) (hbytes : source.contents = .ok []) :
      Delivers s remote source cancelled made (.ok none) made
  /-- The name cannot be given to a file. -/
  | unplaced {e : IoError} (hending : source.ending cancelled made = .complete)
      (hplaces : ¬s.Places made (bytesOf (keyName remote.location))) :
      Delivers s remote source cancelled made (.error (.io e)) made
  /-- The way to the directory has led over what stood under the name. -/
  | cutOff {e : IoError} {fs : FileSystem} (hending : source.ending cancelled made = .complete)
      (hplaces : s.Places made (bytesOf (keyName remote.location))) (hread : ¬s.Readable fs) :
      Delivers s remote source cancelled made (.error (.io e)) fs
  /-- The binary holds all that the stream yields, and it is what a search finds. -/
  | installed {bytes : Bytes} {fs : FileSystem}
      (hending : source.ending cancelled made = .complete)
      (hbytes : source.contents = .ok bytes) (hne : bytes ≠ [])
      (hplaces : s.Places made (bytesOf (keyName remote.location)))
      (hfile : fs.file? (s.pathOf (bytesOf (keyName remote.location))) = some ⟨bytes, 0⟩)
      (hfound : s.installed? fs = .ok (some ⟨remote.version,
        lossyString (s.pathOf (bytesOf (keyName remote.location)))⟩)) :
      Delivers s remote source cancelled made
        (.ok (some (s.pathOf (bytesOf (keyName remote.location))))) fs

/-- A download that brings an answer has brought a file, and the answer is its path. -/
theorem Delivers.answer {s : Store} {cancelled : Bool} {result : Except Error (Option Path)}
    {path : Path} (h : Delivers s remote source cancelled made result fs)
    (hresult : result = .ok (some path)) :
    path = s.pathOf (bytesOf (keyName remote.location)) ∧ fs.isFile path = true := by
  cases h with
  | installed hending hbytes hne hplaces hfile hfound =>
    obtain rfl := Option.some.inj (Except.ok.inj hresult)
    exact ⟨rfl, Option.isSome_iff_exists.mpr ⟨_, hfile⟩⟩
  | cancelled | broken | empty | unplaced | cutOff => cases hresult

/-- What the result of a replacement means for the search. -/
def verdict : Except Error Path → Except Error (Option Path)
  | .ok path => .ok (some path)
  | .error (.fetch _) => .ok none
  | .error e => .error e

theorem install_eq (hfetch : repo.fetch t.fs remote.location = .ok source) :
    p.install repo remote t =
      (verdict (p.store.replace (keyName remote.location) p.chunkSize source t).1,
        (p.store.replace (keyName remote.location) p.chunkSize source t).2) := by
  rw [install, hfetch]
  simp only
  generalize p.store.replace (keyName remote.location) p.chunkSize source t = replaced
  obtain ⟨path | e, t'⟩ := replaced
  · cases path <;> rfl
  · rfl

/-- A download that has begun in a directory ends in one of these ways. -/
theorem install_delivers {bin own : Location} {file : Path} {begun : FileSystem}
    (hversion : Version.ofFileName? (keyName remote.location) = some remote.version)
    (htree : t.fs.IsTree) (hbin : t.fs.DirAt p.store.binDir bin)
    (hfetch : repo.fetch t.fs remote.location = .ok source) (hsource : source.IsUndisturbed)
    (hcreate : p.store.createPartial t.fs = .ok (file, own, begun)) :
    Delivers p.store remote source t.cancelled t.fs (p.install repo remote t).1
      (p.install repo remote t).2.fs := by
  have hplain := Version.isPlain_bytesOf hversion (slash_not_mem_keyName _)
  have hbegins : p.store.Begins (keyName remote.location) t own t.fs begun :=
    ⟨Store.accepts_iff.mpr hplain, Store.ensureDirectory_of_dirAt hbin, file, hcreate⟩
  have hsame := hsource.ending_eq t.cancelled t.fs begun
  rw [install_eq hfetch]
  cases hending : source.ending t.cancelled begun with
  | cancelled =>
    obtain ⟨hresult, hleft⟩ := hbegins.replace_cancelled hsource p.chunkSize hending
    rw [hresult, hleft]
    exact .cancelled (hsame.trans hending)
  | failed reason =>
    obtain ⟨⟨count, hresult⟩, hleft⟩ := hbegins.replace_failed hsource p.chunkSize hending
    rw [hresult, hleft]
    exact .broken (hsame.trans hending)
  | complete =>
    obtain ⟨file', t', -, hcounts, -⟩ := hbegins.replace_undisturbed hsource p.chunkSize
    obtain ⟨bytes, hbytes, -⟩ := hcounts hending
    by_cases hne : bytes = []
    · subst hne
      obtain ⟨hresult, hleft⟩ := hbegins.replace_empty hsource p.chunkSize hending hbytes
      rw [hresult, hleft]
      exact .empty (hsame.trans hending) hbytes
    · have hinstalls := hbegins.replace_complete hsource p.chunkSize htree hending hbytes hne
      simp only
      generalize (p.store.replace (keyName remote.location) p.chunkSize source t).1 = result
        at hinstalls ⊢
      generalize (p.store.replace (keyName remote.location) p.chunkSize source t).2.fs = left
        at hinstalls ⊢
      cases hinstalls with
      | unplaced hplaces => exact .unplaced (hsame.trans hending) hplaces
      | cutOff hplaces hread => exact .cutOff (hsame.trans hending) hplaces hread
      | installed hplaces hswept hentry hfile =>
        refine .installed (hsame.trans hending) hbytes hne hplaces hfile ?_
        exact hswept.installed? hversion (by rw [hentry]; nofun) hfile

theorem resolve_error {e : IoError} (h : (p.store.ensureDirectory t.fs).1 = .error e) :
    (p.resolve repo t).result = .error (.io e) ∧ (p.resolve repo t).queries = [] := by
  rw [resolve]
  generalize p.store.ensureDirectory t.fs = ensured at h
  obtain ⟨result, fs⟩ := ensured
  obtain rfl : result = .error e := h
  exact ⟨rfl, rfl⟩

theorem resolve_eq_choose (hmade : p.store.ensureDirectory t.fs = (.ok (), made))
    (h : p.store.installed? made = .ok found) :
    p.resolve repo t = p.choose repo found (t.advance made) := by
  have hread : p.store.installed? (t.advance made).fs = .ok found := h
  rw [resolve, hmade]
  simp only [hread]

private theorem supersedes_iff :
    supersedes remote found = true ↔ ∀ a ∈ found, a.version < remote.version := by
  cases found with
  | none => simp [supersedes]
  | some a => simp [supersedes]

theorem choose_kept (h : ∀ remote, ¬p.Upgrade repo t.fs found remote) :
    p.choose repo found t =
      { result := match found with
          | some a => .ok (some (Path.ofString a.location))
          | none => (p.listing repo t.fs).map fun _ => none
        queries := p.platform.toList.map fun platform => .list platform.folder
        transfer := t } := by
  rw [choose]
  cases hplatform : p.platform with
  | none =>
    have hlisting : p.listing repo t.fs = .ok none := by rw [listing, hplatform]
    rw [hlisting]
    cases found <;> rfl
  | some platform =>
    have hlisting : p.listing repo t.fs = repo.latest? t.fs platform := by rw [listing, hplatform]
    rw [hlisting]
    simp only
    cases hlatest : repo.latest? t.fs platform with
    | error e => cases found <;> rfl
    | ok published =>
      cases published with
      | none => cases found <;> rfl
      | some remote =>
        have hold : ¬supersedes remote found = true := by
          intro hnew
          exact h remote ⟨hlisting.trans hlatest, supersedes_iff.mp hnew⟩
        simp only [if_neg hold]
        cases found <;> rfl

theorem choose_kept_some {path : Path} (hnot : ∀ remote, ¬p.Upgrade repo t.fs found remote)
    (h : (p.choose repo found t).result = .ok (some path)) :
    ∃ a, found = some a ∧ path = Path.ofString a.location := by
  rw [choose_kept hnot] at h
  cases found with
  | some a => exact ⟨a, rfl, (Option.some.inj (Except.ok.inj h)).symm⟩
  | none =>
    have hnone : (p.listing repo t.fs).map (fun _ => none) = .ok (some path) := h
    cases hlisting : p.listing repo t.fs with
    | error e =>
      rw [hlisting] at hnone
      cases hnone
    | ok published =>
      rw [hlisting] at hnone
      cases hnone

theorem choose_upgrade (hplatform : p.platform = some platform)
    (h : p.Upgrade repo t.fs found remote) :
    p.choose repo found t =
      { result := (p.install repo remote t).1
        queries := [.list platform.folder, .fetch remote.location]
        transfer := (p.install repo remote t).2 } := by
  obtain ⟨hlisting, hnew⟩ := h
  rw [listing, hplatform] at hlisting
  have hlatest : repo.latest? t.fs platform = .ok (some remote) := hlisting
  rw [choose, hplatform]
  simp only [hlatest, if_pos (supersedes_iff.mpr hnew)]
  rfl

theorem Upgrade.supported (h : p.Upgrade repo fs found remote) :
    ∃ platform, p.platform = some platform ∧ repo.latest? fs platform = .ok (some remote) := by
  have hlisting := h.1
  rw [listing] at hlisting
  cases hplatform : p.platform with
  | none =>
    rw [hplatform] at hlisting
    cases hlisting
  | some platform =>
    rw [hplatform] at hlisting
    exact ⟨platform, rfl, hlisting⟩

theorem install_unavailable {e : Error} (h : repo.fetch t.fs remote.location = .error e) :
    p.install repo remote t = (.ok none, t) := by
  rw [install, h]

/-- A tree with a binary in the sample store. -/
def versionedTree : FileSystem where
  entries := [([[109]], .dir), ([[109], [98, 105, 110]], .dir),
    ([[109], [98, 105, 110], bytesOf "1.0.0-e"], .file ⟨[7], 10⟩)]

/-- A repository that publishes one binary, with a stream of it. -/
def publishing (source : Source) : Repository :=
  .ofObjects (.ok ["release/linux-x86_64/2.0.0-e"]) [("release/linux-x86_64/2.0.0-e", .ok source)]

def sampleProvisioner : Provisioner := { store := Store.sampleStore, platform := some .linuxX86 }

theorem versionedTree_isTree : versionedTree.IsTree :=
  isTree_of_entries (by decide) rfl

theorem publishing_isUndisturbed (source : Source) (hsource : source.IsUndisturbed) :
    ∀ fs key source', (publishing source).fetch fs key = .ok source' → source'.IsUndisturbed := by
  intro fs key source' hfetch
  simp only [publishing, Repository.ofObjects, List.lookup_cons, List.lookup_nil] at hfetch
  split at hfetch
  · next object hobject =>
    split at hobject
    · cases hobject
      cases hfetch
      exact hsource
    · cases hobject
  · cases hfetch

end Provisioner

end EngineClient
