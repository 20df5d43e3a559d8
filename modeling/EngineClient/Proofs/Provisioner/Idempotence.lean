import Mathlib
import EngineClient.Proofs.Provisioner.Loadable

/-!
# Provisioning twice

A provisioner that has answered with a path leaves a tree in which the search finds the binary at
that path, and no higher version is published. So whoever provisions the same store again, with what
is published unchanged, gets the same answer, fetches nothing and changes nothing.
-/

namespace EngineClient.Provisioner

open FileSystem

variable {p p' : Provisioner} {repo repo' : Repository} {t t' : Transfer} {made : FileSystem}
variable {found : Option Asset} {path : Path} {bin : Location} {remote : Asset}

/-! ## At rest -/

/-- A tree in which a provisioner has come to rest: the search finds the binary at a path, and
nothing of a higher version is published. -/
structure Rests (p : Provisioner) (repo : Repository) (fs : FileSystem) (path : Path) : Prop where
  dirAt : ∃ bin, fs.DirAt p.store.binDir bin
  found : ∃ a, p.store.installed? fs = .ok (some a) ∧ path = Path.ofString a.location ∧
    ∀ remote, ¬p.Upgrade repo fs (some a) remote

/-- At rest a provisioner answers with that path, fetches nothing and leaves the tree as it is. -/
theorem Rests.resolve (h : p.Rests repo t.fs path) :
    (p.resolve repo t).result = .ok (some path) ∧
      (∀ key, .fetch key ∉ (p.resolve repo t).queries) ∧ (p.resolve repo t).transfer.fs = t.fs := by
  obtain ⟨bin, hbin⟩ := h.dirAt
  obtain ⟨a, hfound, rfl, hnot⟩ := h.found
  have hensured : p.store.ensureDirectory t.fs = (.ok (), t.fs) :=
    Store.ensureDirectory_of_dirAt hbin
  rw [resolve_eq_choose hensured hfound, choose_kept (t := t.advance t.fs) hnot]
  refine ⟨rfl, fun key => ?_, rfl⟩
  simp

private theorem listing_eq {fs fs' : FileSystem} (hplatform : p'.platform = p.platform)
    (h : ∀ platform, p.platform = some platform →
      repo'.listKeys fs' platform.folder = repo.listKeys fs platform.folder) :
    p'.listing repo' fs' = p.listing repo fs := by
  rw [listing, listing, hplatform]
  cases hsome : p.platform with
  | none => rfl
  | some platform =>
    simp only [Repository.latest?]
    rw [h platform hsome]

/-! ## Coming to rest -/

private theorem install_only (htree : made.IsTree) (hbin : made.DirAt p.store.binDir bin)
    (hrepo : ∀ fs key source, repo.fetch fs key = .ok source → source.IsUndisturbed)
    (hup : p.Upgrade repo made found remote)
    (h : p.install repo remote (t.advance made) = (.ok (some path), t')) :
    path = p.store.pathOf (bytesOf (keyName remote.location)) ∧ t'.fs.DirAt p.store.binDir bin ∧
      ∀ name v, p.store.Installed t'.fs name v ↔
        name = keyName remote.location ∧ v = remote.version := by
  obtain ⟨platform, -, hlatest⟩ := hup.supported
  have hversion := Repository.version_of_latest? hlatest
  obtain ⟨source, own, begun, hdownload, hrun⟩ := downloads_of_ok hbin hup (congrArg Prod.fst h)
  rw [h] at hrun
  have hsource := hrepo _ _ _ hdownload.fetched
  obtain ⟨hdir, file, hbegun⟩ := hdownload.begins.dirAt
  obtain rfl := hbin.unique hdir
  obtain ⟨hpath, -, mid, hplaced, hswept⟩ := hdownload.begins.replace_ok htree
    (Store.shares_of_isUndisturbed own hsource _ _) hrun
  have hspared : FileSystem.entry? (outcome (source.acts t.cancelled begun) begun) own ≠ none := by
    rw [hsource.acts_eq_nil, outcome_nil, hbegun.entry?_own]
    nofun
  obtain ⟨bytes, -, hentry, hfile⟩ :=
    hplaced.binary (Version.isPlain_bytesOf hversion (slash_not_mem_keyName _)) hswept hspared
  refine ⟨hpath, hswept.dirAt, fun name v => ⟨fun hname => ?_, ?_⟩⟩
  · obtain rfl := bytesOf_injective (hswept.eq_keep hname)
    have hv := hname.version
    rw [hversion] at hv
    exact ⟨rfl, (Option.some.inj hv).symm⟩
  · intro heq
    obtain ⟨rfl, rfl⟩ := heq
    refine ⟨⟨_, readDir_eq_ok_iff.mpr ⟨_, hswept.dirAt, rfl⟩, mem_names.mpr ?_⟩, ?_, hversion⟩
    · rw [hentry]
      nofun
    · exact Option.isSome_iff_exists.mpr ⟨_, hfile⟩

private theorem rests_of_install {mount : String} (hmount : p.store.mount = bytesOf mount)
    (htree : made.IsTree) (hbin : made.DirAt p.store.binDir bin)
    (hrepo : ∀ fs key source, repo.fetch fs key = .ok source → source.IsUndisturbed)
    (hup : p.Upgrade repo made found remote)
    (h : p.install repo remote (t.advance made) = (.ok (some path), t'))
    (hstore : p'.store = p.store) (hlisting : p'.listing repo' t'.fs = p.listing repo made) :
    p'.Rests repo' t'.fs path := by
  obtain ⟨hpath, hdir, honly⟩ := install_only htree hbin hrepo hup h
  have hinstalled := (honly _ _).mpr ⟨rfl, rfl⟩
  have hfound := Store.installed?_of_only hdir hinstalled fun other w hother =>
    ((honly other w).mp hother).1
  have hsame : Path.ofString (lossyString path) = path := by
    rw [hpath]
    exact Store.pathOf_bytesOf hmount _
  rw [← hpath] at hfound
  refine ⟨⟨bin, by rwa [hstore]⟩, ⟨remote.version, lossyString path⟩, by rwa [hstore],
    hsame.symm, ?_⟩
  intro remote' hup'
  have hpublished := hup'.1
  rw [hlisting, hup.1] at hpublished
  obtain rfl := Option.some.inj (Except.ok.inj hpublished)
  exact Version.lt_irrefl _ (hup'.2 ⟨remote.version, lossyString path⟩ rfl)

private theorem rests_of_kept (hbin : made.DirAt p.store.binDir bin)
    (hfound : p.store.installed? made = .ok found)
    (hnot : ∀ remote, ¬p.Upgrade repo made found remote)
    (h : (p.choose repo found (t.advance made)).result = .ok (some path))
    (hstore : p'.store = p.store)
    (hlisting : p'.listing repo' made = p.listing repo made) : p'.Rests repo' made path := by
  obtain ⟨a, rfl, rfl⟩ := choose_kept_some (t := t.advance made) hnot h
  refine ⟨⟨bin, by rwa [hstore]⟩, a, by rwa [hstore], rfl, ?_⟩
  intro remote hup
  apply hnot remote
  exact ⟨hlisting ▸ hup.1, hup.2⟩

/-- A provisioner that has answered with a path rests in the tree it has left, as long as what is
published stays the same. If it has fetched, the binary that it has fetched is the only one
there. -/
theorem rests_of_resolve {mount : String} (hmount : p.store.mount = bytesOf mount)
    (htree : t.fs.IsTree)
    (hrepo : ∀ fs key source, repo.fetch fs key = .ok source → source.IsUndisturbed)
    (h : (p.resolve repo t).result = .ok (some path)) (hstore : p'.store = p.store)
    (hlisting : p'.listing repo' (p.resolve repo t).transfer.fs =
      p.listing repo (p.store.ensureDirectory t.fs).2) :
    p'.Rests repo' (p.resolve repo t).transfer.fs path ∧
      ∀ key, .fetch key ∈ (p.resolve repo t).queries → ∃ remote,
        p.listing repo (p.store.ensureDirectory t.fs).2 = .ok (some remote) ∧
          key = remote.location ∧
          ∀ name v, p.store.Installed (p.resolve repo t).transfer.fs name v ↔
            name = keyName remote.location ∧ v = remote.version := by
  obtain ⟨made, found, bin, hensured, hbin, hfound⟩ := resolve_reads h
  have hmade : made.IsTree := by
    have hway := (Store.ensureDirectory_spec p.store t.fs).1
    rw [hensured] at hway
    exact htree.madeWay hway
  rw [resolve_eq_choose hensured hfound] at h hlisting ⊢
  rw [hensured] at hlisting ⊢
  by_cases hup : ∃ remote, p.Upgrade repo made found remote
  · obtain ⟨remote, hup⟩ := hup
    obtain ⟨platform, hplatform, -⟩ := hup.supported
    rw [choose_upgrade (t := t.advance made) hplatform hup] at h hlisting ⊢
    have hrun : p.install repo remote (t.advance made) =
        (.ok (some path), (p.install repo remote (t.advance made)).2) := Prod.ext h rfl
    refine ⟨rests_of_install hmount hmade hbin hrepo hup hrun hstore hlisting, fun key hkey => ?_⟩
    obtain rfl : key = remote.location := by simpa using hkey
    exact ⟨remote, hup.1, rfl, (install_only hmade hbin hrepo hup hrun).2.2⟩
  · have hnot : ∀ remote, ¬p.Upgrade repo made found remote := fun remote hr => hup ⟨remote, hr⟩
    have hkept := choose_kept (t := t.advance made) hnot
    constructor
    · have hleft : (p.choose repo found (t.advance made)).transfer.fs = made := by
        rw [hkept]
        rfl
      rw [hleft] at hlisting ⊢
      exact rests_of_kept hbin hfound hnot h hstore hlisting
    · intro key hkey
      rw [hkept] at hkey
      simp at hkey

/-- If a provisioner has answered with a path, then provisioning the same store again, with the same
binaries published for the same platform, answers with the same path, fetches nothing and changes
nothing. If the first one has fetched a binary, that one is the only binary with a version in the
directory, and its version is the one that was published. -/
theorem resolve_again {mount : String} (hmount : p.store.mount = bytesOf mount)
    (htree : t.fs.IsTree)
    (hrepo : ∀ fs key source, repo.fetch fs key = .ok source → source.IsUndisturbed)
    (h : (p.resolve repo t).result = .ok (some path))
    (hstore : p'.store = p.store) (hplatform : p'.platform = p.platform)
    (hleft : t'.fs = (p.resolve repo t).transfer.fs)
    (hkeys : ∀ platform, p.platform = some platform →
      repo'.listKeys t'.fs platform.folder =
        repo.listKeys (p.store.ensureDirectory t.fs).2 platform.folder) :
    (p'.resolve repo' t').result = .ok (some path) ∧
      (∀ key, .fetch key ∉ (p'.resolve repo' t').queries) ∧
      (p'.resolve repo' t').transfer.fs = t'.fs ∧
      ∀ key, .fetch key ∈ (p.resolve repo t).queries → ∃ remote,
        p.listing repo (p.store.ensureDirectory t.fs).2 = .ok (some remote) ∧
          key = remote.location ∧
          ∀ name v, p.store.Installed t'.fs name v ↔
            name = keyName remote.location ∧ v = remote.version := by
  have hlisting := listing_eq hplatform hkeys
  rw [hleft] at hlisting ⊢
  obtain ⟨hrests, honly⟩ := rests_of_resolve hmount htree hrepo h hstore hlisting
  rw [← hleft] at hrests honly ⊢
  obtain ⟨hresult, hqueries, hfs⟩ := hrests.resolve
  exact ⟨hresult, hqueries, hfs, honly⟩

theorem resolve_again_larger_chunks :
    let first := Provisioner.resolve { sampleProvisioner with chunkSize := 1 }
      (publishing [.data [1, 2], .data [3]]) { fs := versionedTree }
    let second := sampleProvisioner.resolve (publishing []) { fs := first.transfer.fs }
    first.queries = [.list "release/linux-x86_64", .fetch "release/linux-x86_64/2.0.0-e"] ∧
      second.result = first.result ∧ (∀ key, .fetch key ∉ second.queries) ∧
      second.transfer.fs = first.transfer.fs := by
  intro first second
  have hsource : Source.IsUndisturbed [.data [1, 2], .data [3]] := by
    intro act hact
    simp at hact
  have hdone : first.result = .ok (some (Store.sampleStore.pathOf (bytesOf "2.0.0-e"))) := by
    decide +kernel
  let patient : Provisioner := { sampleProvisioner with chunkSize := 1 }
  let later : Transfer := { fs := first.transfer.fs }
  have hmount : patient.store.mount = bytesOf "/m" := by decide
  have hstore : sampleProvisioner.store = patient.store := rfl
  have hplatform : sampleProvisioner.platform = patient.platform := rfl
  have hleft : later.fs = first.transfer.fs := rfl
  have hkeys : ∀ platform, patient.platform = some platform →
      (publishing []).listKeys later.fs platform.folder =
        (publishing [.data [1, 2], .data [3]]).listKeys
          (patient.store.ensureDirectory versionedTree).2 platform.folder := fun _ _ => rfl
  obtain ⟨hresult, hqueries, hfs, -⟩ := resolve_again hmount versionedTree_isTree
    (publishing_isUndisturbed _ hsource) hdone hstore hplatform hleft hkeys
  exact ⟨by decide +kernel, hresult.trans hdone.symm, hqueries, hfs⟩

end EngineClient.Provisioner
