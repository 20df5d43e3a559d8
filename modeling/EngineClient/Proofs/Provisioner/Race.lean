import Mathlib
import EngineClient.Proofs.Provisioner.Decision
import EngineClient.Proofs.Store.Rivals

/-!
# Rivals of a provisioner

Other processes install binaries while a provisioner downloads one. The version that it answers with
is the one that a search finds afterwards, and no binary that was installed when it looked is of a
higher one. It has looked before the download, though: a binary of a higher version that another
process installs during the download is removed.
-/

namespace EngineClient.Provisioner

open FileSystem

variable {p : Provisioner} {repo : Repository} {t : Transfer} {made begun : FileSystem}
variable {found : Option Asset} {remote : Asset} {source : Source} {own : Location} {path : Path}

/-- A binary of a higher version is published, and its download begins. -/
structure Downloads (p : Provisioner) (repo : Repository) (t : Transfer) (made : FileSystem)
    (found : Option Asset) (remote : Asset) (source : Source) (own : Location)
    (begun : FileSystem) : Prop where
  upgrade : p.Upgrade repo made found remote
  fetched : repo.fetch made remote.location = .ok source
  begins : p.store.Begins (keyName remote.location) (t.advance made) own made begun

private theorem Downloads.unique {remote' : Asset} {source' : Source} {own' : Location}
    {begun' : FileSystem} (h : p.Downloads repo t made found remote source own begun)
    (h' : p.Downloads repo t made found remote' source' own' begun') :
    remote = remote' ∧ source = source' ∧ own = own' ∧ begun = begun' := by
  have hlisting := h.upgrade.1
  rw [h'.upgrade.1] at hlisting
  cases hlisting
  have hfetched := h.fetched
  rw [h'.fetched] at hfetched
  cases hfetched
  obtain ⟨hown, -, hbegun⟩ := h.begins.unique h'.begins
  exact ⟨rfl, rfl, hown, hbegun⟩

theorem downloads_of_ok {bin : Location} (hbin : made.DirAt p.store.binDir bin)
    (hup : p.Upgrade repo made found remote)
    (h : (p.install repo remote (t.advance made)).1 = .ok (some path)) :
    ∃ source own begun, p.Downloads repo t made found remote source own begun ∧
      p.store.replace (keyName remote.location) p.chunkSize source (t.advance made) =
        (.ok path, (p.install repo remote (t.advance made)).2) := by
  cases hfetch : repo.fetch made remote.location with
  | error e =>
    rw [install_unavailable (t := t.advance made) hfetch] at h
    cases h
  | ok source =>
    rw [install_eq (t := t.advance made) hfetch] at h ⊢
    cases hrun : p.store.replace (keyName remote.location) p.chunkSize source (t.advance made) with
    | mk result t' =>
      rw [hrun] at h
      cases result with
      | error e => cases e <;> cases h
      | ok path' =>
        cases h
        obtain ⟨own, made', begun, hbegins⟩ := Store.begins_of_ok hrun
        have hmade : p.store.ensureDirectory made = (.ok (), made') := hbegins.ensured
        rw [Store.ensureDirectory_of_dirAt hbin] at hmade
        obtain rfl : made = made' := (Prod.ext_iff.mp hmade).2
        exact ⟨source, own, begun, ⟨hup, hfetch, hbegins⟩, hrun⟩

/-- The binary that a download beside rivals has brought is what a search finds afterwards, and
only binaries that the rivals have installed have come meanwhile. -/
theorem Downloads.outlasts {t' : Transfer}
    (h : p.Downloads repo t made found remote source own begun)
    (htree : made.IsTree)
    (hothers : ∀ met ∈ source.acts t.cancelled begun, Contends own.dropLast met.1 met.2)
    (hrun : p.store.replace (keyName remote.location) p.chunkSize source (t.advance made) =
      (.ok path, t')) :
    let acts := source.acts t.cancelled begun
    p.store.installed? t'.fs = .ok (some ⟨remote.version, lossyString path⟩) ∧
      ∀ fs ∈ moments acts begun, ∀ other w, p.store.Installed fs other w →
        ¬p.store.Installed made other w → ∃ loc,
          fs.resolve true (p.store.pathOf (bytesOf other)) = .ok loc ∧ Arrives own acts loc := by
  intro acts
  obtain ⟨draw, hdraw, hpartial, hown⟩ := h.begins.drawn
  obtain ⟨-, file, hbegun⟩ := h.begins.dirAt
  obtain ⟨platform, -, hlatest⟩ := h.upgrade.supported
  have hshares : ∀ met ∈ acts, Shares own met.1 met.2 :=
    fun met hmet => (hothers met hmet).shares hpartial hown
  obtain ⟨rfl, hending, mid, hplaced, hswept⟩ := h.begins.replace_ok htree hshares hrun
  obtain ⟨hmoments, hlast⟩ := contended_moments hdraw hpartial hown
    (hbegun.contended htree acts) hothers (Source.reports_of_ending hending)
  constructor
  · have hkey := Store.accepts_iff.mp h.begins.accepted
    have hspared : FileSystem.entry? (outcome acts begun) own ≠ none := by
      rw [hlast.own]
      nofun
    obtain ⟨bytes, -, hentry, hfile⟩ := hplaced.binary hkey hswept hspared
    exact hswept.installed? (Repository.version_of_latest? hlatest) (by rw [hentry]; nofun) hfile
  · exact fun fs hfs other w hinstalled hnot => (hmoments fs hfs).arrived hinstalled hnot

private theorem Upgrade.not_below (h : p.Upgrade repo made found remote)
    (hfinds : p.store.Finds made found) {other : String} {w : Version}
    (hother : p.store.Installed made other w) : ¬remote.version < w := by
  intro hlt
  cases hfinds with
  | nothing hnone => exact hnone other w hother
  | binary hname hbest => exact hbest other w hother (Version.lt_trans (h.2 _ rfl) hlt)

private theorem found_of_choose (hnot : ∀ remote, ¬p.Upgrade repo made found remote)
    (hfinds : p.store.Finds made found)
    (h : (p.choose repo found (t.advance made)).result = .ok (some path)) :
    ∃ v, found = some ⟨v, lossyString path⟩ ∧
      (p.choose repo found (t.advance made)).transfer.fs = made ∧
      ∀ other w, p.store.Installed made other w → ¬v < w := by
  obtain ⟨a, rfl, rfl⟩ := choose_kept_some (t := t.advance made) hnot h
  rw [choose_kept (t := t.advance made) hnot]
  cases hfinds with
  | binary hname hbest =>
    refine ⟨_, ?_, rfl, hbest⟩
    rw [Path.ofString, lossyString_bytesOf]

/-- If a provisioner answers with a path while others install binaries with versions, then the
search finds the binary at this path afterwards. No binary that was installed when the provisioner
looked is of a higher version, and one of a higher version that is installed at a moment of the
download is a file that has come during it. -/
theorem resolve_never_below_found (htree : t.fs.IsTree)
    (hmade : p.store.ensureDirectory t.fs = (.ok (), made))
    (hfound : p.store.installed? made = .ok found)
    (hothers : ∀ remote source own begun, p.Downloads repo t made found remote source own begun →
      ∀ met ∈ source.acts t.cancelled begun, Contends own.dropLast met.1 met.2)
    (h : (p.resolve repo t).result = .ok (some path)) :
    ∃ v, p.store.installed? (p.resolve repo t).transfer.fs = .ok (some ⟨v, lossyString path⟩) ∧
      (∀ other w, p.store.Installed made other w → ¬v < w) ∧
      ∀ remote source own begun, p.Downloads repo t made found remote source own begun →
        let acts := source.acts t.cancelled begun
        ∀ fs ∈ moments acts begun, ∀ other w, p.store.Installed fs other w → v < w → ∃ loc,
          fs.resolve true (p.store.pathOf (bytesOf other)) = .ok loc ∧ Arrives own acts loc := by
  have hfinds := Store.installed?_finds hfound
  rw [resolve_eq_choose hmade hfound] at h ⊢
  by_cases hup : ∃ remote, p.Upgrade repo made found remote
  · obtain ⟨remote, hup⟩ := hup
    obtain ⟨platform, hplatform, -⟩ := hup.supported
    obtain ⟨hway, hdir⟩ := Store.ensureDirectory_spec p.store t.fs
    rw [hmade] at hway hdir
    obtain ⟨bin, hbin⟩ := hdir rfl
    rw [choose_upgrade (t := t.advance made) hplatform hup] at h ⊢
    obtain ⟨source, own, begun, hdownloads, hrun⟩ := downloads_of_ok hbin hup h
    obtain ⟨hinstalled, hmoments⟩ := hdownloads.outlasts (htree.madeWay hway)
      (hothers _ _ _ _ hdownloads) hrun
    refine ⟨remote.version, hinstalled, fun other w => hup.not_below hfinds, ?_⟩
    intro remote' source' own' begun' hdownloads' acts fs hfs other w hother hlt
    obtain ⟨rfl, rfl, rfl, rfl⟩ := hdownloads.unique hdownloads'
    exact hmoments fs hfs other w hother fun hold => hup.not_below hfinds hold hlt
  · have hnot : ∀ remote, ¬p.Upgrade repo made found remote := fun remote h => hup ⟨remote, h⟩
    obtain ⟨v, rfl, hkept, hbest⟩ := found_of_choose hnot hfinds h
    rw [hkept]
    exact ⟨v, hfound, hbest, fun remote source own begun hdownloads =>
      absurd hdownloads.upgrade (hnot remote)⟩

/-! ### A binary that is published, and a newer one that a rival installs -/

/-- A stream during which another process installs a binary. -/
def contestedSource : Source :=
  [.data [97, 98], .outside (Store.sampleStore.rival "3.0.0-e" (bytesOf "theirs")),
    .data [99, 100]]

/-- The tree in which its download has begun. -/
def contestedTree : FileSystem := versionedTree.put Store.sampleOwn (.file ⟨[], 0⟩)

private theorem contested_downloads : sampleProvisioner.Downloads (publishing contestedSource)
    { fs := versionedTree } versionedTree (some ⟨⟨1, 0, 0, none, none⟩, "/m/bin/1.0.0-e"⟩)
    ⟨⟨2, 0, 0, none, none⟩, "release/linux-x86_64/2.0.0-e"⟩ contestedSource Store.sampleOwn
    contestedTree where
  upgrade := by
    refine ⟨by decide +kernel, ?_⟩
    rintro _ ⟨⟩
    decide +kernel
  fetched := rfl
  begins :=
    { accepted := by decide +kernel
      ensured := by decide +kernel
      created :=
        ⟨Store.sampleStore.pathOf (Store.sampleOwn.getLast?.getD []), by decide +kernel⟩ }

private theorem contested_contends : ∀ met ∈ contestedSource.acts false contestedTree,
    Contends Store.sampleOwn.dropLast met.1 met.2 := by
  intro met hmet
  simp only [contestedSource, Source.acts, Source.actsFrom, Bool.false_eq_true, if_false, ite_self,
    List.isEmpty_cons, Bool.or_false, List.mem_singleton] at hmet
  obtain rfl := hmet
  have hversion : Version.ofFileName? "3.0.0-e" = some ⟨3, 0, 0, none, none⟩ := by decide +kernel
  exact .install Store.sampleStore "3.0.0-e" (bytesOf "theirs") (by constructor <;> decide +kernel)
    hversion

theorem resolve_never_below_found_contested :
    let out := sampleProvisioner.resolve (publishing contestedSource) { fs := versionedTree }
    ∃ v, Store.sampleStore.installed? out.transfer.fs = .ok (some ⟨v, "/m/bin/2.0.0-e"⟩) ∧
      ¬v < ⟨1, 0, 0, none, none⟩ := by
  have hdone : (sampleProvisioner.resolve (publishing contestedSource)
      { fs := versionedTree }).result =
        .ok (some (Store.sampleStore.pathOf (bytesOf "2.0.0-e"))) := by decide +kernel
  have hfound : Store.sampleStore.installed? versionedTree =
      .ok (some ⟨⟨1, 0, 0, none, none⟩, "/m/bin/1.0.0-e"⟩) := by decide +kernel
  obtain ⟨v, hinstalled, hbest, -⟩ := resolve_never_below_found (p := sampleProvisioner)
    (t := { fs := versionedTree }) versionedTree_isTree (by decide +kernel) hfound
    (fun remote source own begun h => by
      obtain ⟨rfl, rfl, rfl, rfl⟩ := contested_downloads.unique h
      exact contested_contends) hdone
  have hold : Store.sampleStore.Installed versionedTree "1.0.0-e" ⟨1, 0, 0, none, none⟩ :=
    ⟨⟨[bytesOf "1.0.0-e"], by decide +kernel, List.mem_singleton.mpr rfl⟩, by decide +kernel,
      by decide +kernel⟩
  have hpath : lossyString (Store.sampleStore.pathOf (bytesOf "2.0.0-e")) = "/m/bin/2.0.0-e" := by
    decide +kernel
  exact ⟨v, hpath ▸ hinstalled, hbest _ _ hold⟩

/-- A binary of a higher version that a rival installs during the download is removed, and the
answer is the path of a lower one. -/
theorem resolve_downgrades :
    let out := sampleProvisioner.resolve (publishing contestedSource) { fs := versionedTree }
    out.result = .ok (some (Store.sampleStore.pathOf (bytesOf "2.0.0-e"))) ∧
      (∃ fs ∈ moments (contestedSource.acts false contestedTree) contestedTree,
        Store.sampleStore.installed? fs =
          .ok (some ⟨⟨3, 0, 0, none, none⟩, "/m/bin/3.0.0-e"⟩)) ∧
      Store.sampleStore.installed? out.transfer.fs =
        .ok (some ⟨⟨2, 0, 0, none, none⟩, "/m/bin/2.0.0-e"⟩) ∧
      (⟨2, 0, 0, none, none⟩ : Version) < ⟨3, 0, 0, none, none⟩ := by
  decide +kernel

end EngineClient.Provisioner
