import Mathlib
import EngineClient.Proofs.Provisioner.Race

/-!
# Answers that can be loaded

Whenever a provisioner answers with a path, there is a binary with a version in the directory. After
a download the path is that of the binary. The path of an installed one has been read as text, and
bytes that are no text are lost: below a mount directory that is not UTF-8 the answer leads to no
file.
-/

namespace EngineClient.Provisioner

open FileSystem

variable {p : Provisioner} {repo : Repository} {t : Transfer} {made : FileSystem}
variable {found : Option Asset} {path : Path} {name : String} {v : Version}

/-- The binary that an answer is about: a file with a version, right in the directory. -/
structure Stands (s : Store) (fs : FileSystem) (name : String) : Prop where
  plain : Path.IsPlain (bytesOf name)
  version : ∃ v, Version.ofFileName? name = some v
  isFile : fs.isFile (s.pathOf (bytesOf name)) = true

private theorem Stands.of_installed {s : Store} {fs : FileSystem} (htree : fs.IsTree)
    (h : s.Installed fs name v) : Stands s fs name := by
  obtain ⟨names, hread, hmem⟩ := h.listed
  obtain ⟨bin, -, rfl⟩ := readDir_eq_ok_iff.mp hread
  exact ⟨htree.plain bin _ (mem_names.mp hmem), ⟨v, h.version⟩, h.isFile⟩

/-- What becomes of the path of a binary that is read as text. -/
def respelled (path : Path) : Path := Path.ofString (lossyString path)

private theorem choose_stands_kept (htree : t.fs.IsTree) (hfinds : p.store.Finds t.fs found)
    (hnot : ∀ remote, ¬p.Upgrade repo t.fs found remote)
    (h : (p.choose repo found t).result = .ok (some path)) :
    ∃ name, Stands p.store (p.choose repo found t).transfer.fs name ∧
      path = respelled (p.store.pathOf (bytesOf name)) := by
  obtain ⟨a, rfl, rfl⟩ := choose_kept_some hnot h
  rw [choose_kept hnot]
  cases hfinds with
  | binary hname => exact ⟨_, Stands.of_installed htree hname, rfl⟩

private theorem choose_stands_fetched {bin : Location} {remote : Asset} (htree : made.IsTree)
    (hbin : made.DirAt p.store.binDir bin)
    (hrepo : ∀ fs key source, repo.fetch fs key = .ok source → source.IsUndisturbed)
    (hup : p.Upgrade repo made found remote)
    (h : (p.install repo remote (t.advance made)).1 = .ok (some path)) :
    Stands p.store (p.install repo remote (t.advance made)).2.fs (keyName remote.location) ∧
      path = p.store.pathOf (bytesOf (keyName remote.location)) := by
  obtain ⟨platform, -, hlatest⟩ := hup.supported
  have hversion := Repository.version_of_latest? hlatest
  obtain ⟨source, own, begun, hdownload, -⟩ := downloads_of_ok hbin hup h
  obtain ⟨file, hcreate⟩ := hdownload.begins.created
  have hdelivers := install_delivers (p := p) (t := t.advance made) hversion htree hbin
    hdownload.fetched (hrepo _ _ _ hdownload.fetched) hcreate
  obtain ⟨rfl, hfile⟩ := hdelivers.answer h
  exact ⟨⟨Version.isPlain_bytesOf hversion (slash_not_mem_keyName _), ⟨_, hversion⟩, hfile⟩, rfl⟩

/-- A provisioner only answers when the directory is there and has been searched. -/
theorem resolve_reads {answer : Option Path} (h : (p.resolve repo t).result = .ok answer) :
    ∃ made found bin, p.store.ensureDirectory t.fs = (.ok (), made) ∧
      made.DirAt p.store.binDir bin ∧ p.store.installed? made = .ok found := by
  have hdir := (Store.ensureDirectory_spec p.store t.fs).2
  cases hensured : p.store.ensureDirectory t.fs with
  | mk result made =>
    rw [hensured] at hdir
    cases result with
    | error e =>
      rw [(resolve_error (by rw [hensured])).1] at h
      cases h
    | ok _ =>
      obtain ⟨bin, hbin⟩ := hdir rfl
      obtain ⟨found, hfound⟩ := Store.installed?_of_dirAt hbin
      exact ⟨made, found, bin, rfl, hbin, hfound⟩

/-- With nobody else at work in the directory, an answer is always about a binary with a version
that stands there. If it has been downloaded, the answer is its path. Otherwise the answer is that
path read as text, which is the path itself if the mount directory is a text. -/
theorem resolve_loadable (htree : t.fs.IsTree)
    (hrepo : ∀ fs key source, repo.fetch fs key = .ok source → source.IsUndisturbed)
    (h : (p.resolve repo t).result = .ok (some path)) :
    ∃ name, Stands p.store (p.resolve repo t).transfer.fs name ∧
      ((∃ key, .fetch key ∈ (p.resolve repo t).queries) →
        path = p.store.pathOf (bytesOf name)) ∧
      ((∀ key, .fetch key ∉ (p.resolve repo t).queries) →
        path = respelled (p.store.pathOf (bytesOf name))) ∧
      ∀ mount, p.store.mount = bytesOf mount → path = p.store.pathOf (bytesOf name) := by
  obtain ⟨made, found, bin, hensured, hbin, hfound⟩ := resolve_reads h
  have hmade : made.IsTree := by
    have hway := (Store.ensureDirectory_spec p.store t.fs).1
    rw [hensured] at hway
    exact htree.madeWay hway
  rw [resolve_eq_choose hensured hfound] at h ⊢
  by_cases hup : ∃ remote, p.Upgrade repo made found remote
  · obtain ⟨remote, hup⟩ := hup
    obtain ⟨platform, hplatform, -⟩ := hup.supported
    rw [choose_upgrade (t := t.advance made) hplatform hup] at h ⊢
    obtain ⟨hstands, hpath⟩ := choose_stands_fetched hmade hbin hrepo hup h
    exact ⟨_, hstands, fun _ => hpath, fun hnot => absurd (by simp) (hnot remote.location),
      fun _ _ => hpath⟩
  · have hnot : ∀ remote, ¬p.Upgrade repo made found remote := fun remote hr => hup ⟨remote, hr⟩
    obtain ⟨name, hstands, hpath⟩ := choose_stands_kept (t := t.advance made) hmade
      (Store.installed?_finds hfound) hnot h
    refine ⟨name, hstands, ?_, fun _ => hpath,
      fun mount hmount => hpath.trans (Store.pathOf_bytesOf hmount name)⟩
    rintro ⟨key, hkey⟩
    rw [choose_kept (t := t.advance made) hnot] at hkey
    simp at hkey

/-! ### A mount directory that is no text -/

/-- A store below `/m` and a byte that starts no character. -/
def byteStore : Store := ⟨[47, 109, 255]⟩

def byteTree : FileSystem where
  entries := [([[109, 255]], .dir), ([[109, 255], [98, 105, 110]], .dir),
    ([[109, 255], [98, 105, 110], bytesOf "1.0.0-e"], .file ⟨[7], 10⟩)]

theorem resolve_loadable_bytes :
    let out := Provisioner.resolve { store := byteStore, platform := some .linuxX86 }
      (publishing [.data [1]]) { fs := byteTree }
    ∃ path, out.result = .ok (some path) ∧ out.transfer.fs.isFile path = true := by
  intro out
  have hrun : out.result = .ok (some (byteStore.pathOf (bytesOf "2.0.0-e"))) ∧
      .fetch "release/linux-x86_64/2.0.0-e" ∈ out.queries := by decide +kernel
  obtain ⟨hdone, hqueries⟩ := hrun
  have hsource : Source.IsUndisturbed [.data [1]] := Store.isUndisturbed_data [1]
  have htree : byteTree.IsTree := isTree_of_entries (by decide +kernel) rfl
  obtain ⟨name, hstands, hfetched, -⟩ := resolve_loadable (t := { fs := byteTree }) htree
    (publishing_isUndisturbed _ hsource) hdone
  refine ⟨_, hdone, ?_⟩
  rw [hfetched ⟨_, hqueries⟩]
  exact hstands.isFile

/-- The path of a binary that is kept there leads to no file. -/
theorem resolve_unloadable :
    let out := Provisioner.resolve { store := byteStore, platform := none }
      (.ofObjects (.ok []) []) { fs := byteTree }
    ∃ path, out.result = .ok (some path) ∧ out.transfer.fs.isFile path = false := by
  intro out
  exact ⟨respelled (byteStore.pathOf (bytesOf "1.0.0-e")), by decide +kernel, by decide +kernel⟩

end EngineClient.Provisioner
