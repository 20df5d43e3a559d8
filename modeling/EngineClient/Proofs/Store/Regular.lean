import Mathlib
import EngineClient.Proofs.Store.Undisturbed

/-!
# Directories without links

Where the directory of the binary holds no links, its entries alone say what is installed: a name
leads to a file if one stands there. Changing files keeps such a directory as it is. Two things can
be said of the trees that an installation passes through: before the binary has its name, nothing
but the partial file has changed, and from then on nothing but files under other names goes.
-/

namespace EngineClient.Store

open FileSystem

/-- A directory of the binary with plain names in it and no links. -/
structure Regular (s : Store) (bin : Location) (fs : FileSystem) : Prop where
  dirAt : fs.DirAt s.binDir bin
  plain : ∀ name, fs.entry? (bin ++ [name]) ≠ none → Path.IsPlain name
  links : ∀ name target, fs.entry? (bin ++ [name]) ≠ some (.link target)

variable {s : Store} {bin own loc : Location} {made fs fs' : FileSystem} {key name : Name}
variable {text : String} {v : Version} {f : File} {bytes : Bytes} {source : Source}

namespace Regular

theorem file?_iff (h : s.Regular bin fs) : fs.file? (s.pathOf name) = some f ∧ Path.IsPlain name ↔
    (s.pathOf name).IsSpelled ∧ name.length ≤ maxName ∧
      fs.entry? (bin ++ [name]) = some (.file f) := by
  constructor
  · rintro ⟨hfile, hname⟩
    obtain ⟨loc, hloc, hentry⟩ := file?_eq_some_iff.mp hfile
    obtain ⟨named, hnamed, hkind⟩ := named_of_resolve hloc hentry
    obtain ⟨hspelled, hlength, rfl⟩ := (resolve_pathOf hname h.dirAt).mp hnamed
    rcases hkind with rfl | ⟨target, hlink⟩
    · exact ⟨hspelled, hlength, hentry⟩
    · exact absurd hlink (h.links name target)
  · rintro ⟨hspelled, hlength, hentry⟩
    have hname := h.plain name (by rw [hentry]; nofun)
    exact ⟨file?_pathOf hname h.dirAt hspelled hlength hentry, hname⟩

theorem installed_iff (h : s.Regular bin fs) : s.Installed fs text v ↔
    Version.ofFileName? text = some v ∧ (s.pathOf (bytesOf text)).IsSpelled ∧
      (bytesOf text).length ≤ maxName ∧
      ∃ f, fs.entry? (bin ++ [bytesOf text]) = some (.file f) := by
  have hread : fs.readDir s.binDir = .ok (fs.names bin) :=
    readDir_eq_ok_iff.mpr ⟨bin, h.dirAt, rfl⟩
  constructor
  · intro hinstalled
    obtain ⟨f, hfile⟩ := Option.isSome_iff_exists.mp hinstalled.isFile
    obtain ⟨names, hnames, hmem⟩ := hinstalled.listed
    rw [hread] at hnames
    obtain rfl := Except.ok.inj hnames
    obtain ⟨hspelled, hlength, hentry⟩ := h.file?_iff.mp ⟨hfile, h.plain _ (mem_names.mp hmem)⟩
    exact ⟨hinstalled.version, hspelled, hlength, f, hentry⟩
  · rintro ⟨hversion, hspelled, hlength, f, hentry⟩
    have hfile := (h.file?_iff.mpr ⟨hspelled, hlength, hentry⟩).1
    exact ⟨⟨_, hread, mem_names.mpr (by rw [hentry]; nofun)⟩,
      Option.isSome_iff_exists.mpr ⟨f, hfile⟩, hversion⟩

theorem of_keptWays (h : s.Regular bin fs) (hwork : fs'.workDir = fs.workDir)
    (hkept : KeptWays fs fs') (hlater : OnlyFilesAt (Within bin) fs fs') : s.Regular bin fs' where
  dirAt := h.dirAt.of_keptWays hwork hkept
  plain := by
    intro name hname
    obtain ⟨entry, hentry⟩ := Option.ne_none_iff_exists'.mp hname
    rcases hlater _ entry hentry with hold | ⟨⟨other, hplain, heq⟩, -⟩
    · exact h.plain name (by rw [hold]; nofun)
    · obtain rfl : name = other := by simpa using heq
      exact hplain
  links := by
    intro name target hlink
    rcases hlater _ _ hlink with hold | ⟨-, f, hfile⟩
    · exact h.links name target hold
    · cases hfile

theorem put (h : s.Regular bin fs) (hname : Path.IsPlain name)
    (hdir : fs.entry? (bin ++ [name]) ≠ some .dir) (f : File) :
    s.Regular bin (fs.put (bin ++ [name]) (.file f)) := by
  refine h.of_keptWays rfl (KeptWays.put (by simp) (fun entry hentry => ?_) f)
    (OnlyFilesAt.put (by simp) ⟨name, hname, rfl⟩ f)
  cases entry with
  | file g => exact ⟨g, rfl⟩
  | dir => exact absurd hentry hdir
  | link target => exact absurd hentry (h.links name target)

theorem erase (h : s.Regular bin fs) (hdir : fs.entry? (bin ++ [name]) ≠ some .dir) :
    s.Regular bin (fs.erase (bin ++ [name])) := by
  refine h.of_keptWays rfl (KeptWays.erase (by simp) fun entry hentry => ?_)
    (OnlyFilesAt.erase _ _ _)
  cases entry with
  | file g => exact ⟨g, rfl⟩
  | dir => exact absurd hentry hdir
  | link target => exact absurd hentry (h.links name target)

end Regular

end EngineClient.Store
