import Mathlib
import EngineClient.Proofs.Store.Endings
import EngineClient.Proofs.Store.Installed
import EngineClient.Proofs.Store.Replace

/-!
# One binary after another

A replacement that succeeds leaves one binary: whatever files there were under names with a version,
only the new one is left, and the search finds it.
-/

namespace EngineClient.Store

open FileSystem

variable {s : Store} {name other : String} {chunkSize : Nat} {source : Source} {t t' : Transfer}
variable {own bin : Location} {made begun mid fs : FileSystem} {path : Path} {v w : Version}
variable {key : Name} {f : File}

/-! ## After the sweep -/

theorem Swept.eq_keep (hswept : s.Swept bin key (mid.names bin) mid fs)
    (h : s.Installed fs other w) : bytesOf other = key := by
  obtain ⟨names, hread, hmem⟩ := h.listed
  obtain ⟨bin', hbin', rfl⟩ := readDir_eq_ok_iff.mp hread
  obtain rfl := hbin'.unique hswept.dirAt
  obtain ⟨entry, hentry⟩ := Option.ne_none_iff_exists'.mp (mem_names.mp hmem)
  have hbefore : bytesOf other ∈ mid.names bin' :=
    mem_names.mpr (by rw [hswept.shrunk.entry_before hentry]; nofun)
  obtain ⟨f, hfile⟩ := Option.isSome_iff_exists.mp h.isFile
  rcases hswept.files _ hbefore f hfile with hkeep | ⟨hpartial, -⟩
  · exact hkeep
  · rw [not_isPartialName h.version] at hpartial
    cases hpartial

/-- The search finds the binary that a sweep has kept. -/
theorem Swept.installed? (hswept : s.Swept bin (bytesOf name) (mid.names bin) mid fs)
    (hversion : Version.ofFileName? name = some v)
    (hentry : fs.entry? (bin ++ [bytesOf name]) ≠ none)
    (hfile : fs.file? (s.pathOf (bytesOf name)) = some f) :
    s.installed? fs = .ok (some ⟨v, lossyString (s.pathOf (bytesOf name))⟩) := by
  have hread : fs.readDir s.binDir = .ok (fs.names bin) :=
    readDir_eq_ok_iff.mpr ⟨bin, hswept.dirAt, rfl⟩
  have hname : s.Installed fs name v :=
    ⟨⟨_, hread, mem_names.mpr hentry⟩, Option.isSome_iff_exists.mpr ⟨f, hfile⟩, hversion⟩
  exact installed?_of_only hswept.dirAt hname fun other w hother =>
    bytesOf_injective (hswept.eq_keep hother)

/-! ## Replacements that succeed -/

theorem Begun.ending {file : Path} (hbegun : s.Begun own.dropLast own file made begun)
    (ht : t.fs = begun) (hothers : ∀ met ∈ source.acts t.cancelled begun, Shares own met.1 met.2)
    (chunkSize : Nat) :
    (download own chunkSize source t).1 = source.ending t.cancelled begun := by
  have hholds : t.fs.Holds own [] := by
    intro entry hentry
    rw [ht, hbegun.entry?_own] at hentry
    exact (Option.some.inj hentry).symm
  have hemptied : t.fs.emptied own = begun := by rw [ht, hbegun.emptied]
  have hnew : ¬Beside own.dropLast own own := fun hbeside => hbeside.1 rfl
  have hending := download_ending chunkSize hnew hholds
    (hemptied.symm ▸ harmless_of_shares hothers)
  rwa [hemptied] at hending

theorem begins_of_ok (h : s.replace name chunkSize source t = (.ok path, t')) :
    ∃ own made begun, s.Begins name t own made begun := by
  by_contra hnot
  obtain ⟨e, hfails⟩ := (replace_of_not_begins chunkSize source
    fun own made begun hbegins => hnot ⟨own, made, begun, hbegins⟩).1
  rw [h] at hfails
  cases hfails

/-- A replacement that succeeds has received all of the stream, placed the binary and swept the
directory. -/
theorem Begins.replace_ok (hbegins : s.Begins name t own made begun) (htree : t.fs.IsTree)
    (hothers : ∀ met ∈ source.acts t.cancelled begun, Shares own met.1 met.2)
    (h : s.replace name chunkSize source t = (.ok path, t')) :
    path = s.pathOf (bytesOf name) ∧ source.ending t.cancelled begun = .complete ∧
      ∃ mid, s.Placed (bytesOf name) source own.dropLast own
          (outcome (source.acts t.cancelled begun) begun) mid ∧
        s.Swept own.dropLast (bytesOf name) (mid.names own.dropLast) mid t'.fs := by
  obtain ⟨file, hbegun, hrun⟩ := hbegins.replace chunkSize source
  have hkey := accepts_iff.mp hbegins.accepted
  let t₂ := (t.restart.advance made).advance begun
  rw [hrun] at h
  have hcomplete : source.ending t.cancelled begun = .complete := by
    have hending : (download own chunkSize source t₂).1 = source.ending t.cancelled begun :=
      hbegun.ending (t := t₂) rfl hothers chunkSize
    rcases receiveAndInstall_cases s name chunkSize source file own t₂ with
      ⟨e, hfails⟩ | ⟨hcomplete, -⟩
    · rw [h] at hfails
      cases hfails
    · rw [← hending, hcomplete]
  obtain ⟨hpath, mid, hdir, rfl, hleft, hplaced⟩ :=
    receiveAndInstall_ok (t := t₂) hbegun rfl (fun hnew => hnew.1 rfl)
      (harmless_of_shares hothers) hkey h
  have hplaced : s.Placed (bytesOf name) source own.dropLast own _ mid.fs := ⟨hdir, hplaced⟩
  have hway := (ensureDirectory_spec s t.fs).1
  rw [hbegins.ensured] at hway
  have hmid : OnlyFilesAt (Within own.dropLast) made mid.fs :=
    (within_of_later hbegun hleft).trans
      (hplaced.onlyFilesAt.mono fun loc hloc => ⟨_, hkey, hloc⟩)
  obtain ⟨hpass, hplain⟩ := ready_of_later (htree.madeWay hway) hbegins.dirAt.1 hmid
  exact ⟨hpath, hcomplete, mid.fs, hplaced, sweep_swept hpass hdir hplain⟩

end EngineClient.Store
