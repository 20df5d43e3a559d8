import Mathlib
import EngineClient.Proofs.Store.Partial
import EngineClient.Proofs.Store.Reception
import EngineClient.Proofs.Store.Sweep

/-!
# From the partial file to the binary

What becomes of a partial file whose stream has been received. If the installation fails, it is
removed and what the others alone leave stays. If it succeeds, the partial file has taken the name
of the binary, unless it had vanished, and then the directory is swept.
-/

namespace EngineClient.Store

open FileSystem

variable {s : Store} {bin own : Location} {file path : Path} {fs₁ fs₂ : FileSystem}
variable {new : Location → Prop} {t t' : Transfer} {name : Name} {bytes : Bytes} {e : Error}

/-! ## Discarding -/

theorem discard_shrunk (file : Path) (t : Transfer) :
    (discard file t).fs.workDir = t.fs.workDir ∧ Shrunk t.fs (discard file t).fs := by
  rw [discard]
  cases hremove : t.fs.removeFile file with
  | error e => exact ⟨rfl, OnlyFilesAt.refl _ _⟩
  | ok fs =>
    obtain ⟨loc, entry, -, -, -, rfl⟩ := removeFile_eq_ok_iff.mp hremove
    exact ⟨rfl, OnlyFilesAt.erase _ _ _⟩

theorem Begun.discard (h : s.Begun bin own file fs₁ fs₂) (hbin : t.fs.DirAt s.binDir bin)
    (hfresh : t.fs.FreshAt own) : (discard file t).fs = t.fs.erase own := by
  have hown := h.resolve_file hbin
  rw [Store.discard]
  cases hremove : t.fs.removeFile file with
  | ok fs =>
    obtain ⟨loc, entry, hloc, -, -, rfl⟩ := removeFile_eq_ok_iff.mp hremove
    rw [hown] at hloc
    obtain rfl := Except.ok.inj hloc
    rfl
  | error e =>
    cases hentry : t.fs.entry? own with
    | none => exact (erase_of_missing hentry).symm
    | some entry =>
      obtain ⟨data, rfl⟩ := hfresh entry hentry
      have hok := removeFile_eq_ok_iff.mpr ⟨own, _, hown, hentry, nofun, rfl⟩
      rw [hok] at hremove
      cases hremove

/-! ## Settling -/

private theorem settle_ok (h : s.settle name t = (.ok path, t')) : path = s.pathOf name ∧
    ∃ bin, t.fs.DirAt s.binDir bin ∧ t' = (s.sweep name (t.fs.names bin) t).2 := by
  rw [settle, cleanUp] at h
  cases hread : t.fs.readDir s.binDir with
  | error e =>
    simp only [hread] at h
    cases h
  | ok names =>
    obtain ⟨bin, hbin, rfl⟩ := readDir_eq_ok_iff.mp hread
    simp only [hread] at h
    rw [sweep_eq_ok] at h
    cases h
    exact ⟨rfl, bin, hbin, rfl⟩

private theorem settle_error (h : s.settle name t = (.error e, t')) :
    t' = t ∧ ∀ names, t.fs.readDir s.binDir ≠ .ok names := by
  rw [settle, cleanUp] at h
  cases hread : t.fs.readDir s.binDir with
  | error e =>
    simp only [hread] at h
    cases h
    exact ⟨rfl, nofun⟩
  | ok names =>
    simp only [hread] at h
    rw [sweep_eq_ok] at h
    cases h

/-! ## Installing -/

theorem missing_of_persist_error {err : IoError} (hbegun : s.Begun bin own file fs₁ fs₂)
    (hholds : t.fs.Holds own bytes) (hbin : t.fs.DirAt s.binDir bin)
    (h : s.persist file name t.fs = .error err)
    (hinstalled : t.fs.isFile (s.pathOf name) = true) : t.fs.entry? own = none := by
  by_contra hsome
  obtain ⟨entry, hentry⟩ := Option.ne_none_iff_exists'.mp hsome
  obtain rfl := hholds entry hentry
  obtain ⟨loc, hloc, hdir, -⟩ := removeFile_of_isFile hinstalled
  have hok := moveFile_eq_ok_iff.mpr
    ⟨own, _, loc, hbegun.resolve_file hbin, hentry, nofun, hloc, hdir, rfl⟩
  rw [persist, hok] at h
  cases h

section Install

variable (hbegun : s.Begun bin own file fs₁ fs₂) (hwork : t.fs.workDir = fs₂.workDir)
variable (hlater : OnlyFilesAt new fs₂ t.fs) (hholds : t.fs.Holds own bytes)

include hbegun hwork hlater

private theorem dirAt_of_later {loc : Location} (h : t.fs.DirAt s.binDir loc) : loc = bin :=
  (h.of_later hwork hlater).unique hbegun.dirAt

private theorem discard_of_readDir (hfresh : t.fs.FreshAt own)
    (hlist : ∃ names, (discard file t).fs.readDir s.binDir = .ok names) :
    t.fs.DirAt s.binDir bin ∧ (discard file t).fs = t.fs.erase own := by
  obtain ⟨names, hread⟩ := hlist
  obtain ⟨loc, hloc, -⟩ := readDir_eq_ok_iff.mp hread
  obtain ⟨hwork', hshrunk⟩ := discard_shrunk file t
  have hdir := hloc.of_later hwork' hshrunk
  obtain rfl := dirAt_of_later hbegun hwork hlater hdir
  exact ⟨hdir, hbegun.discard hdir hfresh⟩

include hholds

private theorem persist_ok {fs : FileSystem} (hname : Path.IsPlain name)
    (h : s.persist file name t.fs = .ok fs) (hlist : ∃ names, fs.readDir s.binDir = .ok names) :
    fs.DirAt s.binDir bin ∧ t.fs.entry? own = some (.file ⟨bytes, 0⟩) ∧
      t.fs.resolve false (s.pathOf name) = .ok (bin ++ [name]) ∧
      t.fs.entry? (bin ++ [name]) ≠ some .dir ∧
      fs = (t.fs.erase own).put (bin ++ [name]) (.file ⟨bytes, 0⟩) := by
  obtain ⟨loc, entry, loc', hloc, hentry, -, hloc', hdir', rfl⟩ := moveFile_eq_ok_iff.mp h
  obtain ⟨f, rfl⟩ : ∃ f, entry = .file f := by
    rcases resolve_of_later hwork hlater hloc hentry with ⟨-, hfile⟩ | ⟨hold, hentry'⟩
    · exact hfile
    · rw [hbegun.resolve_file hbegun.dirAt] at hold
      obtain rfl := Except.ok.inj hold
      exact ⟨_, hholds entry hentry⟩
  have hroot : loc' ≠ [] := by
    rintro rfl
    exact hdir' rfl
  have hmoved : OnlyFilesAt (fun _ => True) t.fs ((t.fs.erase loc).put loc' (.file f)) :=
    (OnlyFilesAt.erase _ _ _).trans (OnlyFilesAt.put hroot trivial f)
  obtain ⟨names, hread⟩ := hlist
  obtain ⟨bin', hbin', -⟩ := readDir_eq_ok_iff.mp hread
  have hwork' : ((t.fs.erase loc).put loc' (.file f)).workDir = t.fs.workDir := rfl
  have hbin := hbin'.of_later hwork' hmoved
  obtain rfl := dirAt_of_later hbegun hwork hlater hbin
  rw [hbegun.resolve_file hbin] at hloc
  obtain rfl := Except.ok.inj hloc
  obtain rfl := ((resolve_pathOf hname hbin).mp hloc').2.2
  cases hholds _ hentry
  exact ⟨hbin', hentry, hloc', hdir', rfl⟩

private theorem install_error (h : s.install file name t = (.error e, t'))
    (hlist : ∃ names, t'.fs.readDir s.binDir = .ok names) : t'.fs = t.fs.erase own := by
  obtain ⟨names, hread⟩ := hlist
  rw [install] at h
  cases hpersist : s.persist file name t.fs with
  | ok fs =>
    simp only [hpersist] at h
    obtain ⟨rfl, hnot⟩ := settle_error h
    exact absurd hread (hnot names)
  | error err =>
    simp only [hpersist] at h
    split at h
    · obtain ⟨rfl, hnot⟩ := settle_error h
      exact absurd hread (hnot names)
    · cases h
      exact (discard_of_readDir hbegun hwork hlater hholds.freshAt ⟨names, hread⟩).2

private theorem install_ok (hname : Path.IsPlain name)
    (h : s.install file name t = (.ok path, t')) :
    path = s.pathOf name ∧ ∃ mid : Transfer, mid.fs.DirAt s.binDir bin ∧
      t' = (s.sweep name (mid.fs.names bin) mid).2 ∧
      (t.fs.entry? own = none ∧ mid.fs = t.fs.erase own ∨
        t.fs.entry? own = some (.file ⟨bytes, 0⟩) ∧
          t.fs.resolve false (s.pathOf name) = .ok (bin ++ [name]) ∧
          t.fs.entry? (bin ++ [name]) ≠ some .dir ∧
          mid.fs = (t.fs.erase own).put (bin ++ [name]) (.file ⟨bytes, 0⟩)) := by
  rw [install] at h
  cases hpersist : s.persist file name t.fs with
  | ok fs =>
    simp only [hpersist] at h
    obtain ⟨hpath, bin', hbin', ht'⟩ := settle_ok h
    obtain ⟨hbin, hown⟩ := persist_ok hbegun hwork hlater hholds hname hpersist
      ⟨_, readDir_eq_ok_iff.mpr ⟨bin', hbin', rfl⟩⟩
    obtain rfl := hbin'.unique hbin
    exact ⟨hpath, t.advance fs, hbin, ht', Or.inr hown⟩
  | error err =>
    simp only [hpersist] at h
    split at h
    · next hinstalled =>
      obtain ⟨hpath, bin', hbin', ht'⟩ := settle_ok h
      obtain ⟨hbin, htree⟩ := discard_of_readDir hbegun hwork hlater hholds.freshAt
        ⟨_, readDir_eq_ok_iff.mpr ⟨bin', hbin', rfl⟩⟩
      obtain ⟨hwork', hshrunk⟩ := discard_shrunk file t
      obtain rfl := (hbin'.of_later hwork' hshrunk).unique hbin
      refine ⟨hpath, discard file t, hbin', ht', Or.inl ⟨?_, htree⟩⟩
      exact missing_of_persist_error hbegun hholds hbin hpersist hinstalled
    · cases h

end Install

/-! ## From the stream to the binary -/

/-- How receiving and installing a stream may go. -/
theorem receiveAndInstall_cases (s : Store) (name : String) (chunkSize : Nat) (source : Source)
    (file : Path) (own : Location) (t : Transfer) :
    (∃ e, s.receiveAndInstall name chunkSize source file own t =
        (.error e, discard file (download own chunkSize source t).2)) ∨
      (download own chunkSize source t).1 = .complete ∧
        s.receiveAndInstall name chunkSize source file own t =
          s.install file (bytesOf name) (download own chunkSize source t).2 := by
  rw [receiveAndInstall]
  generalize download own chunkSize source t = read
  obtain ⟨_ | _ | reason, t''⟩ := read
  · by_cases hempty : t''.received = 0
    · exact Or.inl ⟨_, if_pos hempty⟩
    · exact Or.inr ⟨rfl, if_neg hempty⟩
  · exact Or.inl ⟨_, rfl⟩
  · exact Or.inl ⟨_, rfl⟩

section Run

variable {name : String} {source : Source} {chunkSize : Nat}
variable (hbegun : s.Begun bin own file fs₁ fs₂) (ht : t.fs = fs₂) (hnew : ¬new own)
variable (hacts : HarmlessActs own new (source.acts t.cancelled fs₂))

include hbegun ht hnew hacts

theorem Begun.received (chunkSize : Nat) :
    Received own new source [] fs₂ (source.acts t.cancelled fs₂)
      (download own chunkSize source t).1 (download own chunkSize source t).2.fs := by
  have hholds : t.fs.Holds own [] := by
    intro entry hentry
    rw [ht, hbegun.entry?_own] at hentry
    exact (Option.some.inj hentry).symm
  have hemptied : t.fs.emptied own = fs₂ := by rw [ht, hbegun.emptied]
  have hreceived := download_received chunkSize source hnew hholds
    (by rwa [hemptied])
  rwa [hemptied, ht] at hreceived

/-- A replacement that fails leaves what the others alone leave, without the partial file. -/
theorem receiveAndInstall_error
    (h : s.receiveAndInstall name chunkSize source file own t = (.error e, t'))
    (hlist : ∃ names, t'.fs.readDir s.binDir = .ok names) :
    t'.fs = (outcome (source.acts t.cancelled fs₂) fs₂).erase own := by
  have hreceived := Begun.received hbegun ht hnew hacts chunkSize
  obtain ⟨arrived, hholds, -⟩ := hreceived.holds
  have hleft : t'.fs = (download own chunkSize source t).2.fs.erase own := by
    rcases receiveAndInstall_cases s name chunkSize source file own t with
      ⟨e', hrun⟩ | ⟨-, hrun⟩
    · rw [hrun] at h
      cases h
      exact (discard_of_readDir hbegun hreceived.workDir hreceived.later hholds.freshAt hlist).2
    · rw [hrun] at h
      exact install_error hbegun hreceived.workDir hreceived.later hholds h hlist
  rw [hleft, ← erase_emptied, hreceived.emptied, hbegun.emptied]

/-- A replacement that succeeds sweeps the directory after the partial file, unless the others have
removed it, has become the binary with all that the stream yields. -/
theorem receiveAndInstall_ok (hname : Path.IsPlain (bytesOf name))
    (h : s.receiveAndInstall name chunkSize source file own t = (.ok path, t')) :
    path = s.pathOf (bytesOf name) ∧ ∃ mid : Transfer, mid.fs.DirAt s.binDir bin ∧
      t' = (s.sweep (bytesOf name) (mid.fs.names bin) mid).2 ∧
      let left := outcome (source.acts t.cancelled fs₂) fs₂
      OnlyFilesAt (fun loc => loc = own ∨ new loc) fs₂ left ∧
        (left.entry? own = none ∧ mid.fs = left.erase own ∨
          left.entry? own ≠ none ∧ left.resolve false (s.pathOf (bytesOf name)) =
            .ok (bin ++ [bytesOf name]) ∧ left.entry? (bin ++ [bytesOf name]) ≠ some .dir ∧
            ∃ bytes, source.contents = .ok bytes ∧
              mid.fs = (left.erase own).put (bin ++ [bytesOf name]) (.file ⟨bytes, 0⟩)) := by
  have hreceived := Begun.received hbegun ht hnew hacts chunkSize
  obtain ⟨arrived, hholds, hcontents⟩ := hreceived.holds
  rw [List.nil_append] at hholds
  rcases receiveAndInstall_cases s name chunkSize source file own t with
    ⟨e', hrun⟩ | ⟨hcomplete, hrun⟩
  · rw [hrun] at h
    cases h
  rw [hrun] at h
  obtain ⟨hpath, mid, hbin, hswept, hmid⟩ :=
    install_ok hbegun hreceived.workDir hreceived.later hholds hname h
  have hemptied := hreceived.emptied
  rw [hbegun.emptied] at hemptied
  refine ⟨hpath, mid, hbin, hswept, ?_⟩
  rw [← hemptied]
  simp only [erase_emptied, resolve_emptied hholds.freshAt]
  refine ⟨hreceived.later.emptied hholds.freshAt (Or.inl rfl), ?_⟩
  rcases hmid with ⟨hnone, htree⟩ | ⟨hsome, hloc, hdir, htree⟩
  · exact Or.inl ⟨(hholds.freshAt.entry?_eq_none own).mpr hnone, htree⟩
  · refine Or.inr ⟨fun hnone => ?_, hloc, ?_, arrived, hcontents hcomplete, htree⟩
    · rw [(hholds.freshAt.entry?_eq_none own).mp hnone] at hsome
      cases hsome
    · rwa [Ne, hholds.freshAt.entry?_eq_dir]

end Run

end EngineClient.Store
