import Mathlib
import EngineClient.Proofs.Store.Indifference

/-!
# Processes that share a directory

What other processes do to the directory of the binary while a stream is received: they install
binaries, or they remove partial files. None of it depends on what the own partial file holds, and
nothing but files comes of it, none of them in the place of the own one.
-/

namespace EngineClient

open FileSystem

/-- A place right in a directory, under a plain name. -/
def Within (bin loc : Location) : Prop := ∃ name, Path.IsPlain name ∧ loc = bin ++ [name]

/-- A place right in a directory, other than that of the own file. -/
def Beside (bin own loc : Location) : Prop := loc ≠ own ∧ Within bin loc

namespace Store

variable {s : Store} {bin own place : Location} {file : Path} {fs fs₁ fs₂ : FileSystem}
variable {t : Transfer} {name : String} {data : Bytes} {keep : Name} {chunkSize : Nat}

/-! ## Installations by others -/

theorem Begun.alone (h : s.Begun bin own file fs₁ fs₂) (ht : t.fs = fs₂) (chunkSize : Nat)
    {source : Source} (hsource : source.IsUndisturbed) :
    let fs := (download own chunkSize source t).2.fs
    fs.emptied own = fs₂ ∧ fs.workDir = fs₂.workDir ∧ fs.DirAt s.binDir bin ∧ fs.FreshAt own := by
  have hacts : source.acts t.cancelled fs₂ = [] := hsource.acts_eq_nil _ _
  have hharmless : HarmlessActs own (fun _ => False) (source.acts t.cancelled fs₂) := by
    rw [hacts]
    exact fun met hmet => absurd hmet List.not_mem_nil
  have hreceived := h.received ht id hharmless chunkSize
  rw [hacts] at hreceived
  obtain ⟨arrived, hholds, -⟩ := hreceived.holds
  have hemptied := hreceived.emptied
  rw [h.emptied] at hemptied
  refine ⟨hemptied, hreceived.workDir, ?_, hholds.freshAt⟩
  rw [← dirAt_emptied hholds.freshAt, hemptied]
  exact h.dirAt

theorem isUndisturbed_data (data : Bytes) : Source.IsUndisturbed [.data data] := by
  intro act hact
  cases List.mem_singleton.mp hact

private theorem settle_shrunk (s : Store) (keep : Name) (t : Transfer) :
    (s.settle keep t).2.fs.workDir = t.fs.workDir ∧ Shrunk t.fs (s.settle keep t).2.fs := by
  rw [settle, cleanUp]
  cases t.fs.readDir s.binDir with
  | error e => exact ⟨rfl, OnlyFilesAt.refl _ _⟩
  | ok names =>
    obtain ⟨-, hwork, hshrunk⟩ := sweep_spec s keep names t
    simp only
    generalize s.sweep keep names t = swept at hwork hshrunk ⊢
    obtain ⟨_ | _, t'⟩ := swept
    · exact ⟨hwork, hshrunk⟩
    · exact ⟨hwork, hshrunk⟩

private theorem install_later (hbegun : s.Begun bin own file fs₁ fs₂) (hname : Path.IsPlain keep)
    (hbin : t.fs.DirAt s.binDir bin) (hfresh : t.fs.FreshAt own) :
    (s.install file keep t).2.fs.workDir = t.fs.workDir ∧
      OnlyFilesAt (· = bin ++ [keep]) (t.fs.erase own) (s.install file keep t).2.fs := by
  rw [install]
  cases hpersist : s.persist file keep t.fs with
  | ok fs =>
    obtain ⟨loc, entry, loc', hloc, hentry, -, hloc', -, rfl⟩ := moveFile_eq_ok_iff.mp hpersist
    rw [hbegun.resolve_file hbin] at hloc
    obtain rfl := Except.ok.inj hloc
    obtain rfl := ((resolve_pathOf hname hbin).mp hloc').2.2
    obtain ⟨data, rfl⟩ := hfresh entry hentry
    obtain ⟨hwork, hshrunk⟩ := settle_shrunk s keep
      (t.advance ((t.fs.erase own).put (bin ++ [keep]) (.file ⟨data, 0⟩)))
    have hroot : bin ++ [keep] ≠ [] := by simp
    have hput : OnlyFilesAt (fun loc => loc = bin ++ [keep]) (t.fs.erase own)
        ((t.fs.erase own).put (bin ++ [keep]) (.file ⟨data, 0⟩)) := by
      apply OnlyFilesAt.put hroot
      rfl
    exact ⟨hwork, hput.trans (hshrunk.mono fun _ => False.elim)⟩
  | error err =>
    have hdiscard := hbegun.discard hbin hfresh
    obtain ⟨hwork, -⟩ := discard_shrunk file t
    simp only
    split
    · obtain ⟨hwork', hshrunk⟩ := settle_shrunk s keep (discard file t)
      rw [hdiscard] at hshrunk
      exact ⟨hwork'.trans hwork, hshrunk.mono fun _ => False.elim⟩
    · simp only [hdiscard]
      exact ⟨rfl, OnlyFilesAt.refl _ _⟩

private theorem receiveAndInstall_later (hbegun : s.Begun bin own file fs₁ fs₂) (ht : t.fs = fs₂)
    (hname : Path.IsPlain (bytesOf name)) (chunkSize : Nat) (data : Bytes) :
    let fs := (s.receiveAndInstall name chunkSize [.data data] file own t).2.fs
    fs.workDir = fs₁.workDir ∧ OnlyFilesAt (· = bin ++ [bytesOf name]) fs₁ fs := by
  obtain ⟨hemptied, hwork, hbin, hfresh⟩ := hbegun.alone ht chunkSize (isUndisturbed_data data)
  have hbefore : (download own chunkSize [.data data] t).2.fs.erase own = fs₁ := by
    rw [← erase_emptied, hemptied, hbegun.erase]
  have hwork₁ : fs₂.workDir = fs₁.workDir := by rw [hbegun.tree]; rfl
  rcases receiveAndInstall_cases s name chunkSize [.data data] file own t with
    ⟨e, hrun⟩ | ⟨-, hrun⟩
  · simp only [hrun, hbegun.discard hbin hfresh, hbefore]
    exact ⟨trivial, OnlyFilesAt.refl _ _⟩
  · obtain ⟨hwork', hlater⟩ := install_later hbegun hname hbin hfresh
    rw [hbefore] at hlater
    simp only [hrun]
    exact ⟨hwork'.trans (hwork.trans hwork₁), hlater⟩

private theorem replace_later (hbin : t.fs.DirAt s.binDir bin) (name : String) (chunkSize : Nat)
    (data : Bytes) : let fs := (s.replace name chunkSize [.data data] t).2.fs
    fs.workDir = t.fs.workDir ∧
      OnlyFilesAt (fun loc => Path.IsPlain (bytesOf name) ∧ loc = bin ++ [bytesOf name])
        t.fs fs := by
  have hensure : s.ensureDirectory t.restart.fs = (.ok (), t.fs) := ensureDirectory_of_dirAt hbin
  rw [replace, hensure]
  by_cases haccepts : accepts (bytesOf name) = true
  · simp only [haccepts, if_true]
    have hcreated : (t.restart.advance t.fs).fs = t.fs := rfl
    rw [hcreated]
    cases hcreate : s.createPartial t.fs with
    | error e => exact ⟨rfl, OnlyFilesAt.refl _ _⟩
    | ok r =>
      obtain ⟨file, own, fs⟩ := r
      have hname := accepts_iff.mp haccepts
      obtain ⟨hwork, hlater⟩ := receiveAndInstall_later (createPartial_begun hbin hcreate)
        (t := (t.restart.advance t.fs).advance fs) rfl hname chunkSize data
      exact ⟨hwork, hlater.mono fun loc hloc => ⟨hname, hloc⟩⟩
  · simp only [haccepts]
    exact ⟨rfl, OnlyFilesAt.refl _ _⟩

private theorem receiveAndInstall_emptied (hbegun : s.Begun bin own file fs₁ fs₂)
    (ht : t.fs = fs₂) (hname : Path.IsPlain (bytesOf name)) (hfresh : fs₂.FreshAt place)
    (hown : own ≠ place) (hplace : bin ++ [bytesOf name] ≠ place) :
    s.receiveAndInstall name chunkSize [.data data] file own (t.emptied place) =
      ((s.receiveAndInstall name chunkSize [.data data] file own t).1,
        (s.receiveAndInstall name chunkSize [.data data] file own t).2.emptied place) := by
  obtain ⟨hemptied, -, hbin, -⟩ := hbegun.alone ht chunkSize (isUndisturbed_data data)
  rw [receiveAndInstall, receiveAndInstall, download_emptied hown]
  generalize download own chunkSize [.data data] t = read at hemptied hbin ⊢
  obtain ⟨ending, t'⟩ := read
  have hfresh' : t'.fs.FreshAt place := by
    intro entry hentry
    have hother : FileSystem.entry? (t'.fs.emptied own) place = t'.fs.entry? place := by
      apply entry?_emptied_of_ne _ hown.symm
      rintro rfl
      obtain ⟨name, -, hroot, -⟩ := hbegun.name
      simp at hroot
    rw [← hother] at hentry
    exact hfresh entry (hemptied ▸ hentry)
  have hinstall : s.install file (bytesOf name) (t'.emptied place) =
      ((s.install file (bytesOf name) t').1,
        (s.install file (bytesOf name) t').2.emptied place) := by
    apply install_emptied hfresh'
    · intro loc hloc
      rw [hbegun.resolve_file hbin] at hloc
      exact Except.ok.inj hloc ▸ hown
    · intro loc hloc
      exact ((resolve_pathOf hname hbin).mp hloc).2.2 ▸ hplace
  have hreceived : (t'.emptied place).received = t'.received := rfl
  rcases ending with _ | _ | reason
  · simp only [hreceived, discard_emptied hfresh', hinstall]
    split
    · rfl
    · rfl
  · simp only [discard_emptied hfresh']
  · simp only [hreceived, discard_emptied hfresh']

/-- An installation of other data goes its way whatever the fresh file holds. -/
theorem replace_emptied (chunkSize : Nat) (data : Bytes) (hbin : t.fs.DirAt s.binDir bin)
    (hfresh : t.fs.FreshAt place) (hsome : t.fs.entry? place ≠ none)
    (hplace : bin ++ [bytesOf name] ≠ place) :
    s.replace name chunkSize [.data data] (t.emptied place) =
      ((s.replace name chunkSize [.data data] t).1,
        (s.replace name chunkSize [.data data] t).2.emptied place) := by
  have hensure : s.ensureDirectory t.restart.fs = (.ok (), t.fs) := ensureDirectory_of_dirAt hbin
  have hensure' : s.ensureDirectory (t.emptied place).restart.fs = (.ok (), t.fs.emptied place) :=
    ensureDirectory_of_dirAt ((dirAt_emptied hfresh).mpr hbin)
  rw [replace, replace, hensure, hensure']
  by_cases haccepts : accepts (bytesOf name) = true
  · have hadvance : (t.emptied place).restart.advance (t.fs.emptied place) =
        (t.restart.advance t.fs).emptied place := t.restart.emptied_advance t.fs place
    have hfs : ((t.restart.advance t.fs).emptied place).fs = t.fs.emptied place := rfl
    have hfs' : (t.restart.advance t.fs).fs = t.fs := rfl
    simp only [haccepts, if_true, hadvance, hfs, hfs', createPartial_emptied hfresh hsome]
    cases hcreate : s.createPartial t.fs with
    | error e => rfl
    | ok r =>
      obtain ⟨file, own, fs⟩ := r
      have hbegun := createPartial_begun hbin hcreate
      have hown : own ≠ place := by
        rintro rfl
        exact hsome hbegun.missing
      have hfresh' : fs.FreshAt place := by
        intro entry hentry
        rw [hbegun.tree, entry?_put (ne_root_of_missing hbegun.missing), if_neg hown.symm] at hentry
        exact hfresh entry hentry
      simp only [Except.map, Transfer.emptied_advance]
      exact receiveAndInstall_emptied hbegun rfl (accepts_iff.mp haccepts) hfresh' hown hplace
  · simp only [haccepts]
    rfl

theorem rival_fst (s : Store) (name : String) (data : Bytes) (fs : FileSystem) :
    (s.rival name data fs).1 = (s.replace name rivalChunk [.data data] { fs }).2.fs := by
  rw [rival]
  rcases s.replace name rivalChunk [.data data] { fs } with ⟨_ | _, t⟩ <;> rfl

theorem rival_brings (name : String) (data : Bytes) (hbin : fs.DirAt s.binDir bin) :
    (s.rival name data fs).1.workDir = fs.workDir ∧
      OnlyFilesAt (fun loc => Path.IsPlain (bytesOf name) ∧ loc = bin ++ [bytesOf name]) fs
        (s.rival name data fs).1 := by
  rw [rival_fst]
  exact replace_later (t := { fs }) hbin name rivalChunk data

private theorem rival_later (data : Bytes) (hbin : fs.DirAt s.binDir bin)
    (hplace : bin ++ [bytesOf name] ≠ place) :
    (s.rival name data fs).1.workDir = fs.workDir ∧
      OnlyFilesAt (Beside bin place) fs (s.rival name data fs).1 := by
  obtain ⟨hwork, hlater⟩ := rival_brings name data hbin
  refine ⟨hwork, hlater.mono ?_⟩
  rintro loc ⟨hname, rfl⟩
  exact ⟨hplace, _, hname, rfl⟩

private theorem rival_emptied (hbin : fs.DirAt s.binDir bin) (hfresh : fs.FreshAt place)
    (hplace : bin ++ [bytesOf name] ≠ place) : s.rival name data (fs.emptied place) =
      ((s.rival name data fs).1.emptied place, (s.rival name data fs).2) := by
  by_cases hnone : fs.entry? place = none
  · have hlater := (rival_later data hbin hplace).2
    have hgone : FileSystem.entry? (s.rival name data fs).1 place = none := by
      by_contra hsome
      obtain ⟨entry, hentry⟩ := Option.ne_none_iff_exists'.mp hsome
      rcases hlater place entry hentry with hold | ⟨hnew, -⟩
      · rw [hnone] at hold
        cases hold
      · exact hnew.1 rfl
    rw [emptied_of_missing hnone, emptied_of_missing hgone]
  · have hreplace := replace_emptied (t := { fs }) rivalChunk data hbin hfresh hnone hplace
    have hempty : ({ fs := fs.emptied place } : Transfer) = ({ fs } : Transfer).emptied place := rfl
    rw [rival, rival, hempty, hreplace]
    rcases s.replace name rivalChunk [.data data] { fs } with ⟨_ | _, t⟩ <;> rfl

/-! ## Removal of partial files by others -/

private def clearNames (s : Store) (names : List Name) (fs : FileSystem) : FileSystem :=
  names.foldl (fun fs name => (fs.removeAll (s.pathOf name)).toOption.getD fs) fs

private theorem removeAll_shrunk (fs : FileSystem) (p : Path) :
    ((fs.removeAll p).toOption.getD fs).workDir = fs.workDir ∧
      Shrunk fs ((fs.removeAll p).toOption.getD fs) := by
  simp only [removeAll, bind, Except.bind]
  cases fs.resolve false p with
  | error e => exact ⟨rfl, OnlyFilesAt.refl _ _⟩
  | ok loc =>
    simp only
    cases fs.entry? loc with
    | none => exact ⟨rfl, OnlyFilesAt.refl _ _⟩
    | some entry => exact ⟨rfl, OnlyFilesAt.eraseTree _ fs loc⟩

private theorem clearNames_shrunk (s : Store) (names : List Name) (fs : FileSystem) :
    (clearNames s names fs).workDir = fs.workDir ∧ Shrunk fs (clearNames s names fs) := by
  induction names generalizing fs with
  | nil => exact ⟨rfl, OnlyFilesAt.refl _ _⟩
  | cons name names ih =>
    obtain ⟨hwork, hshrunk⟩ := removeAll_shrunk fs (s.pathOf name)
    obtain ⟨hwork', hshrunk'⟩ := ih ((fs.removeAll (s.pathOf name)).toOption.getD fs)
    exact ⟨hwork'.trans hwork, hshrunk.trans hshrunk'⟩

private theorem clearNames_emptied (names : List Name) (hfresh : fs.FreshAt place) :
    clearNames s names (fs.emptied place) = (clearNames s names fs).emptied place := by
  induction names generalizing fs with
  | nil => rfl
  | cons name names ih =>
    have hfirst : ((fs.emptied place).removeAll (s.pathOf name)).toOption.getD (fs.emptied place) =
        ((fs.removeAll (s.pathOf name)).toOption.getD fs).emptied place := by
      rw [removeAll_emptied hfresh]
      cases fs.removeAll (s.pathOf name) <;> rfl
    rw [clearNames, List.foldl_cons, hfirst]
    exact ih fun entry hentry =>
      hfresh entry ((removeAll_shrunk fs (s.pathOf name)).2.entry_before hentry)

private theorem clearPartials_shrunk (s : Store) (fs : FileSystem) :
    (s.clearPartials fs).workDir = fs.workDir ∧ Shrunk fs (s.clearPartials fs) :=
  clearNames_shrunk s _ fs

private theorem clearPartials_emptied (hfresh : fs.FreshAt place) :
    s.clearPartials (fs.emptied place) = (s.clearPartials fs).emptied place := by
  rw [clearPartials, readDir_emptied hfresh]
  exact clearNames_emptied _ hfresh

/-! ## What others may do -/

end Store

/-- What another process may do while a stream is received into the own file: a store of the same
directory installs a binary, under any name but the one that was drawn for the own file, or partial
files are removed. -/
inductive Shares (own : Location) (fs : FileSystem) : Act → Prop
  | install (s : Store) (name : String) (data : Bytes) (hbin : fs.DirAt s.binDir own.dropLast)
      (hname : own.dropLast ++ [bytesOf name] ≠ own) : Shares own fs (s.rival name data)
  | clear (s : Store) : Shares own fs fun fs => (s.clearPartials fs, none)

/-- Whatever others do, the own file keeps its content or is gone, and what it holds does not
matter. -/
theorem Shares.harmless {own : Location} {fs : FileSystem} {act : Act} (hfresh : fs.FreshAt own)
    (h : Shares own (fs.emptied own) act) : Harmless own (Beside own.dropLast own) fs act := by
  cases h with
  | install s name data hbin hname =>
    have hbin := (dirAt_emptied hfresh).mp hbin
    obtain ⟨hwork, hlater⟩ := Store.rival_later data hbin hname
    exact ⟨Store.rival_emptied hbin hfresh hname, hwork, hlater⟩
  | clear s =>
    obtain ⟨hwork, hshrunk⟩ := s.clearPartials_shrunk fs
    exact ⟨Prod.ext (Store.clearPartials_emptied hfresh) rfl, hwork,
      hshrunk.mono fun _ => False.elim⟩

end EngineClient
