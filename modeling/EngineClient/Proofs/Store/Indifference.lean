import Mathlib
import EngineClient.Proofs.Store.Install

/-!
# Installations beside a fresh file

An installation does not look into files of others. If a fresh file beside it is emptied, the
installation goes the same way and makes the same tree, but for that file.
-/

namespace EngineClient

open FileSystem

variable {place own : Location} {t : Transfer} {fs : FileSystem}

/-- The same transfer in trees with nothing in the file at a place. -/
def Transfer.emptied (t : Transfer) (place : Location) : Transfer :=
  { t with
    fs := t.fs.emptied place
    journal := t.journal.map fun trees => trees.map (·.emptied place) }

theorem Transfer.emptied_advance (t : Transfer) (fs : FileSystem) (place : Location) :
    (t.emptied place).advance (fs.emptied place) = (t.advance fs).emptied place := by
  cases hjournal : t.journal <;> simp [Transfer.emptied, Transfer.advance, hjournal]

private theorem Transfer.emptied_write (t : Transfer) (h : own ≠ place) (bytes : Bytes) :
    (t.emptied place).write own bytes = (t.write own bytes).emptied place := by
  have hfs : (t.emptied place).fs.append own bytes = (t.fs.append own bytes).emptied place :=
    append_emptied t.fs h bytes
  simp only [Transfer.write, hfs, Transfer.emptied_advance]
  rfl

private theorem foldl_write_emptied (h : own ≠ place) (others : List Bytes) (t : Transfer) :
    others.foldl (fun t chunk => t.beginRead.write own chunk) (t.emptied place) =
      (others.foldl (fun t chunk => t.beginRead.write own chunk) t).emptied place := by
  induction others generalizing t with
  | nil => rfl
  | cons chunk others ih =>
    have hread : (t.emptied place).beginRead = t.beginRead.emptied place := rfl
    rw [List.foldl_cons, hread, Transfer.emptied_write _ h, ih, List.foldl_cons]

/-- Data is received into one file as if another were empty. -/
theorem download_emptied (h : own ≠ place) (chunkSize : Nat) (data : Bytes) (t : Transfer) :
    download own chunkSize [.data data] (t.emptied place) =
      ((download own chunkSize [.data data] t).1,
        (download own chunkSize [.data data] t).2.emptied place) := by
  have hcancelled : (t.emptied place).cancelled = t.cancelled := rfl
  have hread : (t.emptied place).beginRead = t.beginRead.emptied place := rfl
  rw [download, download, hcancelled, hread]
  by_cases hc : t.cancelled = true
  · rw [if_pos hc, if_pos hc]
  rw [if_neg hc, if_neg hc, receive, receive]
  cases chunks (chunkSize - 1) data with
  | nil => rfl
  | cons first others =>
    have hwritten : ∀ t : Transfer, ((t.write own first).emptied place).cancelled =
        (t.write own first).cancelled := fun _ => rfl
    simp only [Transfer.emptied_write _ h, foldl_write_emptied h, hwritten]
    split
    · rfl
    · rfl

namespace Store

variable {s : Store} {bin : Location} {file : Path} {keep name : Name}

theorem discard_emptied (hfresh : t.fs.FreshAt place) :
    discard file (t.emptied place) = (discard file t).emptied place := by
  rw [discard, discard]
  have hremove : (t.emptied place).fs.removeFile file = _ := removeFile_emptied hfresh file
  rw [hremove]
  cases t.fs.removeFile file with
  | error e => rfl
  | ok fs => exact t.emptied_advance fs place

private theorem isLeftover_emptied (hfresh : fs.FreshAt place) :
    s.isLeftover (fs.emptied place) keep name = s.isLeftover fs keep name := by
  have hage := file?_emptied hfresh (s.pathOf name)
  rw [isLeftover, isLeftover, isFile_emptied hfresh, isLivePartial, isLivePartial]
  cases hnew : (fs.emptied place).file? (s.pathOf name) with
  | none =>
    cases hold : fs.file? (s.pathOf name) with
    | none => rfl
    | some f =>
      rw [hnew, hold] at hage
      cases hage
  | some f =>
    cases hold : fs.file? (s.pathOf name) with
    | none =>
      rw [hnew, hold] at hage
      cases hage
    | some g =>
      rw [hnew, hold] at hage
      simp only [Option.some.inj hage]

private theorem sweep_emptied (names : List Name) (hfresh : t.fs.FreshAt place) :
    s.sweep keep names (t.emptied place) =
      ((s.sweep keep names t).1, (s.sweep keep names t).2.emptied place) := by
  induction names generalizing t with
  | nil => rfl
  | cons name rest ih =>
    have hsame : s.isLeftover (t.emptied place).fs keep name = s.isLeftover t.fs keep name :=
      isLeftover_emptied hfresh
    by_cases hleft : s.isLeftover t.fs keep name = true
    · obtain ⟨loc, hloc, -, hsweep⟩ := sweep_leftover rest hleft
      obtain ⟨loc', hloc', -, hsweep'⟩ := sweep_leftover rest (hsame.trans hleft)
      have hresolve : (t.emptied place).fs.resolve false (s.pathOf name) = _ :=
        resolve_emptied hfresh false (s.pathOf name)
      rw [hresolve, hloc] at hloc'
      obtain rfl := Except.ok.inj hloc'
      have herase : (t.emptied place).fs.erase loc = (t.fs.erase loc).emptied place :=
        emptied_erase t.fs loc place
      rw [hsweep, hsweep', herase, Transfer.emptied_advance]
      exact ih fun entry hentry => hfresh entry (of_entry?_erase hentry)
    · rw [sweep_other hleft, sweep_other (hsame ▸ hleft)]
      exact ih hfresh

private theorem settle_emptied (hfresh : t.fs.FreshAt place) :
    s.settle name (t.emptied place) =
      ((s.settle name t).1, (s.settle name t).2.emptied place) := by
  have hread : (t.emptied place).fs.readDir s.binDir = t.fs.readDir s.binDir :=
    readDir_emptied hfresh s.binDir
  rw [settle, settle, cleanUp, cleanUp, hread]
  cases t.fs.readDir s.binDir with
  | error e => rfl
  | ok names =>
    simp only [sweep_emptied names hfresh]
    rcases s.sweep name names t with ⟨_ | _, t'⟩ <;> rfl

theorem install_emptied (hfresh : t.fs.FreshAt place)
    (hfile : ∀ loc, t.fs.resolve false file = .ok loc → loc ≠ place)
    (hname : ∀ loc, t.fs.resolve false (s.pathOf name) = .ok loc → loc ≠ place) :
    s.install file name (t.emptied place) =
      ((s.install file name t).1, (s.install file name t).2.emptied place) := by
  have hpersist : s.persist file name (t.emptied place).fs =
      (s.persist file name t.fs).map (·.emptied place) :=
    moveFile_emptied hfresh hfile hname
  have hinstalled : (t.emptied place).fs.isFile (s.pathOf name) = t.fs.isFile (s.pathOf name) :=
    isFile_emptied hfresh _
  rw [install, install, hpersist]
  cases hmove : s.persist file name t.fs with
  | ok fs =>
    obtain ⟨loc, entry, loc', hloc, -, -, hloc', hdir, rfl⟩ := moveFile_eq_ok_iff.mp hmove
    have hroot : loc' ≠ [] := by
      rintro rfl
      exact hdir rfl
    simp only [Except.map, Transfer.emptied_advance]
    apply settle_emptied
    intro found hfound
    change FileSystem.entry? ((t.fs.erase loc).put loc' entry) place = _ at hfound
    rw [entry?_put hroot, if_neg (hname loc' hloc').symm] at hfound
    exact hfresh found (of_entry?_erase hfound)
  | error err =>
    simp only [Except.map, hinstalled, discard_emptied hfresh]
    split
    · apply settle_emptied
      intro found hfound
      exact hfresh found ((discard_shrunk file t).2.entry_before hfound)
    · rfl

end Store

end EngineClient
