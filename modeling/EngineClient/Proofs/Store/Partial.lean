import Mathlib
import EngineClient.Proofs.FileSystem.Emptied
import EngineClient.Proofs.FileSystem.Directories
import EngineClient.Proofs.Text.Utf8

/-!
# The directory and the partial file

Where an installation begins: the directory of the binary is there, and a partial file is created
in it under a plain name that nothing had. Neither depends on the content of another file.
-/

namespace EngineClient.Store

open FileSystem

variable {s : Store} {fs fs' : FileSystem} {file : Path} {own bin place : Location}

/-! ## The directory -/

/-- Creating the directory of the binary adds only directories on the way to it. -/
theorem ensureDirectory_spec (s : Store) (fs : FileSystem) :
    MadeWay s.binDir fs (s.ensureDirectory fs).2 ∧
      ((s.ensureDirectory fs).1 = .ok () → ∃ bin, (s.ensureDirectory fs).2.DirAt s.binDir bin) :=
  makeDirs_spec s.endsOpen_binDir s.parts_binDir fs

theorem ensureDirectory_of_dirAt (hbin : fs.DirAt s.binDir bin) :
    s.ensureDirectory fs = (.ok (), fs) := by
  have htrim : (if s.binDir.trimEnd.isEmpty then s.binDir else s.binDir.trimEnd) = s.binDir := by
    rw [Path.trimEnd_eq_self s.endsOpen_binDir]
    exact ite_self _
  obtain ⟨named, hnamed, hkind⟩ := named_of_resolve hbin.1 hbin.2
  have hentry : ∃ entry, fs.entry? named = some entry := by
    rcases hkind with rfl | ⟨target, hlink⟩
    · exact ⟨_, hbin.2⟩
    · exact ⟨_, hlink⟩
  obtain ⟨entry, hentry⟩ := hentry
  have hmake : fs.makeDir s.binDir = .error .alreadyExists := by
    simp only [makeDir, htrim, hnamed, bind, Except.bind, hentry]
    rfl
  have hdir : fs.isDir s.binDir = true := isDir_iff.mpr ⟨bin, hbin⟩
  rw [ensureDirectory, makeDirs]
  cases hrev : s.binDir.parts.reverse with
  | nil => exact absurd (List.reverse_eq_nil_iff.mp hrev) s.parts_binDir
  | cons last above => simp [makeDirAfter, hmake, hdir]

/-! ## The partial file -/

private theorem slash_not_mem_sixDigits (n : Nat) : Path.slash ∉ sixDigits n := by
  have hdigit : ∀ k < 62,
      ("0123456789abcdefghijklmnopqrstuvwxyzABCDEFGHIJKLMNOPQRSTUVWXYZ".toList.toArray[k]?.getD
        '0').toNat.toUInt8 ≠ Path.slash := by decide +kernel
  intro hmem
  simp only [sixDigits, List.mem_map] at hmem
  obtain ⟨place, -, hplace⟩ := hmem
  exact hdigit _ (Nat.mod_lt _ (by decide)) hplace

private theorem isPlain_partial (n : Nat) : Path.IsPlain (partialMark ++ sixDigits n) := by
  have hmark : partialMark = [46, 100, 111, 119, 110, 108, 111, 97, 100, 45] := by decide
  refine ⟨by simp [hmark], ?_, by simp [hmark, Path.self], by simp [hmark, Path.up]⟩
  rw [List.mem_append, not_or]
  exact ⟨by rw [hmark]; decide, slash_not_mem_sixDigits n⟩

private theorem createPartialFrom_spec {tries number : Nat}
    (h : s.createPartialFrom fs tries number = .ok (file, own, fs')) :
    ∃ n, file = s.pathOf (partialMark ++ sixDigits n) ∧ fs.createFile file = .ok (own, fs') := by
  induction tries generalizing number with
  | zero =>
    rw [createPartialFrom] at h
    cases hcreate : fs.createFile (s.pathOf (partialMark ++ sixDigits number)) with
    | error e =>
      simp only [hcreate] at h
      cases h
    | ok r =>
      simp only [hcreate] at h
      cases h
      exact ⟨number, rfl, hcreate⟩
  | succ tries ih =>
    rw [createPartialFrom] at h
    split at h
    · next r hcreate =>
      cases h
      exact ⟨number, rfl, hcreate⟩
    · exact ih h
    · cases h

/-- A partial file has been created in the directory of the binary: an empty file at a place where
nothing stood, under a plain name. -/
structure Begun (s : Store) (bin own : Location) (file : Path) (fs fs' : FileSystem) : Prop where
  dirAt : fs'.DirAt s.binDir bin
  missing : fs.entry? own = none
  tree : fs' = fs.put own (.file ⟨[], 0⟩)
  name : ∃ name, Path.IsPlain name ∧ own = bin ++ [name] ∧ file = s.pathOf name ∧
    file.IsSpelled ∧ name.length ≤ maxName

theorem createPartial_begun (hbin : fs.DirAt s.binDir bin)
    (h : s.createPartial fs = .ok (file, own, fs')) : s.Begun bin own file fs fs' := by
  obtain ⟨n, rfl, hcreate⟩ := createPartialFrom_spec h
  have hname := isPlain_partial n
  obtain ⟨hown, hnone, rfl⟩ := createFile_eq_ok_iff.mp hcreate
  obtain ⟨hspelled, hlength, hplace⟩ := (resolve_pathOf hname hbin).mp hown
  have hwork : (fs.put own (.file ⟨[], 0⟩)).workDir = fs.workDir := rfl
  have hkept : Kept fs (fs.put own (.file ⟨[], 0⟩)) := by
    intro loc entry hentry
    rw [entry?_put (ne_root_of_missing hnone), if_neg, hentry]
    rintro rfl
    rw [hnone] at hentry
    cases hentry
  exact ⟨hbin.of_kept hwork hkept, hnone, rfl, _, hname, hplace, rfl, hspelled, hlength⟩

private theorem isPartialName_drawn (n : Nat) :
    isPartialName (partialMark ++ sixDigits n) = true := by
  have hascii : ∀ k < 62,
      ("0123456789abcdefghijklmnopqrstuvwxyzABCDEFGHIJKLMNOPQRSTUVWXYZ".toList.toArray[k]?.getD
        '0').toNat < 128 := by decide +kernel
  obtain ⟨text, htext⟩ : ∃ text, sixDigits n = bytesOf text := by
    refine ⟨String.ofList ((List.range 6).reverse.map fun place =>
      "0123456789abcdefghijklmnopqrstuvwxyzABCDEFGHIJKLMNOPQRSTUVWXYZ".toList.toArray[
        n / Nat.pow 62 place % 62]?.getD '0'), ?_⟩
    rw [bytesOf, String.toList_ofList, Utf8.encode_ascii, List.map_map]
    · rfl
    · intro c hc
      obtain ⟨place, -, rfl⟩ := List.mem_map.mp hc
      exact hascii _ (Nat.mod_lt _ (by decide))
  have hname : partialMark ++ sixDigits n = bytesOf (".download-" ++ text) := by
    rw [bytesOf_append, htext, partialMark]
  rw [isPartialName, stringOf?_eq_some_iff.mpr hname, Option.isSome_some, Bool.true_and]
  exact List.isPrefixOf_iff_prefix.mpr (List.prefix_append _ _)

theorem createPartial_drawn (hbin : fs.DirAt s.binDir bin)
    (h : s.createPartial fs = .ok (file, own, fs')) :
    ∃ draw, isPartialName draw = true ∧ own = bin ++ [draw] := by
  obtain ⟨n, rfl, hcreate⟩ := createPartialFrom_spec h
  obtain ⟨hown, -⟩ := createFile_eq_ok_iff.mp hcreate
  exact ⟨_, isPartialName_drawn n, ((resolve_pathOf (isPlain_partial n) hbin).mp hown).2.2⟩

namespace Begun

theorem emptied (h : s.Begun bin own file fs fs') : fs'.emptied own = fs' := by
  rw [h.tree]
  exact modify_put fs own _ _

theorem entry?_own (h : s.Begun bin own file fs fs') : fs'.entry? own = some (.file ⟨[], 0⟩) := by
  rw [h.tree, entry?_put (ne_root_of_missing h.missing), if_pos rfl]

theorem erase (h : s.Begun bin own file fs fs') : fs'.erase own = fs := by
  rw [h.tree, put_erase, erase_of_missing h.missing]

theorem resolve_file (h : s.Begun bin own file fs fs') {tree : FileSystem}
    (hbin : tree.DirAt s.binDir bin) : tree.resolve false file = .ok own := by
  obtain ⟨name, hname, rfl, rfl, hspelled, hlength⟩ := h.name
  exact (resolve_pathOf hname hbin).mpr ⟨hspelled, hlength, rfl⟩

end Begun

private theorem createPartialFrom_emptied (hfresh : fs.FreshAt place)
    (hplace : fs.entry? place ≠ none) (tries number : Nat) :
    s.createPartialFrom (fs.emptied place) tries number =
      (s.createPartialFrom fs tries number).map fun r => (r.1, r.2.1, r.2.2.emptied place) := by
  induction tries generalizing number with
  | zero =>
    rw [createPartialFrom, createPartialFrom, createFile_emptied hfresh hplace]
    cases fs.createFile (s.pathOf (partialMark ++ sixDigits number)) <;> rfl
  | succ tries ih =>
    rw [createPartialFrom, createPartialFrom, createFile_emptied hfresh hplace]
    cases fs.createFile (s.pathOf (partialMark ++ sixDigits number)) with
    | ok r => rfl
    | error e =>
      by_cases htaken : e = .alreadyExists
      · subst htaken
        exact ih (number + 1)
      · cases e with
        | os code =>
          simp [Except.map]
        | nulInPath => rfl
        | other text => rfl

theorem createPartial_emptied (hfresh : fs.FreshAt place) (hplace : fs.entry? place ≠ none) :
    s.createPartial (fs.emptied place) =
      (s.createPartial fs).map fun r => (r.1, r.2.1, r.2.2.emptied place) := by
  have hlength : (fs.emptied place).entries.length = fs.entries.length := by
    simp only [emptied, FileSystem.modify, List.length_map]
  rw [createPartial, createPartial, hlength, createPartialFrom_emptied hfresh hplace]

end EngineClient.Store
