import Mathlib
import EngineClient.Proofs.FileSystem.Emptied
import EngineClient.Proofs.FileSystem.Tree

/-!
# Cleaning up

The sweep never fails and only removes. If there is a way to the directory of the binary and all
names in it are plain, then it removes exactly the files that are left over, right in the directory,
whatever their order, and the directory stays where it was.
-/

namespace EngineClient.Store

open FileSystem

variable {s : Store} {fs fs' : FileSystem} {t : Transfer} {keep name : Name}
variable {rest names : List Name} {bin : Location}

/-- Whether a file under a name is a partial file that may still be written to. -/
def IsFresh (name : Name) (f : File) : Prop := isPartialName name = true ∧ f.age < staleAge

theorem isLeftover_iff : s.isLeftover fs keep name = true ↔
    ∃ f, fs.file? (s.pathOf name) = some f ∧ name ≠ keep ∧ ¬IsFresh name f := by
  simp only [isLeftover, isLivePartial, isFile, IsFresh]
  cases fs.file? (s.pathOf name) with
  | none => simp
  | some f => cases isPartialName name <;> simp

/-! ## Steps of the sweep -/

theorem sweep_leftover (rest : List Name) (h : s.isLeftover t.fs keep name = true) :
    ∃ loc, t.fs.resolve false (s.pathOf name) = .ok loc ∧ t.fs.entry? loc ≠ some .dir ∧
      s.sweep keep (name :: rest) t = s.sweep keep rest (t.advance (t.fs.erase loc)) := by
  obtain ⟨f, hfile, -⟩ := isLeftover_iff.mp h
  have hisFile : t.fs.isFile (s.pathOf name) = true := by rw [isFile, hfile]; rfl
  obtain ⟨loc, hloc, hdir, hremove⟩ := removeFile_of_isFile hisFile
  refine ⟨loc, hloc, hdir, ?_⟩
  rw [sweep, if_pos h, hremove]

theorem sweep_other (h : ¬s.isLeftover t.fs keep name = true) :
    s.sweep keep (name :: rest) t = s.sweep keep rest t := by
  rw [sweep, if_neg h]

/-- The sweep does not fail, brings nothing and removes no directory. -/
theorem sweep_spec (s : Store) (keep : Name) (names : List Name) (t : Transfer) :
    (s.sweep keep names t).1 = .ok () ∧
      (s.sweep keep names t).2.fs.workDir = t.fs.workDir ∧
      Shrunk t.fs (s.sweep keep names t).2.fs := by
  induction names generalizing t with
  | nil => exact ⟨rfl, rfl, OnlyFilesAt.refl _ _⟩
  | cons name rest ih =>
    by_cases hleft : s.isLeftover t.fs keep name = true
    · obtain ⟨loc, -, -, hsweep⟩ := sweep_leftover rest hleft
      obtain ⟨hok, hwork, hshrunk⟩ := ih (t.advance (t.fs.erase loc))
      rw [hsweep]
      exact ⟨hok, hwork, (OnlyFilesAt.erase _ t.fs loc).trans hshrunk⟩
    · rw [sweep_other hleft]
      exact ih t

theorem sweep_eq_ok (s : Store) (keep : Name) (names : List Name) (t : Transfer) :
    s.sweep keep names t = (.ok (), (s.sweep keep names t).2) :=
  Prod.ext (sweep_spec s keep names t).1 rfl

/-! ## What is left -/

/-- What a sweep over some names has made of a tree. -/
structure Swept (s : Store) (bin : Location) (keep : Name) (names : List Name)
    (fs fs' : FileSystem) : Prop where
  workDir : fs'.workDir = fs.workDir
  dirAt : fs'.DirAt s.binDir bin
  entries : ∀ loc, fs'.entry? loc = fs.entry? loc ∨ fs'.entry? loc = none ∧
    fs.entry? loc ≠ some .dir ∧ ∃ name f, loc = bin ++ [name] ∧
      fs.file? (s.pathOf name) = some f ∧ name ≠ keep ∧ ¬IsFresh name f
  files : ∀ name ∈ names, ∀ f, fs'.file? (s.pathOf name) = some f → name = keep ∨ IsFresh name f

theorem Swept.shrunk (h : Swept s bin keep names fs fs') : Shrunk fs fs' := by
  intro loc entry hentry
  rcases h.entries loc with hsame | ⟨hnone, -⟩
  · exact Or.inl (hsame ▸ hentry)
  · rw [hnone] at hentry
    cases hentry

private theorem entry_of_file? {f : File} (hname : Path.IsPlain name) (hbin : fs.DirAt s.binDir bin)
    (hfile : fs.file? (s.pathOf name) = some f) : fs.entry? (bin ++ [name]) = some (.file f) ∨
      ∃ target, fs.entry? (bin ++ [name]) = some (.link target) := by
  obtain ⟨loc, hloc, hentry⟩ := file?_eq_some_iff.mp hfile
  obtain ⟨named, hnamed, hkind⟩ := named_of_resolve hloc hentry
  obtain rfl := ((resolve_pathOf hname hbin).mp hnamed).2.2
  rcases hkind with rfl | hlink
  · exact Or.inl hentry
  · exact Or.inr hlink

private theorem file?_of_missing (hname : Path.IsPlain name) (hbin : fs.DirAt s.binDir bin)
    (hnone : fs.entry? (bin ++ [name]) = none) : fs.file? (s.pathOf name) = none := by
  cases hfile : fs.file? (s.pathOf name) with
  | none => rfl
  | some f =>
    rcases entry_of_file? hname hbin hfile with hentry | ⟨target, hentry⟩
    · rw [hnone] at hentry
      cases hentry
    · rw [hnone] at hentry
      cases hentry

theorem Swept.spares {f : File} (h : Swept s bin keep names fs fs') (hbin : fs.DirAt s.binDir bin)
    (hname : Path.IsPlain name) (hentry : fs.entry? (bin ++ [name]) = some (.file f))
    (hfresh : IsFresh name f) : fs'.entry? (bin ++ [name]) = some (.file f) := by
  rcases h.entries (bin ++ [name]) with hsame | ⟨-, -, other, g, heq, hfile, -, hnot⟩
  · rw [hsame, hentry]
  · obtain rfl : name = other := by simpa using heq
    rcases entry_of_file? hname hbin hfile with hold | ⟨target, hlink⟩
    · rw [hentry] at hold
      cases hold
      exact absurd hfresh hnot
    · rw [hentry] at hlink
      cases hlink

private theorem dirAt_erase (hpass : fs.Passable bin) (hbin : fs.DirAt s.binDir bin)
    (hname : Path.IsPlain name) {f : File} (hfile : fs.file? (s.pathOf name) = some f) {p : Path}
    {dir : Location} (hdir : fs.DirAt p dir) : (fs.erase (bin ++ [name])).DirAt p dir := by
  obtain ⟨loc, hloc, hentry⟩ := file?_eq_some_iff.mp hfile
  obtain ⟨m, hlast⟩ := leads_of_resolve_pathOf hname hbin hloc
  obtain ⟨hspelled, n, hn, hleads⟩ := resolve_eq_ok_iff.mp hdir.1
  have hkept := Leads.erase hpass hlast hentry hleads hdir.2
  refine ⟨resolve_eq_ok_iff.mpr ⟨hspelled, n, hn, hkept⟩, ?_⟩
  rw [entry?_erase (by simp), if_neg, hdir.2]
  rintro rfl
  rcases entry_of_file? hname hbin hfile with hfile | ⟨target, hlink⟩
  · rw [hdir.2] at hfile
    cases hfile
  · rw [hdir.2] at hlink
    cases hlink

/-- A sweep over plain names removes the leftovers under them and nothing else. -/
theorem sweep_swept (hpass : t.fs.Passable bin) (hbin : t.fs.DirAt s.binDir bin)
    (hnames : ∀ name ∈ names, Path.IsPlain name) :
    Swept s bin keep names t.fs (s.sweep keep names t).2.fs := by
  induction names generalizing t with
  | nil => exact ⟨rfl, hbin, fun _ => Or.inl rfl, fun _ h => absurd h List.not_mem_nil⟩
  | cons name rest ih =>
    have hname := hnames name List.mem_cons_self
    have hrest : ∀ other ∈ rest, Path.IsPlain other :=
      fun other hother => hnames other (List.mem_cons_of_mem _ hother)
    by_cases hleft : s.isLeftover t.fs keep name = true
    · obtain ⟨f, hfile, hkeep, hfresh⟩ := isLeftover_iff.mp hleft
      obtain ⟨loc, hloc, hdir, hsweep⟩ := sweep_leftover rest hleft
      obtain rfl := ((resolve_pathOf hname hbin).mp hloc).2.2
      have hwork : (t.fs.erase (bin ++ [name])).workDir = t.fs.workDir := rfl
      have hshrunk : Shrunk t.fs (t.fs.erase (bin ++ [name])) := OnlyFilesAt.erase _ _ _
      have hswept := ih (t := t.advance (t.fs.erase (bin ++ [name])))
        (hshrunk.passable hpass) (dirAt_erase hpass hbin hname hfile hbin) hrest
      have hentry : ∀ other, FileSystem.entry? (t.fs.erase (bin ++ [name])) other =
          if other = bin ++ [name] then none else t.fs.entry? other :=
        fun other => entry?_erase (by simp)
      rw [hsweep]
      refine ⟨hswept.workDir, hswept.dirAt, fun other => ?_, fun other hother g hg => ?_⟩
      · rcases hswept.entries other with hsame | ⟨hnone, hdir', name', f', hother, hfile', hout⟩
        · change _ = FileSystem.entry? (t.fs.erase (bin ++ [name])) other at hsame
          rw [hentry] at hsame
          split at hsame
          · next heq =>
            exact Or.inr ⟨hsame, heq ▸ hdir, name, f, heq, hfile, hkeep, hfresh⟩
          · exact Or.inl hsame
        · refine Or.inr ⟨hnone, ?_, name', f', hother, hshrunk.file_before hwork hfile', hout⟩
          change FileSystem.entry? (t.fs.erase (bin ++ [name])) other ≠ _ at hdir'
          rw [hentry] at hdir'
          split at hdir'
          · next heq => exact heq ▸ hdir
          · exact hdir'
      · rcases List.mem_cons.mp hother with rfl | hother
        · have hgone : FileSystem.entry? (t.fs.erase (bin ++ [other])) (bin ++ [other]) = none := by
            rw [hentry, if_pos rfl]
          have hmissing := file?_of_missing hname (dirAt_erase hpass hbin hname hfile hbin) hgone
          have hold := hswept.shrunk.file_before hswept.workDir hg
          change (t.fs.erase (bin ++ [other])).file? _ = _ at hold
          rw [hmissing] at hold
          cases hold
        · exact hswept.files other hother g hg
    · have hswept := ih hpass hbin hrest
      rw [sweep_other hleft]
      refine ⟨hswept.workDir, hswept.dirAt, hswept.entries, fun other hother g hg => ?_⟩
      rcases List.mem_cons.mp hother with rfl | hother
      · have hold := hswept.shrunk.file_before hswept.workDir hg
        by_contra hnot
        push Not at hnot
        exact hleft (isLeftover_iff.mpr ⟨g, hold, hnot⟩)
      · exact hswept.files other hother g hg

/-- A sweep over plain names leaves every directory where it was, whatever path leads there. -/
theorem sweep_dirAt (hpass : t.fs.Passable bin) (hbin : t.fs.DirAt s.binDir bin)
    (hnames : ∀ name ∈ names, Path.IsPlain name) {p : Path} {dir : Location}
    (hdir : t.fs.DirAt p dir) : (s.sweep keep names t).2.fs.DirAt p dir := by
  induction names generalizing t with
  | nil => exact hdir
  | cons name rest ih =>
    have hname := hnames name List.mem_cons_self
    have hrest : ∀ other ∈ rest, Path.IsPlain other :=
      fun other hother => hnames other (List.mem_cons_of_mem _ hother)
    by_cases hleft : s.isLeftover t.fs keep name = true
    · obtain ⟨f, hfile, -⟩ := isLeftover_iff.mp hleft
      obtain ⟨loc, hloc, -, hsweep⟩ := sweep_leftover rest hleft
      obtain rfl := ((resolve_pathOf hname hbin).mp hloc).2.2
      have hshrunk : Shrunk t.fs (t.fs.erase (bin ++ [name])) := OnlyFilesAt.erase _ _ _
      rw [hsweep]
      exact ih (t := t.advance (t.fs.erase (bin ++ [name]))) (hshrunk.passable hpass)
        (dirAt_erase hpass hbin hname hfile hbin) hrest
        (dirAt_erase hpass hbin hname hfile hdir)
    · rw [sweep_other hleft]
      exact ih hpass hbin hrest hdir

end EngineClient.Store
