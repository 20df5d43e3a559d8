import Mathlib
import EngineClient.Proofs.FileSystem.Leads

/-!
# Resolved paths

What the operations on paths answer, told by the location a path leads to. A path that leads to a
directory after a change that brought nothing but files has led to it before. Plain names in the
directory of the binary lead to the places right below it.
-/

namespace EngineClient

/-- Whether a path can be handed to the system. -/
def Path.IsSpelled (p : Path) : Prop :=
  p.contains 0 = false ∧ p ≠ [] ∧ p.length ≤ FileSystem.maxPath

namespace FileSystem

/-- The directory at which a path starts. -/
def start (fs : FileSystem) (p : Path) : Location := if p.isAbsolute then [] else fs.workDir

/-- A path leads to a directory at a location. -/
def DirAt (fs : FileSystem) (p : Path) (loc : Location) : Prop :=
  fs.resolve true p = .ok loc ∧ fs.entry? loc = some .dir

variable {fs fs' : FileSystem} {follow : Bool} {p : Path} {loc : Location} {entry : Entry}

theorem resolve_eq_ok_iff : fs.resolve follow p = .ok loc ↔
    p.IsSpelled ∧ ∃ n ≤ maxLinks, Leads fs follow n (fs.start p) p.steps loc := by
  rw [resolve, Path.IsSpelled]
  by_cases hnul : p.contains 0 = true
  · simp only [hnul, if_true, reduceCtorEq, false_and]
  by_cases hempty : p = []
  · simp [hempty]
  by_cases hlong : maxPath < p.length
  · simp only [hnul, hempty, List.isEmpty_iff, hlong, if_false, if_true, reduceCtorEq,
      Nat.not_le.mpr hlong, and_false, false_and]
  have hnul' : p.contains 0 = false := by simpa using hnul
  simp only [hnul', Bool.false_eq_true, hempty, List.isEmpty_iff, hlong, if_false, walk_eq_ok_iff,
    start, Nat.not_lt.mp hlong, ne_eq, not_false_eq_true, and_true, true_and]

theorem DirAt.unique {loc' : Location} (h : fs.DirAt p loc) (h' : fs.DirAt p loc') :
    loc = loc' := by
  have heq := h.1
  rw [h'.1] at heq
  exact (Except.ok.inj heq).symm

/-! ## What operations answer -/

theorem stat_eq_ok_iff : fs.stat p = .ok entry ↔
    ∃ loc, fs.resolve true p = .ok loc ∧ fs.entry? loc = some entry := by
  simp only [stat, bind, Except.bind]
  cases fs.resolve true p with
  | error e => simp
  | ok loc =>
    simp only [Except.ok.injEq, exists_eq_left']
    cases fs.entry? loc with
    | none => simp [throw, throwThe, MonadExceptOf.throw]
    | some other => simp [pure, Except.pure]

theorem file?_eq_some_iff {f : File} : fs.file? p = some f ↔
    ∃ loc, fs.resolve true p = .ok loc ∧ fs.entry? loc = some (.file f) := by
  rw [← stat_eq_ok_iff, file?]
  split <;> simp_all

theorem isFile_iff : fs.isFile p = true ↔
    ∃ loc f, fs.resolve true p = .ok loc ∧ fs.entry? loc = some (.file f) := by
  rw [isFile, Option.isSome_iff_exists]
  simp only [file?_eq_some_iff]
  exact exists_comm

theorem isDir_iff : fs.isDir p = true ↔ ∃ loc, fs.DirAt p loc := by
  simp only [DirAt, ← stat_eq_ok_iff]
  rw [isDir]
  split <;> simp_all

theorem readDir_eq_ok_iff {names : List Name} : fs.readDir p = .ok names ↔
    ∃ loc, fs.DirAt p loc ∧ names = fs.names loc := by
  simp only [DirAt, readDir, bind, Except.bind]
  cases fs.resolve true p with
  | error e => simp
  | ok loc =>
    simp only [Except.ok.injEq, exists_eq_left', and_assoc]
    cases fs.entry? loc with
    | none => simp [throw, throwThe, MonadExceptOf.throw]
    | some other =>
      cases other <;> simp [pure, Except.pure, throw, throwThe, MonadExceptOf.throw, eq_comm]

theorem createFile_eq_ok_iff : fs.createFile p = .ok (loc, fs') ↔
    fs.resolve false p = .ok loc ∧ fs.entry? loc = none ∧ fs' = fs.put loc (.file ⟨[], 0⟩) := by
  simp only [createFile, bind, Except.bind]
  cases fs.resolve false p with
  | error e => simp
  | ok other =>
    simp only [Except.ok.injEq]
    cases hother : fs.entry? other with
    | some entry =>
      simp only [throw, throwThe, MonadExceptOf.throw, reduceCtorEq, false_iff, not_and]
      rintro rfl hnone
      rw [hother] at hnone
      cases hnone
    | none =>
      simp only [pure, Except.pure, Except.ok.injEq, Prod.mk.injEq]
      constructor
      · rintro ⟨rfl, rfl⟩
        exact ⟨rfl, hother, rfl⟩
      · rintro ⟨rfl, -, rfl⟩
        exact ⟨rfl, rfl⟩

theorem removeFile_eq_ok_iff : fs.removeFile p = .ok fs' ↔
    ∃ loc entry, fs.resolve false p = .ok loc ∧ fs.entry? loc = some entry ∧ entry ≠ .dir ∧
      fs' = fs.erase loc := by
  simp only [removeFile, bind, Except.bind]
  cases fs.resolve false p with
  | error e => simp
  | ok loc =>
    simp only [Except.ok.injEq, exists_and_left, exists_eq_left']
    cases hentry : fs.entry? loc with
    | none => simp [throw, throwThe, MonadExceptOf.throw]
    | some other =>
      cases other <;> simp [pure, Except.pure, throw, throwThe, MonadExceptOf.throw, eq_comm]

theorem moveFile_eq_ok_iff {source target : Path} : fs.moveFile source target = .ok fs' ↔
    ∃ loc entry loc', fs.resolve false source = .ok loc ∧ fs.entry? loc = some entry ∧
      entry ≠ .dir ∧ fs.resolve false target = .ok loc' ∧ fs.entry? loc' ≠ some .dir ∧
      fs' = (fs.erase loc).put loc' entry := by
  constructor
  · intro h
    simp only [moveFile, bind, Except.bind] at h
    split at h
    · cases h
    cases hloc : fs.resolve false source with
    | error e =>
      rw [hloc] at h
      cases h
    | ok loc =>
      cases hentry : fs.entry? loc with
      | none =>
        simp only [hloc, hentry] at h
        cases h
      | some entry =>
        by_cases hdir : entry = .dir
        · simp only [hloc, hentry, hdir] at h
          cases h
        cases hloc' : fs.resolve false target with
        | error e =>
          cases entry <;> simp [hloc, hentry, hloc'] at h hdir
        | ok loc' =>
          have hdir' : fs.entry? loc' ≠ some .dir := by
            intro htarget
            cases entry <;> simp [hloc, hentry, hloc', htarget] at h hdir
          refine ⟨loc, entry, loc', rfl, hentry, hdir, rfl, hdir', ?_⟩
          rcases entry with _ | f | link
          · exact absurd rfl hdir
          all_goals
            simp only [hloc, hentry, hloc'] at h
            rcases htarget : fs.entry? loc' with _ | _ | _ | _
            · exact (Except.ok.inj h).symm
            · exact absurd htarget hdir'
            · exact (Except.ok.inj h).symm
            · exact (Except.ok.inj h).symm
  · rintro ⟨loc, entry, loc', hloc, hentry, hdir, hloc', hdir', rfl⟩
    have hnul : (source.contains 0 || target.contains 0) = false := by
      rw [(resolve_eq_ok_iff.mp hloc).1.1, (resolve_eq_ok_iff.mp hloc').1.1]
      rfl
    simp only [moveFile, hnul, hloc, hentry, hloc', bind, Except.bind]
    rcases entry with _ | f | link
    · exact absurd rfl hdir
    all_goals
      rcases htarget : fs.entry? loc' with _ | _ | _ | _
      · rfl
      · exact absurd htarget hdir'
      · rfl
      · rfl

/-- A path that leads to an entry names one, which is that entry or a link. -/
theorem named_of_resolve (h : fs.resolve true p = .ok loc) (hentry : fs.entry? loc = some entry) :
    ∃ named, fs.resolve false p = .ok named ∧
      (named = loc ∨ ∃ target, fs.entry? named = some (.link target)) := by
  obtain ⟨hspelled, n, hn, hleads⟩ := resolve_eq_ok_iff.mp h
  obtain ⟨m, hm, named, hnamed, hkind⟩ := hleads.unfollowed hentry
  exact ⟨named, resolve_eq_ok_iff.mpr ⟨hspelled, m, hm.trans hn, hnamed⟩, hkind⟩

theorem removeFile_of_isFile (h : fs.isFile p = true) :
    ∃ loc, fs.resolve false p = .ok loc ∧ fs.entry? loc ≠ some .dir ∧
      fs.removeFile p = .ok (fs.erase loc) := by
  obtain ⟨loc, f, hloc, hfile⟩ := isFile_iff.mp h
  obtain ⟨named, hnamed, hkind⟩ := named_of_resolve hloc hfile
  have hentry : ∃ entry, fs.entry? named = some entry ∧ entry ≠ .dir := by
    rcases hkind with rfl | ⟨target, hlink⟩
    · exact ⟨_, hfile, nofun⟩
    · exact ⟨_, hlink, nofun⟩
  obtain ⟨entry, hsome, hdir⟩ := hentry
  refine ⟨named, hnamed, ?_, removeFile_eq_ok_iff.mpr ⟨named, entry, hnamed, hsome, hdir, rfl⟩⟩
  rw [hsome]
  exact fun heq => hdir (Option.some.inj heq)

/-! ## Trees that have changed -/

theorem resolve_of_later {new : Location → Prop} (hwork : fs'.workDir = fs.workDir)
    (hlater : OnlyFilesAt new fs fs') (h : fs'.resolve follow p = .ok loc)
    (hentry : fs'.entry? loc = some entry) :
    (new loc ∧ ∃ f, entry = .file f) ∨
      fs.resolve follow p = .ok loc ∧ fs.entry? loc = some entry := by
  obtain ⟨hspelled, n, hn, hleads⟩ := resolve_eq_ok_iff.mp h
  refine (hleads.of_later hlater hentry).imp_right fun ⟨hold, hsome⟩ => ⟨?_, hsome⟩
  rw [start, hwork] at hold
  exact resolve_eq_ok_iff.mpr ⟨hspelled, n, hn, hold⟩

theorem DirAt.of_later {new : Location → Prop} (hwork : fs'.workDir = fs.workDir)
    (hlater : OnlyFilesAt new fs fs') (h : fs'.DirAt p loc) : fs.DirAt p loc := by
  rcases resolve_of_later hwork hlater h.1 h.2 with ⟨-, f, hfile⟩ | hold
  · cases hfile
  · exact hold

theorem OnlyFilesAt.refl (new : Location → Prop) (fs : FileSystem) : OnlyFilesAt new fs fs :=
  fun _ _ h => Or.inl h

theorem OnlyFilesAt.trans {new : Location → Prop} {fs'' : FileSystem}
    (h : OnlyFilesAt new fs fs') (h' : OnlyFilesAt new fs' fs'') : OnlyFilesAt new fs fs'' := by
  intro loc entry hentry
  rcases h' loc entry hentry with hentry | hnew
  · exact h loc entry hentry
  · exact Or.inr hnew

theorem OnlyFilesAt.erase (new : Location → Prop) (fs : FileSystem) (place : Location) :
    OnlyFilesAt new fs (fs.erase place) := by
  intro loc entry hentry
  exact Or.inl (of_entry?_erase hentry)

theorem OnlyFilesAt.eraseTree (new : Location → Prop) (fs : FileSystem) (place : Location) :
    OnlyFilesAt new fs (fs.eraseTree place) := by
  intro loc entry hentry
  exact Or.inl (of_entry?_eraseTree hentry)

theorem OnlyFilesAt.put {new : Location → Prop} {place : Location} (hplace : place ≠ [])
    (hnew : new place) (f : File) : OnlyFilesAt new fs (fs.put place (.file f)) := by
  intro loc entry hentry
  rw [entry?_put hplace] at hentry
  split at hentry
  · next heq => exact Or.inr ⟨heq ▸ hnew, f, (Option.some.inj hentry).symm⟩
  · exact Or.inl hentry

theorem OnlyFilesAt.mono {new new' : Location → Prop} (hnew : ∀ loc, new loc → new' loc)
    (h : OnlyFilesAt new fs fs') : OnlyFilesAt new' fs fs' := by
  intro loc entry hentry
  exact (h loc entry hentry).imp_right fun ⟨hloc, hfile⟩ => ⟨hnew loc hloc, hfile⟩

/-- Nothing has come to a tree. -/
abbrev Shrunk (fs fs' : FileSystem) : Prop := OnlyFilesAt (fun _ => False) fs fs'

theorem Shrunk.entry_before (h : Shrunk fs fs') (hentry : fs'.entry? loc = some entry) :
    fs.entry? loc = some entry :=
  (h loc entry hentry).resolve_right fun hnew => hnew.1

theorem Shrunk.file_before {f : File} (h : Shrunk fs fs') (hwork : fs'.workDir = fs.workDir)
    (hfile : fs'.file? p = some f) : fs.file? p = some f := by
  obtain ⟨loc, hloc, hentry⟩ := file?_eq_some_iff.mp hfile
  rcases resolve_of_later hwork h hloc hentry with ⟨hnew, -⟩ | ⟨hold, hentry'⟩
  · exact hnew.elim
  · exact file?_eq_some_iff.mpr ⟨loc, hold, hentry'⟩

theorem Shrunk.passable (h : Shrunk fs fs') (hpass : fs.Passable loc) : fs'.Passable loc :=
  fun above entry habove hentry => hpass above entry habove (h.entry_before hentry)

theorem resolve_followed (h : fs.resolve false p = .ok loc)
    (hlink : ∀ target, fs.entry? loc ≠ some (.link target)) : fs.resolve true p = .ok loc := by
  obtain ⟨hspelled, n, hn, hleads⟩ := resolve_eq_ok_iff.mp h
  exact resolve_eq_ok_iff.mpr ⟨hspelled, n, hn, hleads.followed hlink⟩

end FileSystem

namespace Store

open FileSystem

variable {s : Store} {fs : FileSystem} {follow : Bool} {name : Name} {bin loc : Location}

private theorem start_pathOf (hname : Path.IsPlain name) :
    fs.start (s.pathOf name) = fs.start s.binDir := by
  rw [start, start, isAbsolute_pathOf s hname.2.1]

theorem leads_of_resolve_pathOf (hname : Path.IsPlain name) (hbin : fs.DirAt s.binDir bin)
    (h : fs.resolve follow (s.pathOf name) = .ok loc) : ∃ n, Leads fs follow n bin [name] loc := by
  obtain ⟨-, n, -, hleads⟩ := resolve_eq_ok_iff.mp h
  rw [steps_pathOf s hname, start_pathOf hname] at hleads
  obtain ⟨k, m, mid, -, hmid, hlast, -⟩ := hleads.split (List.cons_ne_nil _ _)
  obtain ⟨-, n', -, hdir⟩ := resolve_eq_ok_iff.mp hbin.1
  obtain rfl := hmid.unique hdir
  exact ⟨m, hlast⟩

/-- The path of a name leads to the place of that name in the directory of the binary. -/
theorem resolve_pathOf (hname : Path.IsPlain name) (hbin : fs.DirAt s.binDir bin) :
    fs.resolve false (s.pathOf name) = .ok loc ↔
      (s.pathOf name).IsSpelled ∧ name.length ≤ maxName ∧ loc = bin ++ [name] := by
  obtain ⟨-, n, hn, hdir⟩ := resolve_eq_ok_iff.mp hbin.1
  constructor
  · intro h
    obtain ⟨m, hlast⟩ := leads_of_resolve_pathOf hname hbin h
    obtain ⟨hloc, hstep⟩ := hlast.eq_last hname.2.2.1 hname.2.2.2
    exact ⟨(resolve_eq_ok_iff.mp h).1, hstep.2.2, hloc⟩
  · rintro ⟨hspelled, hlen, rfl⟩
    refine resolve_eq_ok_iff.mpr ⟨hspelled, n, hn, ?_⟩
    rw [steps_pathOf s hname, start_pathOf hname]
    exact hdir.append hbin.2 (List.cons_ne_nil _ _)
      (Leads.last ⟨hname.2.2.1, hname.2.2.2, hlen⟩)

theorem resolve_pathOf_file {f : File} (hname : Path.IsPlain name) (hbin : fs.DirAt s.binDir bin)
    (hspelled : (s.pathOf name).IsSpelled) (hlength : name.length ≤ maxName)
    (hentry : fs.entry? (bin ++ [name]) = some (.file f)) :
    fs.resolve true (s.pathOf name) = .ok (bin ++ [name]) := by
  have hloc := (resolve_pathOf hname hbin).mpr ⟨hspelled, hlength, rfl⟩
  refine resolve_followed hloc fun target => ?_
  rw [hentry]
  nofun

theorem file?_pathOf {f : File} (hname : Path.IsPlain name) (hbin : fs.DirAt s.binDir bin)
    (hspelled : (s.pathOf name).IsSpelled) (hlength : name.length ≤ maxName)
    (hentry : fs.entry? (bin ++ [name]) = some (.file f)) : fs.file? (s.pathOf name) = some f :=
  file?_eq_some_iff.mpr ⟨_, resolve_pathOf_file hname hbin hspelled hlength hentry, hentry⟩

end Store

end EngineClient
