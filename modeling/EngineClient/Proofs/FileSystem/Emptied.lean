import Mathlib
import EngineClient.Proofs.FileSystem.Resolve

/-!
# The content of one file

What a file holds decides nothing but what is read from it. If a fresh file is emptied, every path
still leads to where it led, and every operation that does not touch the file does the same to the
tree as before.
-/

namespace EngineClient.FileSystem

/-- The tree with nothing in the file at a place. -/
def emptied (fs : FileSystem) (place : Location) : FileSystem :=
  fs.modify place fun _ => .file ⟨[], 0⟩

/-- If something stands at a place, it is a file that was written just now. -/
def FreshAt (fs : FileSystem) (place : Location) : Prop :=
  ∀ entry, fs.entry? place = some entry → ∃ data, entry = .file ⟨data, 0⟩

variable {fs fs' : FileSystem} {follow : Bool} {place loc here : Location} {p : Path}
variable {entry : Entry}

theorem FreshAt.ne_root (h : fs.FreshAt place) : place ≠ [] := by
  rintro rfl
  obtain ⟨data, hdir⟩ := h .dir rfl
  cases hdir

/-! ## Trees and the content of one file -/

theorem emptied_of_missing (h : fs.entry? place = none) : fs.emptied place = fs :=
  modify_of_missing h _

theorem emptied_append (fs : FileSystem) (place : Location) (data : Bytes) :
    (fs.append place data).emptied place = fs.emptied place := by
  rw [emptied, append, modify_modify]
  rfl

theorem emptied_erase (fs : FileSystem) (loc place : Location) :
    (fs.emptied place).erase loc = (fs.erase loc).emptied place :=
  erase_modify fs loc place _

private theorem emptied_eraseTree (fs : FileSystem) (loc place : Location) :
    (fs.emptied place).eraseTree loc = (fs.eraseTree loc).emptied place :=
  eraseTree_modify fs loc place _

private theorem emptied_put (fs : FileSystem) (h : loc ≠ place) (entry : Entry) :
    (fs.emptied place).put loc entry = (fs.put loc entry).emptied place :=
  put_modify fs h entry _

theorem append_emptied (fs : FileSystem) (h : loc ≠ place) (data : Bytes) :
    (fs.emptied place).append loc data = (fs.append loc data).emptied place :=
  modify_comm fs h.symm _ _

theorem erase_emptied (fs : FileSystem) (place : Location) :
    (fs.emptied place).erase place = fs.erase place :=
  modify_erase fs place _

private theorem names_emptied (fs : FileSystem) (place dir : Location) :
    (fs.emptied place).names dir = fs.names dir :=
  names_modify fs place _ dir

theorem entry?_emptied_of_ne (hplace : place ≠ []) (h : loc ≠ place) :
    FileSystem.entry? (fs.emptied place) loc = fs.entry? loc := by
  rw [emptied, entry?_modify hplace, if_neg h]

private theorem FreshAt.cases_entry? (h : fs.FreshAt place) (loc : Location) :
    FileSystem.entry? (fs.emptied place) loc = fs.entry? loc ∨
      loc = place ∧ ∃ data, fs.entry? place = some (.file ⟨data, 0⟩) ∧
        FileSystem.entry? (fs.emptied place) place = some (.file ⟨[], 0⟩) := by
  by_cases hloc : loc = place
  · subst hloc
    cases hentry : fs.entry? loc with
    | none => exact Or.inl (by rw [emptied_of_missing hentry, hentry])
    | some entry =>
      obtain ⟨data, rfl⟩ := h entry hentry
      refine Or.inr ⟨rfl, data, rfl, ?_⟩
      rw [emptied, entry?_modify h.ne_root, if_pos rfl, hentry]
      rfl
  · exact Or.inl (entry?_emptied_of_ne h.ne_root hloc)

theorem FreshAt.entry?_eq_none (h : fs.FreshAt place) (loc : Location) :
    FileSystem.entry? (fs.emptied place) loc = none ↔ fs.entry? loc = none := by
  rcases h.cases_entry? loc with heq | ⟨rfl, data, hold, hnew⟩
  · rw [heq]
  · simp [hold, hnew]

theorem FreshAt.entry?_eq_dir (h : fs.FreshAt place) (loc : Location) :
    FileSystem.entry? (fs.emptied place) loc = some .dir ↔ fs.entry? loc = some .dir := by
  rcases h.cases_entry? loc with heq | ⟨rfl, data, hold, hnew⟩
  · rw [heq]
  · simp [hold, hnew]

theorem OnlyFilesAt.emptied {new : Location → Prop} (h : OnlyFilesAt new fs fs')
    (hfresh : fs'.FreshAt place) (hnew : new place) : OnlyFilesAt new fs (fs'.emptied place) := by
  intro loc entry hentry
  rcases hfresh.cases_entry? loc with heq | ⟨rfl, data, -, hempty⟩
  · exact h loc entry (heq ▸ hentry)
  · rw [hempty] at hentry
    exact Or.inr ⟨hnew, _, (Option.some.inj hentry).symm⟩

/-! ## Paths -/

/-- Two trees have the same shape: what stands anywhere is the same in both, or a file in both. -/
structure SameShape (fs fs' : FileSystem) : Prop where
  workDir : fs'.workDir = fs.workDir
  entries : ∀ loc, fs'.entry? loc = fs.entry? loc ∨
    ∃ f f', fs.entry? loc = some (.file f) ∧ fs'.entry? loc = some (.file f')

private theorem FreshAt.sameShape (h : fs.FreshAt place) : SameShape fs (fs.emptied place) where
  workDir := rfl
  entries := by
    intro loc
    rcases h.cases_entry? loc with heq | ⟨rfl, data, hold, hnew⟩
    · exact Or.inl heq
    · exact Or.inr ⟨_, _, hold, hnew⟩

theorem sameShape_append (hplace : place ≠ []) (data : Bytes) :
    SameShape fs (fs.append place data) where
  workDir := rfl
  entries := by
    intro loc
    rw [append, entry?_modify hplace]
    split
    · cases fs.entry? loc with
      | none => exact Or.inl rfl
      | some entry =>
        cases entry with
        | dir => exact Or.inl rfl
        | file f => exact Or.inr ⟨f, _, rfl, rfl⟩
        | link target => exact Or.inl rfl
    · exact Or.inl rfl

namespace SameShape

private theorem stepWith (h : SameShape fs fs')
    (jump : Location → Path → List Name → Except IoError Location) (names : List Name) :
    fs'.stepWith follow jump here names = fs.stepWith follow jump here names := by
  induction names generalizing here with
  | nil => rfl
  | cons name rest ih =>
    rw [FileSystem.stepWith, FileSystem.stepWith, ih, ih]
    rcases h.entries (here ++ [name]) with heq | ⟨f, f', hold, hnew⟩
    · rw [heq, ih]
    · rw [hold, hnew]

private theorem walk (h : SameShape fs fs') (links : Nat) (names : List Name) :
    fs'.walk follow links here names = fs.walk follow links here names := by
  induction links generalizing here names with
  | zero => rw [FileSystem.walk, FileSystem.walk, h.stepWith]
  | succ links ih =>
    rw [FileSystem.walk, FileSystem.walk, h.stepWith]
    simp only [ih]

/-- Every path leads to where it led. -/
theorem resolve (h : SameShape fs fs') (follow : Bool) (p : Path) :
    fs'.resolve follow p = fs.resolve follow p := by
  rw [FileSystem.resolve, FileSystem.resolve, h.walk, h.workDir]

end SameShape

theorem resolve_emptied (h : fs.FreshAt place) (follow : Bool) (p : Path) :
    (fs.emptied place).resolve follow p = fs.resolve follow p :=
  h.sameShape.resolve follow p

theorem dirAt_emptied (h : fs.FreshAt place) :
    (fs.emptied place).DirAt p loc ↔ fs.DirAt p loc := by
  rw [DirAt, DirAt, resolve_emptied h, h.entry?_eq_dir]

theorem readDir_emptied (h : fs.FreshAt place) (p : Path) :
    (fs.emptied place).readDir p = fs.readDir p := by
  simp only [readDir, resolve_emptied h, bind, Except.bind]
  cases fs.resolve true p with
  | error e => rfl
  | ok loc =>
    simp only [names_emptied]
    rcases h.cases_entry? loc with heq | ⟨rfl, data, hold, hnew⟩
    · rw [heq]
    · rw [hold, hnew]

theorem file?_emptied (h : fs.FreshAt place) (p : Path) :
    ((fs.emptied place).file? p).map File.age = (fs.file? p).map File.age := by
  simp only [file?, stat, resolve_emptied h, bind, Except.bind]
  cases fs.resolve true p with
  | error e => rfl
  | ok loc =>
    rcases h.cases_entry? loc with heq | ⟨rfl, data, hold, hnew⟩
    · simp only [heq]
    · simp only [hold, hnew]
      rfl

theorem isFile_emptied (h : fs.FreshAt place) (p : Path) :
    (fs.emptied place).isFile p = fs.isFile p := by
  rw [isFile, isFile, ← Option.isSome_map, file?_emptied h, Option.isSome_map]

/-! ## Operations -/

theorem createFile_emptied (h : fs.FreshAt place) (hplace : fs.entry? place ≠ none) (p : Path) :
    (fs.emptied place).createFile p =
      (fs.createFile p).map fun r => (r.1, r.2.emptied place) := by
  simp only [createFile, resolve_emptied h, bind, Except.bind]
  cases fs.resolve false p with
  | error e => rfl
  | ok loc =>
    simp only
    cases hentry : fs.entry? loc with
    | none =>
      have hne : loc ≠ place := by
        rintro rfl
        exact hplace hentry
      rw [(h.entry?_eq_none loc).mpr hentry]
      simp only [pure, Except.pure, Except.map, emptied_put fs hne]
    | some entry =>
      obtain ⟨entry', hentry'⟩ :
          ∃ entry', FileSystem.entry? (fs.emptied place) loc = some entry' := by
        rw [← Option.ne_none_iff_exists', Ne, h.entry?_eq_none, hentry]
        exact Option.some_ne_none entry
      rw [hentry']
      rfl

theorem removeFile_modify {change : Entry → Entry} (h : SameShape fs (fs.modify place change))
    (p : Path) :
    (fs.modify place change).removeFile p = (fs.removeFile p).map (·.modify place change) := by
  simp only [removeFile, h.resolve, bind, Except.bind]
  cases fs.resolve false p with
  | error e => rfl
  | ok loc =>
    simp only [erase_modify]
    rcases h.entries loc with heq | ⟨f, f', hold, hnew⟩
    · rw [heq]
      rcases fs.entry? loc with _ | _ | _ | _ <;> rfl
    · rw [hold, hnew]
      rfl

theorem removeFile_emptied (h : fs.FreshAt place) (p : Path) :
    (fs.emptied place).removeFile p = (fs.removeFile p).map (·.emptied place) :=
  removeFile_modify h.sameShape p

theorem removeAll_emptied (h : fs.FreshAt place) (p : Path) :
    (fs.emptied place).removeAll p = (fs.removeAll p).map (·.emptied place) := by
  simp only [removeAll, resolve_emptied h, bind, Except.bind]
  cases fs.resolve false p with
  | error e => rfl
  | ok loc =>
    simp only [emptied_eraseTree]
    rcases h.cases_entry? loc with heq | ⟨rfl, data, hold, hnew⟩
    · rw [heq]
      rcases fs.entry? loc with _ | _ | _ | _ <;> rfl
    · rw [hold, hnew]
      rfl

theorem moveFile_emptied (h : fs.FreshAt place) {source target : Path}
    (hsource : ∀ loc, fs.resolve false source = .ok loc → loc ≠ place)
    (htarget : ∀ loc, fs.resolve false target = .ok loc → loc ≠ place) :
    (fs.emptied place).moveFile source target =
      (fs.moveFile source target).map (·.emptied place) := by
  simp only [moveFile, resolve_emptied h, bind, Except.bind]
  split
  · rfl
  cases hloc : fs.resolve false source with
  | error e => rfl
  | ok loc =>
    simp only [entry?_emptied_of_ne h.ne_root (hsource loc hloc)]
    rcases fs.entry? loc with _ | _ | f | link
    · rfl
    · rfl
    all_goals
      cases hloc' : fs.resolve false target with
      | error e => rfl
      | ok loc' =>
        have hne := htarget loc' hloc'
        simp only [entry?_emptied_of_ne h.ne_root hne, emptied_erase, emptied_put _ hne]
        rcases fs.entry? loc' with _ | _ | _ | _ <;> rfl

end EngineClient.FileSystem
