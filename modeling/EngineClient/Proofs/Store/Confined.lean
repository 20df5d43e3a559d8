import Mathlib
import EngineClient.Proofs.Provisioner.Decision
import EngineClient.Proofs.Repository.Directory
import EngineClient.Proofs.Store.Journal
import EngineClient.Proofs.Store.Steps

/-!
# A replacement stays in its directory

A name that is more or less than one part of a path is refused, and every other one names an entry
right in the directory of the binary. Whatever the name and the stream, a replacement changes
nothing outside that directory, but for directories on the way to it that were missing. The names
of published binaries are never refused.
-/

namespace EngineClient

open FileSystem

namespace Store

variable {s : Store} {name : String} {chunkSize : Nat} {source : Source} {t : Transfer}
variable {own bin : Location} {made fs fs' : FileSystem}

/-! ## Names that are refused -/

/-- A text that is not the name of an entry in a directory. -/
def IsPathLike (name : String) : Prop :=
  name = "" ∨ name = "." ∨ name = ".." ∨ '/' ∈ name.toList

/-- A replacement has refused the name: nothing has been changed and nothing read. -/
structure Refused (name : String) (t : Transfer) (out : Except Error Path × Transfer) : Prop where
  result : out.1 = .error (.fetch (.refusedName name))
  tree : out.2.fs = t.fs
  visited : out.2.visited = t.visited
  unread : out.2.reads = 0

private theorem accepts_bytesOf_iff : accepts (bytesOf name) = true ↔ ¬IsPathLike name := by
  rw [accepts_iff, Repository.isPlain_bytesOf_iff, IsPathLike]
  tauto

private theorem replace_refused (s : Store) (chunkSize : Nat) (source : Source) (t : Transfer)
    (h : IsPathLike name) : Refused name t (s.replace name chunkSize source t) := by
  have hnot : ¬accepts (bytesOf name) = true := by
    rw [accepts_bytesOf_iff]
    exact not_not_intro h
  rw [Store.replace, if_neg hnot]
  exact ⟨rfl, rfl, rfl, rfl⟩

private theorem install_result (s : Store) (file : Path) (key : Name) (t : Transfer) :
    (∃ path, (s.install file key t).1 = .ok path) ∨
      ∃ e, (s.install file key t).1 = .error (.io e) := by
  have hsettle : ∀ t : Transfer, (∃ path, (s.settle key t).1 = .ok path) ∨
      ∃ e, (s.settle key t).1 = .error (.io e) := by
    intro t
    cases settle_cases s key t with
    | inl hok => exact .inl ⟨_, hok⟩
    | inr herror => exact .inr herror.2
  rw [install]
  cases s.persist file key t.fs with
  | ok fs => exact hsettle _
  | error e =>
    simp only
    split
    · exact hsettle _
    · exact .inr ⟨e, rfl⟩

private theorem receiveAndInstall_not_refused (s : Store) (chunkSize : Nat) (source : Source)
    (file : Path) (own : Location) (t : Transfer) (refused : String) :
    (s.receiveAndInstall name chunkSize source file own t).1 ≠
      .error (.fetch (.refusedName refused)) := by
  rw [receiveAndInstall]
  generalize download own chunkSize source t = read
  obtain ⟨ending, t'⟩ := read
  cases ending with
  | cancelled => simp
  | failed reason => simp
  | complete =>
    simp only
    split
    · simp
    · cases install_result s file (bytesOf name) t' with
      | inl hok =>
        obtain ⟨path, hpath⟩ := hok
        simp [hpath]
      | inr herror =>
        obtain ⟨e, he⟩ := herror
        simp [he]

private theorem isPathLike_of_refused {refused : String}
    (h : (s.replace name chunkSize source t).1 = .error (.fetch (.refusedName refused))) :
    IsPathLike name := by
  by_contra hname
  rw [Store.replace, if_pos (accepts_bytesOf_iff.mpr hname)] at h
  rcases hensure : s.ensureDirectory t.restart.fs with ⟨_ | _, made⟩
  · rw [hensure] at h
    cases h
  · rw [hensure] at h
    simp only at h
    cases hcreate : s.createPartial (t.restart.advance made).fs with
    | error e =>
      rw [hcreate] at h
      cases h
    | ok r =>
      rw [hcreate] at h
      exact receiveAndInstall_not_refused s chunkSize source _ _ _ _ h

/-! ## Replacements that nobody disturbs -/

/-- What has become of a tree in which the directory is at `bin` while the partial file is at `own`:
nothing has come but files right in the directory, and nothing else has changed. -/
structure Inside (bin own : Location) (made fs : FileSystem) : Prop where
  workDir : fs.workDir = made.workDir
  later : OnlyFilesAt (Within bin) made fs
  entries : ∀ loc, fs.entry? loc = made.entry? loc ∨ Within bin loc
  own : ∀ entry, fs.entry? own = some entry → ∃ f, entry = .file f

/-- A step brings nothing but files as long as the partial file is one. -/
theorem OwnStep.brings (h : s.OwnStep own fs fs') (hown : Within bin own)
    (hdirs : ∀ dir, fs.DirAt s.binDir dir → dir = bin)
    (hfile : ∀ entry, fs.entry? own = some entry → ∃ f, entry = .file f) {loc : Location}
    {entry : Entry} (hentry : fs'.entry? loc = some entry) :
    fs.entry? loc = some entry ∨ ∃ f, entry = .file f := by
  obtain ⟨draw, -, rfl⟩ := hown
  cases h with
  | create hbin hwithin hnone =>
    rw [entry?_put (List.concat_ne_nil _ _)] at hentry
    split at hentry
    · exact .inr ⟨_, (Option.some.inj hentry).symm⟩
    · exact .inl hentry
  | write data =>
    rw [FileSystem.append, entry?_modify (List.concat_ne_nil _ _)] at hentry
    split at hentry
    case isTrue hloc =>
      obtain ⟨before, hbefore, rfl⟩ := Option.map_eq_some_iff.mp hentry
      obtain ⟨f, rfl⟩ := hfile before (hloc ▸ hbefore)
      exact .inr ⟨_, rfl⟩
    case isFalse => exact .inl hentry
  | remove hbin hname hplace => exact .inl (of_entry?_erase hentry)
  | @rename dir draw' name moved hbin hdraw hname hmoved hnot hplace =>
    obtain rfl := hdirs dir hbin
    obtain rfl : draw = draw' := by simpa using hdraw
    rw [entry?_put (List.concat_ne_nil _ _)] at hentry
    split at hentry
    · rw [← Option.some.inj hentry]
      exact .inr (hfile moved hmoved)
    · exact .inl (of_entry?_erase hentry)

private theorem Inside.refl (hmissing : made.entry? own = none) : Inside bin own made made where
  workDir := rfl
  later := OnlyFilesAt.refl _ made
  entries _ := .inl rfl
  own entry hentry := by
    rw [hmissing] at hentry
    cases hentry

private theorem Inside.step (hbin : made.DirAt s.binDir bin) (hown : Within bin own)
    (h : Inside bin own made fs) (hstep : s.OwnStep own fs fs') : Inside bin own made fs' := by
  have hdirs : ∀ dir, fs.DirAt s.binDir dir → dir = bin := by
    intro dir hdir
    exact (hdir.of_later h.workDir h.later).unique hbin
  have hbrings : ∀ {loc entry}, fs'.entry? loc = some entry →
      fs.entry? loc = some entry ∨ ∃ f, entry = .file f := by
    intro loc entry hentry
    exact hstep.brings hown hdirs h.own hentry
  have hconfines := hstep.confines hown
  have hentries : ∀ loc, fs'.entry? loc = fs.entry? loc ∨ Within bin loc := by
    intro loc
    cases hconfines.entries loc with
    | inl hsame => exact .inl hsame
    | inr hchanged =>
      obtain ⟨-, -, hplace⟩ := hchanged
      cases hplace with
      | inl heq => exact .inr (heq ▸ hown)
      | inr hdir =>
        obtain ⟨dir, hdir, hwithin⟩ := hdir
        exact .inr (hdirs dir hdir ▸ hwithin)
  refine ⟨hconfines.workDir.trans h.workDir, ?_, ?_, ?_⟩
  · intro loc entry hentry
    cases hentries loc with
    | inl hsame => exact h.later loc entry (hsame ▸ hentry)
    | inr hwithin =>
      cases hbrings hentry with
      | inl hold => exact h.later loc entry hold
      | inr hfile => exact .inr ⟨hwithin, hfile⟩
  · intro loc
    cases hentries loc with
    | inl hsame =>
      rw [hsame]
      exact h.entries loc
    | inr hwithin => exact .inr hwithin
  · intro entry hentry
    cases hbrings hentry with
    | inl hold => exact h.own entry hold
    | inr hfile => exact hfile

/-! ## Confinement -/

/-- What a replacement may do to a tree, with `left` the tree in the end. -/
structure StaysInside (s : Store) (source : Source) (before made left : FileSystem) : Prop where
  /-- First the directories on the way to that of the binary are created where they are missing. -/
  way : MadeWay s.binDir before made
  /-- All that follows, between the acts of others, are steps that change nothing outside the
  directory, and no directory in it. -/
  steps : left = made ∨ ∃ own acts, made.DirAt s.binDir own.dropLast ∧ Within own.dropLast own ∧
    acts <+: source.others ∧ Interleaved (s.Confines own) acts made left
  /-- If nobody else acts, then nothing outside the directory has changed in the end. -/
  alone : source.IsUndisturbed → ∀ loc, left.entry? loc = before.entry? loc ∨
    before.entry? loc = none ∧ left.entry? loc = some .dir ∧
      (∃ q, q.IsAbove s.binDir ∧ made.DirAt q loc) ∨
    ∃ bin, made.DirAt s.binDir bin ∧ Within bin loc

private theorem changes_of_madeWay (h : MadeWay s.binDir fs made) {loc : Location}
    (hloc : fs'.entry? loc = made.entry? loc ∨ ∃ bin, made.DirAt s.binDir bin ∧ Within bin loc) :
    fs'.entry? loc = fs.entry? loc ∨
      fs.entry? loc = none ∧ fs'.entry? loc = some .dir ∧
        (∃ q, q.IsAbove s.binDir ∧ made.DirAt q loc) ∨
      ∃ bin, made.DirAt s.binDir bin ∧ Within bin loc := by
  cases hloc with
  | inr hwithin => exact .inr (.inr hwithin)
  | inl hsame =>
    cases h.entries loc with
    | inl hold => exact .inl (hsame.trans hold)
    | inr hnew =>
      obtain ⟨hnone, q, hq, hdir⟩ := hnew
      exact .inr (.inl ⟨hnone, hsame.trans hdir.2, q, hq, hdir⟩)

private theorem replace_staysInside (htree : t.fs.IsTree) (hname : ¬IsPathLike name)
    (chunkSize : Nat) (hothers : ∀ act ∈ source.others, KeepsTree act) :
    StaysInside s source t.fs (s.ensureDirectory t.fs).2
      (s.replace name chunkSize source t).2.fs := by
  have hway := (ensureDirectory_spec s t.fs).1
  have hmade := htree.madeWay hway
  by_cases hbegins : ∃ own made begun, s.Begins name t own made begun
  · obtain ⟨own, made, begun, hbegins⟩ := hbegins
    rw [hbegins.ensured] at hway hmade ⊢
    obtain ⟨hbin, file, hbegun⟩ := hbegins.dirAt
    obtain ⟨hwithin, acts, hacts, hrun⟩ := hbegins.interleaved hmade chunkSize hothers
    refine ⟨hway, .inr ⟨own, acts, hbin, hwithin, hacts, ?_⟩, ?_⟩
    · exact hrun.mono fun _ _ hstep => hstep.confines hwithin
    · intro hsource loc
      have hnone : acts = [] := by
        rw [hsource.others_eq_nil] at hacts
        exact List.prefix_nil.mp hacts
      rw [hnone] at hrun
      have hinside : Inside own.dropLast own made (s.replace name chunkSize source t).2.fs := by
        apply hrun.keeps (fun _ _ hstep h => h.step hbin hwithin hstep) (by simp)
        exact .refl hbegun.missing
      apply changes_of_madeWay hway
      cases hinside.entries loc with
      | inl hsame => exact .inl hsame
      | inr hloc => exact .inr ⟨_, hbin, hloc⟩
  · push Not at hbegins
    have hleft := (replace_of_not_begins chunkSize source hbegins).2
    rw [if_pos (accepts_bytesOf_iff.mpr hname)] at hleft
    refine ⟨hway, .inl hleft, ?_⟩
    intro hsource loc
    apply changes_of_madeWay hway
    exact .inl (by rw [hleft])

/-- A replacement cannot reach beyond the directory of the binary. It refuses exactly the names that
are empty, that stand for a directory in each directory or that have a slash, with nothing changed
and nothing read. Every other name is that of an entry right in the directory, wherever that is, and
whatever the stream is, nothing outside the directory is created, changed or removed but for
directories on the way to it that were missing. No binary that is selected from a repository has a
name that is refused. Others may do as they like as long as the tree stays a proper one. -/
theorem replace_confined (s : Store) (name : String) (chunkSize : Nat) (source : Source)
    (t : Transfer) (htree : t.fs.IsTree)
    (hothers : ∀ act, .outside act ∈ source → KeepsTree act) :
    (IsPathLike name ↔ Refused name t (s.replace name chunkSize source t)) ∧
    (¬IsPathLike name →
      s.pathOf (bytesOf name) = s.binDir ++ Path.slash :: bytesOf name ∧
      (∀ (fs : FileSystem) loc, fs.IsTree → fs.resolve false (s.pathOf (bytesOf name)) = .ok loc →
        ∃ bin, fs.DirAt s.binDir bin ∧ loc = bin ++ [bytesOf name]) ∧
      StaysInside s source t.fs (s.ensureDirectory t.fs).2
        (s.replace name chunkSize source t).2.fs) ∧
    ∀ (repo : Repository) fs platform asset, repo.latest? fs platform = .ok (some asset) →
      ¬IsPathLike (keyName asset.location) := by
  refine ⟨⟨replace_refused s chunkSize source t, ?_⟩, ?_, ?_⟩
  · intro hrefused
    exact isPathLike_of_refused hrefused.result
  · intro hname
    have hplain := accepts_iff.mp (accepts_bytesOf_iff.mpr hname)
    refine ⟨?_, ?_, ?_⟩
    · exact Path.join_eq s.binDir_ne_nil s.endsOpen_binDir hplain.2.1
    · intro fs loc hfs hloc
      exact hfs.dirAt_of_pathOf hplain hloc
    · apply replace_staysInside htree hname
      intro act hact
      exact hothers act (Source.mem_others.mp hact)
  · intro repo fs platform asset hlatest
    rw [← accepts_bytesOf_iff, accepts_iff]
    exact Version.isPlain_bytesOf (Repository.version_of_latest? hlatest) (slash_not_mem_keyName _)

/-- A tree with a file outside of the sample store. -/
def besideTree : FileSystem := sampleTree.put [[120]] (.file ⟨[1], 5⟩)

theorem replace_confined_beside :
    (sampleStore.replace "../x" 4 (sampleSource [.data [3]]) { fs := besideTree }).2.fs =
        besideTree ∧
      (sampleStore.replace "e" 4 [.data [3]] { fs := besideTree }).2.fs.entry? [[120]] =
        some (.file ⟨[1], 5⟩) := by
  have htree : besideTree.IsTree := isTree_of_entries (by decide) rfl
  constructor
  · have hrival : ∀ act, .outside act ∈ sampleSource [.data [3]] → KeepsTree act := by
      intro act hact
      obtain rfl : act = sampleStore.rival "r" [2] := by simpa [sampleSource] using hact
      exact rival_keepsTree _ _ _
    obtain ⟨hrefuses, -⟩ := replace_confined sampleStore "../x" 4 (sampleSource [.data [3]])
      { fs := besideTree } htree hrival
    exact (hrefuses.mp (by simp [IsPathLike])).tree
  · obtain ⟨-, hplain, -⟩ := replace_confined sampleStore "e" 4 [.data [3]] { fs := besideTree }
      htree (by simp)
    obtain ⟨-, -, hstays⟩ := hplain (by simp [IsPathLike])
    have hmade : (sampleStore.ensureDirectory besideTree).2.DirAt sampleStore.binDir
        [[109], [98, 105, 110]] := by
      constructor <;> decide +kernel
    cases hstays.alone (isUndisturbed_data [3]) [[120]] with
    | inl hsame =>
      rw [hsame]
      rfl
    | inr hchanged =>
      cases hchanged with
      | inl hnew => cases hnew.1
      | inr hwithin =>
        obtain ⟨bin, hbin, draw, -, hplace⟩ := hwithin
        obtain rfl := hbin.unique hmade
        simp at hplace

end Store

end EngineClient
