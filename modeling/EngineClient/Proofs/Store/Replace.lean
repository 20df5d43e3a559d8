import Mathlib
import EngineClient.Proofs.Store.Neighbours

/-!
# Replacing the binary

A replacement that fails has undone itself: the tree is what the others alone leave, but for
directories that have been created on the way. One that succeeds has put all that the stream yields
under the name of the binary, and of the files in the directory only the binary and fresh partial
files are left.
-/

namespace EngineClient.Store

open FileSystem

/-- A replacement gets as far as its partial file: the name is accepted, the directory is there in
the tree `made`, and the partial file is created at `own`. -/
structure Begins (s : Store) (name : String) (t : Transfer) (own : Location)
    (made begun : FileSystem) : Prop where
  accepted : accepts (bytesOf name) = true
  ensured : s.ensureDirectory t.fs = (.ok (), made)
  created : ∃ file, s.createPartial made = .ok (file, own, begun)

variable {s : Store} {name : String} {chunkSize : Nat} {source : Source} {t t' : Transfer}
variable {own : Location} {made begun : FileSystem} {e : Error} {path : Path}

theorem Begins.dirAt (h : s.Begins name t own made begun) : made.DirAt s.binDir own.dropLast ∧
    ∃ file, s.Begun own.dropLast own file made begun := by
  obtain ⟨bin, hbin⟩ := (ensureDirectory_spec s t.fs).2 (by rw [h.ensured])
  rw [h.ensured] at hbin
  obtain ⟨file, hcreate⟩ := h.created
  have hbegun := createPartial_begun hbin hcreate
  obtain ⟨name, -, rfl, -⟩ := hbegun.name
  rw [List.dropLast_concat]
  exact ⟨hbin, file, hbegun⟩

theorem Begins.unique {own' : Location} {made' begun' : FileSystem}
    (h : s.Begins name t own made begun) (h' : s.Begins name t own' made' begun') :
    own = own' ∧ made = made' ∧ begun = begun' := by
  have hmade := h.ensured
  rw [h'.ensured] at hmade
  obtain rfl := (Prod.ext_iff.mp hmade).2
  obtain ⟨file, hcreate⟩ := h.created
  obtain ⟨file', hcreate'⟩ := h'.created
  rw [hcreate'] at hcreate
  cases hcreate
  exact ⟨rfl, rfl, rfl⟩

theorem Begins.replace_eq {file : Path} (h : s.Begins name t own made begun) (chunkSize : Nat)
    (source : Source) (hcreate : s.createPartial made = .ok (file, own, begun)) :
    s.replace name chunkSize source t = s.receiveAndInstall name chunkSize source file own
      ((t.restart.advance made).advance begun) := by
  have hensured : s.ensureDirectory t.restart.fs = (.ok (), made) := h.ensured
  have hcreated : s.createPartial (t.restart.advance made).fs = .ok (file, own, begun) := hcreate
  rw [Store.replace, if_pos h.accepted, hensured]
  simp only [hcreated]

theorem Begins.replace (h : s.Begins name t own made begun) (chunkSize : Nat) (source : Source) :
    ∃ file, s.Begun own.dropLast own file made begun ∧
      s.replace name chunkSize source t = s.receiveAndInstall name chunkSize source file own
        ((t.restart.advance made).advance begun) := by
  obtain ⟨hbin, -⟩ := h.dirAt
  obtain ⟨file, hcreate⟩ := h.created
  exact ⟨file, createPartial_begun hbin hcreate, h.replace_eq chunkSize source hcreate⟩

/-- A replacement that does not begin fails, whatever the stream is, and has created directories at
most. -/
theorem replace_eq_of_not_begins (hnot : ∀ own made begun, ¬s.Begins name t own made begun) :
    ∃ e, ∀ chunkSize source, s.replace name chunkSize source t =
      (.error e, if accepts (bytesOf name) then t.restart.advance (s.ensureDirectory t.fs).2
        else t.restart) := by
  simp only [Store.replace]
  by_cases haccepts : accepts (bytesOf name) = true
  · simp only [if_pos haccepts]
    have hfs : t.restart.fs = t.fs := rfl
    rw [hfs]
    rcases hensure : s.ensureDirectory t.fs with ⟨_ | _, made⟩
    · exact ⟨_, fun _ _ => rfl⟩
    · have hmade : (t.restart.advance made).fs = made := rfl
      simp only [hmade]
      cases hcreate : s.createPartial made with
      | error e => exact ⟨_, fun _ _ => rfl⟩
      | ok r =>
        obtain ⟨file, own, begun⟩ := r
        exact absurd ⟨haccepts, hensure, file, hcreate⟩ (hnot own made begun)
  · simp only [if_neg haccepts]
    exact ⟨_, fun _ _ => rfl⟩

theorem replace_of_not_begins (chunkSize : Nat) (source : Source)
    (hnot : ∀ own made begun, ¬s.Begins name t own made begun) :
    (∃ e, (s.replace name chunkSize source t).1 = .error e) ∧
      (s.replace name chunkSize source t).2.fs =
        if accepts (bytesOf name) then (s.ensureDirectory t.fs).2 else t.fs := by
  obtain ⟨e, hfailed⟩ := replace_eq_of_not_begins hnot
  rw [hfailed]
  refine ⟨⟨e, rfl⟩, ?_⟩
  simp only
  split
  · rfl
  · rfl

theorem harmless_of_shares {acts : List (FileSystem × Act)}
    (h : ∀ met ∈ acts, Shares own met.1 met.2) :
    HarmlessActs own (Beside own.dropLast own) acts := by
  intro met hmet fs hfresh heq
  exact (heq ▸ h met hmet : Shares own (fs.emptied own) met.2).harmless hfresh

/-- If a replacement fails, nothing is left of it but directories on the way to that of the binary,
and not even those if the name is refused. The rest of the tree is what the others alone leave,
beside an empty partial file, and that is gone. Reading the directory in the end is taken to
succeed. -/
theorem replace_atomic (h : s.replace name chunkSize source t = (.error e, t'))
    (hothers : ∀ own made begun, s.Begins name t own made begun →
      ∀ met ∈ source.acts t.cancelled begun, Shares own met.1 met.2)
    (hlist : ∀ own made begun, s.Begins name t own made begun →
      ∃ names, t'.fs.readDir s.binDir = .ok names) :
    MadeWay s.binDir t.fs (s.ensureDirectory t.fs).2 ∧
      (accepts (bytesOf name) = false → t'.fs = t.fs) ∧
      (accepts (bytesOf name) = true → (∀ own made begun, ¬s.Begins name t own made begun) →
        t'.fs = (s.ensureDirectory t.fs).2) ∧
      ∀ own made begun, s.Begins name t own made begun →
        made.DirAt s.binDir own.dropLast ∧ made.entry? own = none ∧
          begun = made.put own (.file ⟨[], 0⟩) ∧
          t'.fs = (outcome (source.acts t.cancelled begun) begun).erase own := by
  refine ⟨(ensureDirectory_spec s t.fs).1, fun hrefused => ?_, fun haccepts hnot => ?_, ?_⟩
  · have hnot : ∀ own made begun, ¬s.Begins name t own made begun := by
      intro own made begun hbegins
      rw [hbegins.accepted] at hrefused
      cases hrefused
    have hleft := (replace_of_not_begins chunkSize source hnot).2
    rwa [h, hrefused, if_neg Bool.false_ne_true] at hleft
  · have hleft := (replace_of_not_begins chunkSize source hnot).2
    rwa [h, if_pos haccepts] at hleft
  · intro own made begun hbegins
    obtain ⟨file, hbegun, hrun⟩ := hbegins.replace chunkSize source
    rw [hrun] at h
    refine ⟨hbegins.dirAt.1, hbegun.missing, hbegun.tree, ?_⟩
    exact receiveAndInstall_error (t := (t.restart.advance made).advance begun) hbegun rfl
      (fun hnew => hnew.1 rfl) (harmless_of_shares (hothers own made begun hbegins)) h
      (hlist own made begun hbegins)

/-! ### A store with an old binary, and a neighbour -/

/-- The store below `/m`. -/
def sampleStore : Store := ⟨[47, 109]⟩

/-- A tree with an old binary in that store. -/
def sampleTree : FileSystem where
  entries := [([[109]], .dir), ([[109], [98, 105, 110]], .dir),
    ([[109], [98, 105, 110], [111]], .file ⟨[7], 10⟩)]

/-- The place of the first partial file in that tree. -/
def sampleOwn : Location :=
  [[109], [98, 105, 110],
    [46, 100, 111, 119, 110, 108, 111, 97, 100, 45, 121, 105, 54, 49, 67, 118]]

/-- A stream during which another process installs a binary. -/
def sampleSource (rest : Source) : Source :=
  .data [1] :: .outside (sampleStore.rival "r" [2]) :: rest

theorem sample_begins : sampleStore.Begins "e" { fs := sampleTree } sampleOwn sampleTree
    (sampleTree.put sampleOwn (.file ⟨[], 0⟩)) where
  accepted := by decide +kernel
  ensured := by decide +kernel
  created := ⟨sampleStore.pathOf (sampleOwn.getLast?.getD []), by decide +kernel⟩

theorem sample_shares (rest : Source) (hrest : ∀ cancelled fs, rest.actsFrom cancelled fs = [])
    (own : Location) (made begun : FileSystem)
    (h : sampleStore.Begins "e" { fs := sampleTree } own made begun) :
    ∀ met ∈ (sampleSource rest).acts false begun, Shares own met.1 met.2 := by
  obtain ⟨rfl, rfl, rfl⟩ := h.unique sample_begins
  intro met hmet
  simp only [sampleSource, Source.acts, Source.actsFrom, hrest, Bool.false_eq_true, if_false,
    ite_self, List.isEmpty_cons, Bool.or_false, List.mem_singleton] at hmet
  obtain rfl := hmet
  exact .install sampleStore "r" [2] (by constructor <;> decide +kernel) (by decide +kernel)

theorem replace_atomic_broken_stream :
    (sampleStore.replace "e" 4 (sampleSource [.fail "reset"]) { fs := sampleTree }).2.fs =
      (outcome ((sampleSource [.fail "reset"]).acts false
        (sampleTree.put sampleOwn (.file ⟨[], 0⟩)))
        (sampleTree.put sampleOwn (.file ⟨[], 0⟩))).erase sampleOwn := by
  have hfails : (sampleStore.replace "e" 4 (sampleSource [.fail "reset"]) { fs := sampleTree }).1 =
      .error (.fetch (.brokenStream "e" 1 "reset")) := by decide +kernel
  have hlist : (sampleStore.replace "e" 4 (sampleSource [.fail "reset"])
      { fs := sampleTree }).2.fs.readDir sampleStore.binDir = .ok [[114]] := by decide +kernel
  have hatomic := replace_atomic (Prod.ext hfails rfl)
    (sample_shares [.fail "reset"] fun _ _ => rfl) fun _ _ _ _ => ⟨_, hlist⟩
  exact (hatomic.2.2.2 _ _ _ sample_begins).2.2.2

/-! ## Success -/

/-- What stands before the sweep: the others have left `left`, and the partial file, if it was
spared, has become the binary. -/
structure Placed (s : Store) (name : Name) (source : Source) (bin own : Location)
    (left mid : FileSystem) : Prop where
  dirAt : mid.DirAt s.binDir bin
  tree : left.entry? own = none ∧ mid = left.erase own ∨
    left.entry? own ≠ none ∧ left.resolve false (s.pathOf name) = .ok (bin ++ [name]) ∧
      left.entry? (bin ++ [name]) ≠ some .dir ∧ ∃ bytes, source.contents = .ok bytes ∧
        mid = (left.erase own).put (bin ++ [name]) (.file ⟨bytes, 0⟩)

namespace Placed

variable {bin : Location} {left mid : FileSystem} {key : Name}

private theorem workDir (h : s.Placed key source bin own left mid) :
    mid.workDir = left.workDir := by
  rcases h.tree with ⟨-, rfl⟩ | ⟨-, -, -, bytes, -, rfl⟩ <;> rfl

theorem unchanged (h : s.Placed key source bin own left mid) (hroot : own ≠ []) {loc : Location}
    (hplace : loc ≠ bin ++ [key]) (hown : loc ≠ own) : mid.entry? loc = left.entry? loc := by
  rcases h.tree with ⟨-, rfl⟩ | ⟨-, -, -, bytes, -, rfl⟩
  · rw [entry?_erase hroot, if_neg hown]
  · rw [entry?_put (by simp), if_neg hplace, entry?_erase hroot, if_neg hown]

private theorem later (h : s.Placed key source bin own left mid) {loc : Location} {entry : Entry}
    (hentry : mid.entry? loc = some entry) :
    left.entry? loc = some entry ∨ loc = bin ++ [key] ∧ ∃ bytes, entry = .file ⟨bytes, 0⟩ := by
  rcases h.tree with ⟨-, rfl⟩ | ⟨-, -, -, bytes, -, rfl⟩
  · exact Or.inl (of_entry?_erase hentry)
  · rw [entry?_put (by simp)] at hentry
    split at hentry
    · next heq => exact Or.inr ⟨heq, bytes, (Option.some.inj hentry).symm⟩
    · exact Or.inl (of_entry?_erase hentry)

theorem onlyFilesAt (h : s.Placed key source bin own left mid) :
    OnlyFilesAt (fun loc => loc = bin ++ [key]) left mid := by
  intro loc entry hentry
  exact (h.later hentry).imp_right fun ⟨hloc, bytes, hfile⟩ => ⟨hloc, _, hfile⟩

private theorem isFresh (h : s.Placed key source bin own left mid) {other : Name} {f g : File}
    (hleft : left.file? (s.pathOf other) = some f) (hfresh : IsFresh other f)
    (hmid : mid.file? (s.pathOf other) = some g) : IsFresh other g := by
  have hsame : left.file? (s.pathOf other) = some g → IsFresh other g := by
    intro hold
    rw [hold] at hleft
    exact Option.some.inj hleft ▸ hfresh
  have hwork := h.workDir
  rcases h.tree with ⟨-, rfl⟩ | ⟨-, -, -, bytes, -, rfl⟩
  · have hshrunk : Shrunk left (left.erase own) := OnlyFilesAt.erase _ _ _
    exact hsame (hshrunk.file_before hwork hmid)
  · obtain ⟨loc, hloc, hentry⟩ := file?_eq_some_iff.mp hmid
    rcases resolve_of_later hwork h.onlyFilesAt hloc hentry with ⟨rfl, -⟩ | ⟨hold, hentry'⟩
    · rw [entry?_put (by simp), if_pos rfl] at hentry
      cases hentry
      refine ⟨hfresh.1, ?_⟩
      change (0 : Int) < 3600
      decide
    · exact hsame (file?_eq_some_iff.mpr ⟨loc, hold, hentry'⟩)

variable {names : List Name} {fs : FileSystem}

theorem binary (h : s.Placed key source bin own left mid) (hkey : Path.IsPlain key)
    (hswept : s.Swept bin key names mid fs) (hspared : left.entry? own ≠ none) :
    ∃ bytes, source.contents = .ok bytes ∧ fs.entry? (bin ++ [key]) = some (.file ⟨bytes, 0⟩) ∧
      fs.file? (s.pathOf key) = some ⟨bytes, 0⟩ := by
  have hleft := h.dirAt.of_later h.workDir h.onlyFilesAt
  rcases h.tree with ⟨hnone, -⟩ | ⟨-, hloc, -, bytes, hcontents, rfl⟩
  · exact absurd hnone hspared
  have hentry : fs.entry? (bin ++ [key]) = some (.file ⟨bytes, 0⟩) := by
    rcases hswept.entries (bin ++ [key]) with hsame | ⟨-, -, other, f, heq, -, hother, -⟩
    · rw [hsame, entry?_put (by simp), if_pos rfl]
    · obtain rfl : other = key := by simpa using heq.symm
      exact absurd rfl hother
  obtain ⟨hspelled, hlength, -⟩ := (resolve_pathOf hkey hleft).mp hloc
  have hloc' := (resolve_pathOf hkey hswept.dirAt).mpr ⟨hspelled, hlength, rfl⟩
  have hlink : ∀ target, fs.entry? (bin ++ [key]) ≠ some (.link target) := by
    rw [hentry]
    exact fun target => nofun
  exact ⟨bytes, hcontents, hentry,
    file?_eq_some_iff.mpr ⟨_, resolve_followed hloc' hlink, hentry⟩⟩

theorem dir (h : s.Placed key source bin own left mid) (hroot : own ≠ [])
    (hown : left.entry? own ≠ some .dir) (hswept : s.Swept bin key names mid fs) {loc : Location}
    (hdir : left.entry? loc = some .dir) : fs.entry? loc = some .dir := by
  have hne : loc ≠ own := by
    rintro rfl
    exact hown hdir
  have hmid : mid.entry? loc = some .dir := by
    rcases h.tree with ⟨-, rfl⟩ | ⟨-, -, hplace, -⟩
    · rw [entry?_erase hroot, if_neg hne, hdir]
    · rw [h.unchanged hroot _ hne, hdir]
      rintro rfl
      exact hplace hdir
  rcases hswept.entries loc with hsame | ⟨-, hnot, -⟩
  · rw [hsame, hmid]
  · exact absurd hmid hnot

private theorem outside (h : s.Placed key source bin own left mid) (hroot : own ≠ [])
    (hswept : s.Swept bin key names mid fs) {loc : Location} (hown : loc ≠ own)
    (hloc : ∀ other, loc ≠ bin ++ [other]) : fs.entry? loc = left.entry? loc := by
  rcases hswept.entries loc with hsame | ⟨-, -, other, f, heq, -⟩
  · rw [hsame, h.unchanged hroot (hloc key) hown]
  · exact absurd heq (hloc other)

private theorem fresh (h : s.Placed key source bin own left mid) (hroot : own ≠ [])
    (hswept : s.Swept bin key names mid fs) {other : Name} {f : File} (hkey : other ≠ key)
    (hown : bin ++ [other] ≠ own) (hfile : left.file? (s.pathOf other) = some f)
    (hfresh : IsFresh other f) : fs.entry? (bin ++ [other]) = left.entry? (bin ++ [other]) := by
  rcases hswept.entries (bin ++ [other]) with hsame | ⟨-, -, other', g, heq, hmid, -, hnot⟩
  · have hplace : bin ++ [other] ≠ bin ++ [key] := fun heq => hkey (by simpa using heq)
    rw [hsame, h.unchanged hroot hplace hown]
  · obtain rfl : other = other' := by simpa using heq
    exact absurd (h.isFresh hfile hfresh hmid) hnot

end Placed

theorem within_of_later {file : Path} {bin : Location} {left : FileSystem}
    (hbegun : s.Begun bin own file made begun)
    (hleft : OnlyFilesAt (fun loc => loc = own ∨ Beside bin own loc) begun left) :
    OnlyFilesAt (Within bin) made left := by
  have hcreated : OnlyFilesAt (fun loc => loc = own ∨ Beside bin own loc) made begun := by
    rw [hbegun.tree]
    exact OnlyFilesAt.put (ne_root_of_missing hbegun.missing) (Or.inl rfl) _
  obtain ⟨draw, hdraw, hown, -⟩ := hbegun.name
  refine (hcreated.trans hleft).mono ?_
  rintro loc (rfl | ⟨-, hwithin⟩)
  · exact ⟨draw, hdraw, hown⟩
  · exact hwithin

theorem ready_of_later {bin : Location} {mid : FileSystem} (hmade : made.IsTree)
    (hdir : made.DirAt s.binDir bin) (hlater : OnlyFilesAt (Within bin) made mid) :
    mid.Passable bin ∧ ∀ other ∈ mid.names bin, Path.IsPlain other := by
  constructor
  · intro above entry habove hentry
    rcases hlater above entry hentry with hold | ⟨⟨other, -, rfl⟩, -⟩
    · exact hmade.passable hdir above entry habove hold
    · have hlength := habove.length_le
      simp at hlength
  · intro other hother
    obtain ⟨entry, hentry⟩ := Option.ne_none_iff_exists'.mp (mem_names.mp hother)
    rcases hlater _ entry hentry with hold | ⟨⟨other', hplain, heq⟩, -⟩
    · exact hmade.plain bin other (by rw [hold]; nofun)
    · obtain rfl : other = other' := by simpa using heq
      exact hplain

/-- If a replacement succeeds, it answers with the path of the binary. If the others have spared the
partial file, the binary holds exactly what the stream yields. The only files in the directory are
then the binary and fresh partial files. No directory, nothing in one, and no fresh partial file of
another process has been touched since the others left it. -/
theorem replace_installs (h : s.replace name chunkSize source t = (.ok path, t'))
    (htree : t.fs.IsTree)
    (hothers : ∀ own made begun, s.Begins name t own made begun →
      ∀ met ∈ source.acts t.cancelled begun, Shares own met.1 met.2) :
    path = s.pathOf (bytesOf name) ∧ ∃ own made begun, s.Begins name t own made begun ∧
      let bin := own.dropLast
      let left := outcome (source.acts t.cancelled begun) begun
      t'.fs.DirAt s.binDir bin ∧
        (left.entry? own ≠ none → ∃ bytes, source.contents = .ok bytes ∧
          t'.fs.entry? (bin ++ [bytesOf name]) = some (.file ⟨bytes, 0⟩) ∧
          t'.fs.file? path = some ⟨bytes, 0⟩) ∧
        (∀ other ∈ t'.fs.names bin, ∀ f, t'.fs.file? (s.pathOf other) = some f →
          other = bytesOf name ∨ IsFresh other f) ∧
        (∀ loc, left.entry? loc = some .dir → t'.fs.entry? loc = some .dir) ∧
        (∀ loc, (∀ other, loc ≠ bin ++ [other]) → t'.fs.entry? loc = left.entry? loc) ∧
        ∀ other f, other ≠ bytesOf name → bin ++ [other] ≠ own →
          left.file? (s.pathOf other) = some f → IsFresh other f →
          t'.fs.entry? (bin ++ [other]) = left.entry? (bin ++ [other]) := by
  by_cases hbegins : ∃ own made begun, s.Begins name t own made begun
  swap
  · obtain ⟨e, hfailed⟩ := (replace_of_not_begins chunkSize source
      fun own made begun hb => hbegins ⟨own, made, begun, hb⟩).1
    rw [h] at hfailed
    cases hfailed
  obtain ⟨own, made, begun, hbegins⟩ := hbegins
  obtain ⟨file, hbegun, hrun⟩ := hbegins.replace chunkSize source
  have hkey := accepts_iff.mp hbegins.accepted
  rw [hrun] at h
  obtain ⟨hpath, mid, hdir, rfl, hleft, hplaced⟩ :=
    receiveAndInstall_ok (t := (t.restart.advance made).advance begun) hbegun rfl
      (fun hnew => hnew.1 rfl) (harmless_of_shares (hothers own made begun hbegins)) hkey h
  have hplaced : s.Placed (bytesOf name) source own.dropLast own _ mid.fs := ⟨hdir, hplaced⟩
  have hroot : own ≠ [] := ne_root_of_missing hbegun.missing
  have hmade : made.IsTree := by
    have hway := (ensureDirectory_spec s t.fs).1
    rw [hbegins.ensured] at hway
    exact htree.madeWay hway
  have hcome := within_of_later hbegun hleft
  have hmid : OnlyFilesAt (Within own.dropLast) made mid.fs :=
    hcome.trans (hplaced.onlyFilesAt.mono fun loc hloc => ⟨_, hkey, hloc⟩)
  obtain ⟨hpass, hplain⟩ := ready_of_later hmade hbegins.dirAt.1 hmid
  have hswept : s.Swept own.dropLast (bytesOf name) (mid.fs.names own.dropLast) mid.fs _ :=
    sweep_swept hpass hdir hplain
  have hnotDir :
      FileSystem.entry? (outcome (source.acts t.cancelled begun) begun) own ≠ some .dir := by
    intro hentry
    rcases hcome own _ hentry with hold | ⟨-, f, hfile⟩
    · rw [hbegun.missing] at hold
      cases hold
    · cases hfile
  refine ⟨hpath, own, made, begun, hbegins, hswept.dirAt, fun hspared => ?_, ?_, ?_, ?_, ?_⟩
  · rw [hpath]
    exact hplaced.binary hkey hswept hspared
  · intro other hother f hfile
    obtain ⟨entry, hentry⟩ := Option.ne_none_iff_exists'.mp (mem_names.mp hother)
    have hbefore := hswept.shrunk.entry_before hentry
    exact hswept.files other (mem_names.mpr (by rw [hbefore]; nofun)) f hfile
  · exact fun loc hdir' => hplaced.dir hroot hnotDir hswept hdir'
  · intro loc hloc
    obtain ⟨draw, -, hown, -⟩ := hbegun.name
    exact hplaced.outside hroot hswept (fun heq => hloc draw (heq.trans hown)) hloc
  · exact fun other f hother hne hfile hfresh =>
      hplaced.fresh hroot hswept hother hne hfile hfresh

private theorem sample_isTree : sampleTree.IsTree := isTree_of_entries (by decide) rfl

theorem replace_installs_beside_neighbour : ∃ bytes,
    (sampleSource [.data [3]]).contents = .ok bytes ∧
      (sampleStore.replace "e" 4 (sampleSource [.data [3]]) { fs := sampleTree }).2.fs.file?
        (sampleStore.pathOf [101]) = some ⟨bytes, 0⟩ := by
  have hdone : (sampleStore.replace "e" 4 (sampleSource [.data [3]]) { fs := sampleTree }).1 =
      .ok (sampleStore.pathOf [101]) := by decide +kernel
  have hrest : ∀ cancelled fs, Source.actsFrom [.data [3]] cancelled fs = [] := by
    intro cancelled fs
    cases cancelled <;> rfl
  obtain ⟨-, own, made, begun, hbegins, -, hbinary, -⟩ :=
    replace_installs (Prod.ext hdone rfl) sample_isTree (sample_shares [.data [3]] hrest)
  obtain ⟨rfl, rfl, rfl⟩ := hbegins.unique sample_begins
  obtain ⟨bytes, hcontents, -, hfile⟩ := hbinary (by decide +kernel)
  exact ⟨bytes, hcontents, hfile⟩

end EngineClient.Store
