import Mathlib
import EngineClient.Proofs.Store.Journal
import EngineClient.Proofs.Store.Regular
import EngineClient.Proofs.Store.Rivals

/-!
# Crashes

An installation may stop after each of its steps, and the tree that it has reached then stays. A
journal of these trees shows that each is a good one where the directory of the binary holds no
links: a search finds a binary whenever it did before, and whatever it finds is as it was before or
holds all of the stream. From the renaming on the new binary is there under its name, in whatever
order the sweep goes through the directory.
-/

namespace EngineClient

variable {t t' : Transfer} {own : Location} {source : Source} {chunkSize : Nat}

namespace Store

open FileSystem

variable {s : Store} {bin : Location} {made begun fs fs' mid : FileSystem} {name : String}
variable {key draw other : Name} {bytes : Bytes} {file : Path} {names : List Name} {v : Version}

/-! ## Before the renaming -/

/-- Only the partial file differs from the tree in which it was created. -/
structure Receiving (s : Store) (bin own : Location) (made fs : FileSystem) : Prop where
  regular : s.Regular bin fs
  partialFile : ∀ entry, fs.entry? own = some entry → ∃ f, entry = .file f
  others : ∀ loc, loc ≠ own → fs.entry? loc = made.entry? loc

private theorem Begun.receiving (h : s.Begun bin own file made begun) (hmade : s.Regular bin made) :
    s.Receiving bin own made made ∧ s.Receiving bin own made begun := by
  obtain ⟨draw, hdraw, rfl, -⟩ := h.name
  refine ⟨⟨hmade, ?_, fun _ _ => rfl⟩, ⟨?_, ?_, ?_⟩⟩
  · intro entry hentry
    rw [h.missing] at hentry
    cases hentry
  · rw [h.tree]
    exact hmade.put hdraw (by rw [h.missing]; nofun) _
  · intro entry hentry
    rw [h.entry?_own] at hentry
    exact ⟨_, (Option.some.inj hentry).symm⟩
  · intro loc hloc
    rw [h.tree, entry?_put (by simp), if_neg hloc]

private theorem Receiving.not_dir (h : s.Receiving bin own made fs) :
    fs.entry? own ≠ some .dir := by
  intro hdir
  obtain ⟨f, hfile⟩ := h.partialFile _ hdir
  cases hfile

private theorem Receiving.append (h : s.Receiving bin (bin ++ [draw]) made fs) (data : Bytes) :
    s.Receiving bin (bin ++ [draw]) made (fs.append (bin ++ [draw]) data) := by
  have hentry : ∀ loc, FileSystem.entry? (fs.append (bin ++ [draw]) data) loc =
      if loc = bin ++ [draw] then (fs.entry? loc).map (Entry.extend data) else fs.entry? loc :=
    fun loc => entry?_modify (by simp) _
  have hown : ∀ entry, FileSystem.entry? (fs.append (bin ++ [draw]) data) (bin ++ [draw]) =
      some entry → fs.entry? (bin ++ [draw]) ≠ none ∧ ∃ f, entry = .file f := by
    intro entry hnew
    rw [hentry, if_pos rfl] at hnew
    obtain ⟨before, hbefore, rfl⟩ := Option.map_eq_some_iff.mp hnew
    obtain ⟨f, rfl⟩ := h.partialFile before hbefore
    exact ⟨by rw [hbefore]; nofun, _, rfl⟩
  refine ⟨h.regular.of_keptWays rfl (KeptWays.append (by simp) data) ?_,
    fun entry hnew => (hown entry hnew).2, fun loc hloc => ?_⟩
  · intro loc entry hnew
    by_cases hloc : loc = bin ++ [draw]
    · subst hloc
      obtain ⟨hstands, hfile⟩ := hown entry hnew
      exact Or.inr ⟨⟨draw, h.regular.plain draw hstands, rfl⟩, hfile⟩
    · rw [hentry, if_neg hloc] at hnew
      exact Or.inl hnew
  · rw [hentry, if_neg hloc, h.others loc hloc]

private theorem Receiving.erase (h : s.Receiving bin (bin ++ [draw]) made fs) :
    s.Receiving bin (bin ++ [draw]) made (fs.erase (bin ++ [draw])) where
  regular := h.regular.erase h.not_dir
  partialFile := fun entry hentry => h.partialFile entry (of_entry?_erase hentry)
  others := by
    intro loc hloc
    rw [entry?_erase (by simp), if_neg hloc, h.others loc hloc]

private theorem Begun.discard_goes (hbegun : s.Begun bin own file made begun)
    (h : s.Receiving bin own made t.fs) :
    Goes (s.Receiving bin own made) t (Store.discard file t) := by
  refine Store.discard_goes h fun fs hfs => ?_
  obtain ⟨loc, entry, hloc, -, -, rfl⟩ := removeFile_eq_ok_iff.mp hfs
  rw [hbegun.resolve_file h.regular.dirAt] at hloc
  obtain rfl := Except.ok.inj hloc
  obtain ⟨draw, -, rfl, -⟩ := hbegun.name
  exact h.erase

/-! ## From the renaming on -/

/-- The binary stands under its name, and all other files were there before. -/
structure Installing (s : Store) (bin : Location) (key : Name) (bytes : Bytes)
    (made fs : FileSystem) : Prop where
  regular : s.Regular bin fs
  spelled : (s.pathOf key).IsSpelled
  length : key.length ≤ maxName
  binary : fs.entry? (bin ++ [key]) = some (.file ⟨bytes, 0⟩)
  others : ∀ other f, other ≠ key → fs.entry? (bin ++ [other]) = some (.file f) →
    made.entry? (bin ++ [other]) = some (.file f)

private theorem Installing.file? (h : s.Installing bin key bytes made fs) :
    fs.file? (s.pathOf key) = some ⟨bytes, 0⟩ :=
  (h.regular.file?_iff.mpr ⟨h.spelled, h.length, h.binary⟩).1

private theorem Installing.erase (h : s.Installing bin key bytes made fs) (hother : other ≠ key)
    (hdir : fs.entry? (bin ++ [other]) ≠ some .dir) :
    s.Installing bin key bytes made (fs.erase (bin ++ [other])) where
  regular := h.regular.erase hdir
  spelled := h.spelled
  length := h.length
  binary := by
    have hne : bin ++ [key] ≠ bin ++ [other] := fun heq => hother (by simpa using heq.symm)
    rw [entry?_erase (by simp), if_neg hne, h.binary]
  others := fun name f hname hentry => h.others name f hname (of_entry?_erase hentry)

private theorem Installing.sweep_goes (h : s.Installing bin key bytes made t.fs)
    (hnames : ∀ name ∈ names, Path.IsPlain name) :
    Goes (s.Installing bin key bytes made) t (s.sweep key names t).2 := by
  induction names generalizing t with
  | nil => exact Goes.refl h
  | cons name rest ih =>
    have hrest : ∀ other ∈ rest, Path.IsPlain other :=
      fun other hother => hnames other (List.mem_cons_of_mem _ hother)
    by_cases hleft : s.isLeftover t.fs key name = true
    · obtain ⟨f, -, hkeep, -⟩ := isLeftover_iff.mp hleft
      obtain ⟨loc, hloc, hdir, hsweep⟩ := sweep_leftover rest hleft
      obtain ⟨-, -, rfl⟩ :=
        (resolve_pathOf (hnames name List.mem_cons_self) h.regular.dirAt).mp hloc
      have hnext : Goes (s.Installing bin key bytes made) t
          (t.advance (t.fs.erase (bin ++ [name]))) := Goes.advance (h.erase hkeep hdir)
      rw [hsweep]
      exact hnext.trans (ih hnext.arrives hrest)
    · rw [sweep_other hleft]
      exact ih h hrest

/-- The sweep may go through the directory in any order. -/
theorem Installing.sweep_perm (h : s.Installing bin key bytes made t.fs)
    (hnames : names.Perm (t.fs.names bin)) :
    Goes (s.Installing bin key bytes made) t (s.sweep key names t).2 :=
  h.sweep_goes fun name hname => h.regular.plain name (mem_names.mp (hnames.mem_iff.mp hname))

private theorem Begun.renamed (hbegun : s.Begun bin own file made begun)
    (h : s.Receiving bin own made fs) (hholds : fs.Holds own bytes) (hkey : Path.IsPlain key)
    (hpersist : s.persist file key fs = .ok mid) : s.Installing bin key bytes made mid := by
  obtain ⟨loc, entry, loc', hloc, hentry, -, hloc', hdir, rfl⟩ := moveFile_eq_ok_iff.mp hpersist
  rw [hbegun.resolve_file h.regular.dirAt] at hloc
  obtain rfl := Except.ok.inj hloc
  obtain rfl := hholds entry hentry
  obtain ⟨hspelled, hlength, rfl⟩ := (resolve_pathOf hkey h.regular.dirAt).mp hloc'
  obtain ⟨draw, -, rfl, -⟩ := hbegun.name
  have hdir' : FileSystem.entry? (fs.erase (bin ++ [draw])) (bin ++ [key]) ≠ some .dir :=
    fun hentry => hdir (of_entry?_erase hentry)
  refine ⟨(h.regular.erase h.not_dir).put hkey hdir' _, hspelled, hlength, ?_, ?_⟩
  · rw [entry?_put (by simp), if_pos rfl]
  · intro other f hother hfile
    have hne : bin ++ [other] ≠ bin ++ [key] := fun heq => hother (by simpa using heq)
    rw [entry?_put (by simp), if_neg hne] at hfile
    by_cases hdraw : other = draw
    · rw [hdraw, entry?_erase (by simp), if_pos rfl] at hfile
      cases hfile
    · have hne' : bin ++ [other] ≠ bin ++ [draw] := fun heq => hdraw (by simpa using heq)
      rw [entry?_erase (by simp), if_neg hne', h.others _ hne'] at hfile
      exact hfile

/-! ## The whole replacement -/

/-- The tree right after the renaming, if it comes to that. -/
def Renames (s : Store) (name : String) (chunkSize : Nat) (source : Source) (t : Transfer)
    (mid : FileSystem) : Prop :=
  ∃ own made begun file read, s.Begins name t own made begun ∧
    s.createPartial made = .ok (file, own, begun) ∧
    download own chunkSize source ((t.restart.advance made).advance begun) = (.complete, read) ∧
    read.received ≠ 0 ∧ s.persist file (bytesOf name) read.fs = .ok mid

private theorem Begins.renames_iff {ending : Ending} {read : Transfer}
    (hbegins : s.Begins name t own made begun)
    (hcreate : s.createPartial made = .ok (file, own, begun))
    (hread : download own chunkSize source ((t.restart.advance made).advance begun) =
      (ending, read)) :
    s.Renames name chunkSize source t mid ↔ ending = .complete ∧ read.received ≠ 0 ∧
      s.persist file (bytesOf name) read.fs = .ok mid := by
  constructor
  · rintro ⟨own', made', begun', file', read', hbegins', hcreate', hread', hne, hpersist⟩
    obtain ⟨rfl, rfl, rfl⟩ := hbegins.unique hbegins'
    rw [hcreate] at hcreate'
    cases hcreate'
    rw [hread] at hread'
    cases hread'
    exact ⟨rfl, hne, hpersist⟩
  · rintro ⟨rfl, hne, hpersist⟩
    exact ⟨own, made, begun, file, read, hbegins, hcreate, hread, hne, hpersist⟩

private theorem Renames.unique (h : s.Renames name chunkSize source t mid)
    (h' : s.Renames name chunkSize source t fs') : mid = fs' := by
  obtain ⟨own, made, begun, file, read, hbegins, hcreate, hread, -, hmid⟩ := h
  rw [((hbegins.renames_iff hcreate hread).mp h').2.2] at hmid
  exact (Except.ok.inj hmid).symm

private theorem Begun.download_goes (hbegun : s.Begun bin own file made begun) (ht : t.fs = begun)
    (hmade : s.Regular bin made) (hsource : source.IsUndisturbed) (chunkSize : Nat) :
    Goes (s.Receiving bin own made) t (download own chunkSize source t).2 ∧
      (download own chunkSize source t).2.fs.entry? own ≠ none ∧
      ∃ bytes, (download own chunkSize source t).2.fs.Holds own bytes ∧
        ((download own chunkSize source t).1 = .complete → source.contents = .ok bytes) := by
  obtain ⟨hemptied, -, -, hfresh⟩ := hbegun.alone ht chunkSize hsource
  have hnone : HarmlessActs own (fun _ => False) (source.acts t.cancelled begun) := by
    rw [hsource.acts_eq_nil]
    exact fun met hmet => absurd hmet List.not_mem_nil
  obtain ⟨bytes, hholds, hcontents⟩ := (hbegun.received ht id hnone chunkSize).holds
  obtain ⟨draw, -, rfl, -⟩ := hbegun.name
  refine ⟨?_, fun hgone => ?_, bytes, hholds, hcontents⟩
  · exact EngineClient.download_goes (fun _ data h => h.append data)
      (ht ▸ (hbegun.receiving hmade).2) hsource
  · rw [← hfresh.entry?_eq_none, hemptied, hbegun.entry?_own] at hgone
    cases hgone

/-- A replacement that has begun either never comes to the renaming, or it sweeps the directory
after it. -/
theorem Begins.replace_goes (hbegins : s.Begins name t own made begun)
    (hmade : s.Regular own.dropLast made) (hsource : source.IsUndisturbed) (chunkSize : Nat) :
    (Goes (s.Receiving own.dropLast own made) t (s.replace name chunkSize source t).2 ∧
        ∀ mid, ¬s.Renames name chunkSize source t mid) ∨
      ∃ mid read bytes, s.Renames name chunkSize source t mid ∧ source.contents = .ok bytes ∧
        Goes (s.Receiving own.dropLast own made) t read ∧
        s.Installing own.dropLast (bytesOf name) bytes made mid ∧
        s.replace name chunkSize source t = (.ok (s.pathOf (bytesOf name)),
          (s.sweep (bytesOf name) (mid.names own.dropLast) (read.advance mid)).2) := by
  obtain ⟨file, hcreate⟩ := hbegins.created
  have hbegun := createPartial_begun hbegins.dirAt.1 hcreate
  obtain ⟨hmade', hbegun'⟩ := hbegun.receiving hmade
  have hkey := accepts_iff.mp hbegins.accepted
  let t₂ := (t.restart.advance made).advance begun
  have hstart : Goes (s.Receiving own.dropLast own made) t t₂ := by
    have hgoes : Goes (s.Receiving own.dropLast own made) t.restart t₂ :=
      (Goes.advance hmade').trans (Goes.advance hbegun')
    exact ⟨hgoes.visits, hgoes.arrives⟩
  obtain ⟨hread, hstands, bytes, hholds, hcontents⟩ :=
    hbegun.download_goes (t := t₂) rfl hmade hsource chunkSize
  rw [hbegins.replace_eq chunkSize source hcreate, receiveAndInstall]
  cases hdownload : download own chunkSize source t₂ with
  | mk ending read =>
    have hrenames : ∀ mid, s.Renames name chunkSize source t mid ↔ ending = .complete ∧
        read.received ≠ 0 ∧ s.persist file (bytesOf name) read.fs = .ok mid :=
      fun mid => hbegins.renames_iff hcreate hdownload
    rw [hdownload] at hread hstands hholds hcontents
    have hreached := hstart.trans hread
    have hdiscarded := hreached.trans (hbegun.discard_goes hread.arrives)
    cases ending with
    | cancelled =>
      refine Or.inl ⟨hdiscarded, fun mid h => ?_⟩
      cases ((hrenames mid).mp h).1
    | failed reason =>
      refine Or.inl ⟨hdiscarded, fun mid h => ?_⟩
      cases ((hrenames mid).mp h).1
    | complete =>
      simp only
      by_cases hempty : read.received = 0
      · rw [if_pos hempty]
        exact Or.inl ⟨hdiscarded, fun mid h => ((hrenames mid).mp h).2.1 hempty⟩
      rw [if_neg hempty, install]
      cases hpersist : s.persist file (bytesOf name) read.fs with
      | ok mid =>
        have hmid := hbegun.renamed hread.arrives hholds hkey hpersist
        have hlist : (read.advance mid).fs.readDir s.binDir = .ok (mid.names own.dropLast) :=
          readDir_eq_ok_iff.mpr ⟨_, hmid.regular.dirAt, rfl⟩
        refine Or.inr ⟨mid, read, bytes, (hrenames mid).mpr ⟨rfl, hempty, hpersist⟩,
          hcontents rfl, hreached, hmid, ?_⟩
        simp only
        rw [settle, cleanUp, hlist]
        simp only
        rw [sweep_eq_ok]
      | error e =>
        have hfree : ¬read.fs.isFile (s.pathOf (bytesOf name)) = true := fun hfile => hstands
          (missing_of_persist_error hbegun hholds hread.arrives.regular.dirAt hpersist hfile)
        simp only [hfree, Bool.false_eq_true, if_false]
        refine Or.inl ⟨hdiscarded, fun mid h => ?_⟩
        rw [((hrenames mid).mp h).2.2] at hpersist
        cases hpersist

/-! ## What a crash leaves -/

/-- What a search finds in a tree that an installation has stopped at: a binary if there was one
before, and none but whole ones. -/
structure Survives (s : Store) (source : Source) (old fs : FileSystem) : Prop where
  found : ∀ a, s.installed? old = .ok (some a) → ∃ a', s.installed? fs = .ok (some a')
  whole : ∀ a, s.installed? fs = .ok (some a) → ∃ name loc f,
    s.Installed fs name a.version ∧ a.location = lossyString (s.pathOf (bytesOf name)) ∧
      fs.resolve true (s.pathOf (bytesOf name)) = .ok loc ∧ fs.entry? loc = some (.file f) ∧
      (old.entry? loc = some (.file f) ∨ source.contents = .ok f.data)

/-- The binary stands under its name with all of the stream. -/
def Complete (s : Store) (name : String) (source : Source) (fs : FileSystem) : Prop :=
  ∃ bytes, source.contents = .ok bytes ∧ fs.file? (s.pathOf (bytesOf name)) = some ⟨bytes, 0⟩

private theorem dirAt_of_found {a : Asset} (h : s.installed? fs = .ok (some a)) :
    ∃ bin, fs.DirAt s.binDir bin := by
  cases installed?_finds h with
  | binary hname =>
    obtain ⟨names, hread, -⟩ := hname.listed
    obtain ⟨bin, hbin, -⟩ := readDir_eq_ok_iff.mp hread
    exact ⟨bin, hbin⟩

private theorem survives_of_no_directory (hmade : (s.ensureDirectory t.fs).2 = made)
    (hnot : ∀ bin, ¬made.DirAt s.binDir bin) : s.Survives source t.fs made where
  found := by
    intro a ha
    obtain ⟨bin, hbin⟩ := dirAt_of_found ha
    rw [ensureDirectory_of_dirAt hbin] at hmade
    exact absurd (hmade ▸ hbin) (hnot bin)
  whole := by
    intro a ha
    obtain ⟨bin, hbin⟩ := dirAt_of_found ha
    exact absurd hbin (hnot bin)

private theorem survives_of_regular (hmade : (s.ensureDirectory t.fs).2 = made)
    (h : s.Regular bin fs) (hwhole : ∀ text v f, Version.ofFileName? text = some v →
      fs.entry? (bin ++ [bytesOf text]) = some (.file f) →
      made.entry? (bin ++ [bytesOf text]) = some (.file f) ∨ source.contents = .ok f.data)
    (hstays : ∀ text v, s.Installed made text v → ∃ text v, s.Installed fs text v) :
    s.Survives source t.fs fs where
  found := by
    intro a ha
    obtain ⟨bin', hbin'⟩ := dirAt_of_found ha
    rw [ensureDirectory_of_dirAt hbin'] at hmade
    obtain rfl : t.fs = made := hmade
    cases installed?_finds ha with
    | binary hname =>
      obtain ⟨text, v, hinstalled⟩ := hstays _ _ hname
      exact installed?_of_installed hinstalled
  whole := by
    intro a ha
    cases installed?_finds ha with
    | @binary name v hname =>
      obtain ⟨hversion, hspelled, hlength, f, hentry⟩ := h.installed_iff.mp hname
      have hplain := h.plain (bytesOf name) (by rw [hentry]; nofun)
      refine ⟨name, _, f, hname, rfl,
        resolve_pathOf_file hplain h.dirAt hspelled hlength hentry, hentry, ?_⟩
      refine (hwhole name v f hversion hentry).imp_left fun hfile => ?_
      have hway := (ensureDirectory_spec s t.fs).1
      rw [hmade] at hway
      rcases hway.entries (bin ++ [bytesOf name]) with hsame | ⟨-, q, -, hdir⟩
      · rw [← hsame, hfile]
      · rw [hdir.2] at hfile
        cases hfile

private theorem Receiving.survives (hmade : (s.ensureDirectory t.fs).2 = made)
    (hregular : s.Regular bin made) (hpartial : isPartialName draw = true)
    (h : s.Receiving bin (bin ++ [draw]) made fs) : s.Survives source t.fs fs := by
  have hsame : ∀ text v, Version.ofFileName? text = some v →
      fs.entry? (bin ++ [bytesOf text]) = made.entry? (bin ++ [bytesOf text]) := by
    intro text v hversion
    refine h.others _ fun heq => ?_
    obtain rfl : bytesOf text = draw := by simpa using heq
    rw [not_isPartialName hversion] at hpartial
    cases hpartial
  refine survives_of_regular hmade h.regular (fun text v f hversion hentry => ?_)
    fun text v hinstalled => ⟨text, v, ?_⟩
  · rw [hsame text v hversion] at hentry
    exact Or.inl hentry
  · rw [hregular.installed_iff] at hinstalled
    rw [h.regular.installed_iff, hsame text v hinstalled.1]
    exact hinstalled

private theorem Installing.survives (hmade : (s.ensureDirectory t.fs).2 = made)
    (hversion : Version.ofFileName? name = some v) (hbytes : source.contents = .ok bytes)
    (h : s.Installing bin (bytesOf name) bytes made fs) :
    s.Survives source t.fs fs ∧ s.Complete name source fs := by
  refine ⟨survives_of_regular hmade h.regular (fun text w f _ hentry => ?_)
    fun _ _ _ => ⟨name, v, ?_⟩, bytes, hbytes, h.file?⟩
  · by_cases hname : bytesOf text = bytesOf name
    · rw [hname, h.binary] at hentry
      cases hentry
      exact Or.inr hbytes
    · exact Or.inl (h.others _ f hname hentry)
  · exact h.regular.installed_iff.mpr ⟨hversion, h.spelled, h.length, _, h.binary⟩

private theorem regular_of_ensured (htree : t.fs.IsTree) (hmade : (s.ensureDirectory t.fs).2 = made)
    (hbin : made.DirAt s.binDir bin)
    (hlinks : ∀ other target, t.fs.entry? (bin ++ [other]) ≠ some (.link target)) :
    s.Regular bin made := by
  have hway := (ensureDirectory_spec s t.fs).1
  rw [hmade] at hway
  refine ⟨hbin, (htree.madeWay hway).plain bin, fun other target hlink => ?_⟩
  rcases hway.entries (bin ++ [other]) with hsame | ⟨-, q, -, hdir⟩
  · exact hlinks other target (hsame ▸ hlink)
  · rw [hdir.2] at hlink
    cases hlink

/-- A replacement that fails before it has a partial file has created directories at most. -/
theorem replace_visited_of_not_begins (haccepted : accepts (bytesOf name) = true)
    (hstart : t.visited = some [t.fs])
    (hnot : ∀ own made begun, ¬s.Begins name t own made begun) (chunkSize : Nat)
    (source : Source) : (s.replace name chunkSize source t).2.visited =
      some [(s.ensureDirectory t.fs).2, t.fs] := by
  obtain ⟨e, hfailed⟩ := replace_eq_of_not_begins hnot
  have hrestart : t.restart.visited = some [t.fs] := hstart
  rw [hfailed, if_pos haccepted, Transfer.visited_advance, hrestart]
  rfl

private theorem survives_ensured (htree : t.fs.IsTree) (hmade : (s.ensureDirectory t.fs).2 = made)
    (hlinks : ∀ bin, made.DirAt s.binDir bin →
      ∀ other target, t.fs.entry? (bin ++ [other]) ≠ some (.link target)) :
    s.Survives source t.fs made := by
  by_cases hdir : ∃ bin, made.DirAt s.binDir bin
  · obtain ⟨bin, hbin⟩ := hdir
    exact survives_of_regular hmade (regular_of_ensured htree hmade hbin (hlinks bin hbin))
      (fun _ _ _ _ => Or.inl) fun text v hinstalled => ⟨text, v, hinstalled⟩
  · exact survives_of_no_directory hmade fun bin hbin => hdir ⟨bin, hbin⟩

/-- Where the directory of the binary holds no links and nobody else is at work, each tree that a
replacement passes through survives a crash. From the renaming on the binary is complete, in
whatever order the directory is swept. -/
theorem replace_crash_safe (haccepted : accepts (bytesOf name) = true)
    (hversion : Version.ofFileName? name = some v) (htree : t.fs.IsTree)
    (hlinks : ∀ bin, (s.ensureDirectory t.fs).2.DirAt s.binDir bin →
      ∀ other target, t.fs.entry? (bin ++ [other]) ≠ some (.link target))
    (hsource : source.IsUndisturbed) (hjournal : t.journal = some []) (chunkSize : Nat) :
    ∃ states, (s.replace name chunkSize source t).2.visited = some (states ++ [t.fs]) ∧
      (∀ fs ∈ states, s.Survives source t.fs fs) ∧
      ∀ mid, s.Renames name chunkSize source t mid →
        (∃ after before, states = after ++ mid :: before ∧
          ∀ fs ∈ after ++ [mid], s.Complete name source fs) ∧
        ∀ bin names, mid.DirAt s.binDir bin → names.Perm (mid.names bin) →
          ∃ order, (s.sweep (bytesOf name) names { fs := mid, journal := some [] }).2.visited =
              some (order ++ [mid]) ∧
            ∀ fs ∈ order, s.Survives source t.fs fs ∧ s.Complete name source fs := by
  generalize hmade : (s.ensureDirectory t.fs).2 = made at hlinks
  have hstart : t.visited = some [t.fs] := by rw [Transfer.visited, hjournal]; rfl
  by_cases hbegins : ∃ own made begun, s.Begins name t own made begun
  · obtain ⟨own, made', begun, hbegins⟩ := hbegins
    obtain rfl : made' = made := by rw [← hmade, hbegins.ensured]
    obtain ⟨draw, -, hpartial, hown⟩ := hbegins.drawn
    have hregular := regular_of_ensured htree hmade hbegins.dirAt.1 (hlinks _ hbegins.dirAt.1)
    have hreceiving : ∀ fs, s.Receiving own.dropLast own made' fs → s.Survives source t.fs fs :=
      fun fs h => (hown ▸ h : s.Receiving own.dropLast (own.dropLast ++ [draw]) made' fs).survives
        hmade hregular hpartial
    rcases hbegins.replace_goes hregular hsource chunkSize with
      ⟨hgoes, hnever⟩ | ⟨mid, read, bytes, hrenames, hbytes, hread, hmid, hrun⟩
    · obtain ⟨states, hvisited, hstates⟩ := hgoes.states hstart
      exact ⟨states, hvisited, fun fs hfs => hreceiving fs (hstates fs hfs),
        fun mid hmid => absurd hmid (hnever mid)⟩
    · have hinstalling : ∀ fs, s.Installing own.dropLast (bytesOf name) bytes made' fs →
          s.Survives source t.fs fs ∧ s.Complete name source fs :=
        fun fs h => h.survives hmade hversion hbytes
      obtain ⟨before, hbefore, hstates⟩ := hread.states hstart
      have hadvance : (read.advance mid).visited = some (mid :: before ++ [t.fs]) := by
        rw [Transfer.visited_advance, hbefore]
        rfl
      have hswept : Goes (s.Installing own.dropLast (bytesOf name) bytes made') (read.advance mid)
          (s.sweep (bytesOf name) (mid.names own.dropLast) (read.advance mid)).2 :=
        Installing.sweep_perm hmid (List.Perm.refl _)
      obtain ⟨after, hafter, hstates'⟩ := hswept.states hadvance
      rw [hrun]
      refine ⟨after ++ mid :: before, by simpa using hafter, ?_, ?_⟩
      · intro fs hfs
        rcases List.mem_append.mp hfs with hfs | hfs
        · exact (hinstalling fs (hstates' fs hfs)).1
        rcases List.mem_cons.mp hfs with rfl | hfs
        · exact (hinstalling fs hmid).1
        · exact hreceiving fs (hstates fs hfs)
      · intro mid' hmid'
        obtain rfl := hrenames.unique hmid'
        refine ⟨⟨after, before, rfl, fun fs hfs => ?_⟩, fun bin names hbin hnames => ?_⟩
        · rcases List.mem_append.mp hfs with hfs | hfs
          · exact (hinstalling fs (hstates' fs hfs)).2
          · obtain rfl := List.mem_singleton.mp hfs
            exact (hinstalling fs hmid).2
        · obtain rfl := hbin.unique hmid.regular.dirAt
          let first : Transfer := { fs := mid, journal := some [] }
          have hswept' : Goes (s.Installing own.dropLast (bytesOf name) bytes made') first
              (s.sweep (bytesOf name) names first).2 := Installing.sweep_perm hmid hnames
          obtain ⟨order, horder, hstates''⟩ := hswept'.states (rfl : first.visited = some [mid])
          exact ⟨order, horder, fun fs hfs => hinstalling fs (hstates'' fs hfs)⟩
  · have hnot : ∀ own made begun, ¬s.Begins name t own made begun :=
      fun own made begun h => hbegins ⟨own, made, begun, h⟩
    have hmade' : s.Survives source t.fs made := survives_ensured htree hmade hlinks
    refine ⟨[made], ?_, by simpa using hmade', ?_⟩
    · rw [replace_visited_of_not_begins haccepted hstart hnot, hmade]
      rfl
    · rintro mid ⟨own, made', begun, -, -, hbegin, -⟩
      exact absurd hbegin (hnot own made' begun)

/-! ### An upgrade of the sample store -/

/-- A tree with a binary of an old version in that store. -/
def agedTree : FileSystem where
  entries := [([[109]], .dir), ([[109], [98, 105, 110]], .dir),
    ([[109], [98, 105, 110], bytesOf "1.0.0-e"], .file ⟨[7], 10⟩)]

/-- The same tree with both binaries, as it is right after the renaming. -/
def doubledTree : FileSystem where
  entries := [([[109], [98, 105, 110], bytesOf "2.0.0-e"], .file ⟨[1, 2, 3], 0⟩), ([[109]], .dir),
    ([[109], [98, 105, 110]], .dir), ([[109], [98, 105, 110], bytesOf "1.0.0-e"], .file ⟨[7], 10⟩)]

private theorem aged_renames : sampleStore.Renames "2.0.0-e" 2 [.data [1, 2, 3]]
    { fs := agedTree, journal := some [] } doubledTree := by
  have hcreate : sampleStore.createPartial agedTree =
      .ok (sampleStore.pathOf (sampleOwn.getLast?.getD []), sampleOwn,
        agedTree.put sampleOwn (.file ⟨[], 0⟩)) := by decide +kernel
  refine ⟨sampleOwn, agedTree, _, _, _, ⟨by decide +kernel, by decide +kernel, _, hcreate⟩, hcreate,
    Prod.ext (by decide +kernel) rfl, by decide +kernel, by decide +kernel⟩

theorem replace_crash_safe_upgrade : ∃ states,
    (sampleStore.replace "2.0.0-e" 2 [.data [1, 2, 3]]
        { fs := agedTree, journal := some [] }).2.visited = some (states ++ [agedTree]) ∧
      doubledTree ∈ states ∧ sampleStore.Complete "2.0.0-e" [.data [1, 2, 3]] doubledTree ∧
      ∀ fs ∈ states, ∃ a, sampleStore.installed? fs = .ok (some a) := by
  have hlinks : ∀ bin, (sampleStore.ensureDirectory agedTree).2.DirAt sampleStore.binDir bin →
      ∀ other target, agedTree.entry? (bin ++ [other]) ≠ some (.link target) := by
    intro bin _ other target hlink
    have hmem := mem_entries (by simp) hlink
    simp [agedTree] at hmem
  have hversion : Version.ofFileName? "2.0.0-e" = some ⟨2, 0, 0, none, none⟩ := by decide +kernel
  obtain ⟨states, hvisited, hsurvives, hrenamed⟩ := replace_crash_safe
    (t := { fs := agedTree, journal := some [] }) (by decide +kernel) hversion
    (isTree_of_entries (by decide +kernel) rfl) hlinks (isUndisturbed_data [1, 2, 3]) rfl 2
  obtain ⟨⟨after, before, hsplit, hcomplete⟩, -⟩ := hrenamed doubledTree aged_renames
  have hfound : sampleStore.installed? agedTree =
      .ok (some ⟨⟨1, 0, 0, none, none⟩, "/m/bin/1.0.0-e"⟩) := by decide +kernel
  exact ⟨states, hvisited, by simp [hsplit], hcomplete doubledTree (by simp),
    fun fs hfs => (hsurvives fs hfs).found _ hfound⟩

end Store

end EngineClient
