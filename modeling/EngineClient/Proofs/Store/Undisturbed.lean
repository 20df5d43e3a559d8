import Mathlib
import EngineClient.Proofs.Store.Succession

/-!
# Replacements by streams that nobody disturbs

While nobody else acts, a replacement that does not receive all of a binary leaves the tree as it
was when the directory was there. One that does brings the binary, unless its name cannot be given
to a file.
-/

namespace EngineClient.Store

open FileSystem

variable {s : Store} {name : String} {chunkSize : Nat} {source : Source} {t : Transfer}
variable {own bin : Location} {made begun fs₁ fs₂ : FileSystem} {file : Path} {bytes : Bytes}

/-- A name can be given to a file: it leads to a place where no directory is. -/
def Places (s : Store) (fs : FileSystem) (name : Name) : Prop :=
  ∃ loc, fs.resolve false (s.pathOf name) = .ok loc ∧ fs.entry? loc ≠ some .dir

/-- Whether the directory of the binary can be read. -/
def Readable (s : Store) (fs : FileSystem) : Prop := ∃ names, fs.readDir s.binDir = .ok names

private theorem discard_download (hbegun : s.Begun bin own file fs₁ fs₂) (ht : t.fs = fs₂)
    (hsource : source.IsUndisturbed) (chunkSize : Nat) :
    (discard file (download own chunkSize source t).2).fs = fs₁ := by
  obtain ⟨hemptied, -, hbin, hfresh⟩ := hbegun.alone ht chunkSize hsource
  rw [hbegun.discard hbin hfresh, ← erase_emptied, hemptied, hbegun.erase]

theorem shares_of_isUndisturbed (own : Location) (hsource : source.IsUndisturbed)
    (cancelled : Bool) (fs : FileSystem) :
    ∀ met ∈ source.acts cancelled fs, Shares own met.1 met.2 := by
  rw [hsource.acts_eq_nil]
  exact fun met hmet => absurd hmet List.not_mem_nil

/-- What has been received into the partial file before the replacement ends. -/
structure Alone (s : Store) (own : Location) (file : Path) (made begun : FileSystem)
    (t : Transfer) : Prop where
  began : s.Begun own.dropLast own file made begun
  emptied : t.fs.emptied own = begun
  dirAt : t.fs.DirAt s.binDir own.dropLast
  fresh : t.fs.FreshAt own
  discarded : (discard file t).fs = made

theorem Begins.replace_undisturbed (hbegins : s.Begins name t own made begun)
    (hsource : source.IsUndisturbed) (chunkSize : Nat) :
    ∃ file t', s.Alone own file made begun t' ∧
      Counts source 0 (source.ending t.cancelled begun, t') ∧
      s.replace name chunkSize source t =
        match source.ending t.cancelled begun with
        | .cancelled => (.error .cancelled, discard file t')
        | .failed reason =>
          (.error (.fetch (.brokenStream name t'.received reason)), discard file t')
        | .complete =>
          if t'.received = 0 then (.error (.fetch (.emptyBody name)), discard file t')
          else s.install file (bytesOf name) t' := by
  obtain ⟨file, hbegun, hrun⟩ := hbegins.replace chunkSize source
  let t₂ := (t.restart.advance made).advance begun
  have ht₂ : t₂.fs = begun := rfl
  obtain ⟨hemptied, -, hdir, hfresh⟩ := hbegun.alone ht₂ chunkSize hsource
  have hdiscarded := discard_download hbegun ht₂ hsource chunkSize
  have hending : (download own chunkSize source t₂).1 = source.ending t.cancelled begun :=
    hbegun.ending (t := t₂) ht₂ (shares_of_isUndisturbed own hsource _ _) chunkSize
  have hcounts := download_counts own chunkSize source t₂
  rw [hrun, receiveAndInstall, ← hending]
  generalize download own chunkSize source t₂ = read at *
  refine ⟨file, read.2, ⟨hbegun, hemptied, hdir, hfresh, hdiscarded⟩, hcounts, ?_⟩
  rcases read with ⟨_ | _ | reason, t'⟩
  · rfl
  · rfl
  · rfl

private theorem Alone.entry?_eq_dir (h : s.Alone own file made begun t) (loc : Location) :
    t.fs.entry? loc = some .dir ↔ made.entry? loc = some .dir := by
  rw [← h.fresh.entry?_eq_dir, h.emptied, h.began.tree,
    entry?_put (ne_root_of_missing h.began.missing)]
  split
  · next heq => simp [heq, h.began.missing]
  · exact Iff.rfl

private theorem Alone.persist_iff {key : Name} (h : s.Alone own file made begun t)
    (hmade : made.DirAt s.binDir own.dropLast) (hkey : Path.IsPlain key) :
    (∃ fs, s.persist file key t.fs = .ok fs) ↔ s.Places made key := by
  constructor
  · rintro ⟨fs, hpersist⟩
    obtain ⟨loc, entry, loc', -, -, -, hloc', hdir, -⟩ := moveFile_eq_ok_iff.mp hpersist
    have hplace := (resolve_pathOf hkey h.dirAt).mp hloc'
    exact ⟨loc', (resolve_pathOf hkey hmade).mpr hplace,
      fun hmem => hdir ((h.entry?_eq_dir _).mpr hmem)⟩
  · rintro ⟨loc, hloc, hdir⟩
    have hplace := (resolve_pathOf hkey hmade).mp hloc
    obtain ⟨entry, hentry⟩ : ∃ entry, t.fs.entry? own = some entry := by
      refine Option.ne_none_iff_exists'.mp fun hnone => ?_
      rw [← h.fresh.entry?_eq_none, h.emptied, h.began.entry?_own] at hnone
      cases hnone
    obtain ⟨data, rfl⟩ := h.fresh entry hentry
    exact ⟨_, moveFile_eq_ok_iff.mpr ⟨own, _, loc, h.began.resolve_file h.dirAt, hentry, nofun,
      (resolve_pathOf hkey h.dirAt).mpr hplace, fun hmem => hdir ((h.entry?_eq_dir _).mp hmem),
      rfl⟩⟩

private theorem Alone.places_of_isFile {key : Name} (h : s.Alone own file made begun t)
    (hmade : made.DirAt s.binDir own.dropLast) (hkey : Path.IsPlain key)
    (hfile : t.fs.isFile (s.pathOf key) = true) : s.Places made key := by
  obtain ⟨loc, hloc, hdir, -⟩ := removeFile_of_isFile hfile
  exact ⟨loc, (resolve_pathOf hkey hmade).mpr ((resolve_pathOf hkey h.dirAt).mp hloc),
    fun hmem => hdir ((h.entry?_eq_dir _).mpr hmem)⟩

/-- Settling fails exactly where the directory cannot be read. -/
theorem settle_cases (s : Store) (key : Name) (t : Transfer) :
    (s.settle key t).1 = .ok (s.pathOf key) ∨
      ¬s.Readable (s.settle key t).2.fs ∧ ∃ e, (s.settle key t).1 = .error (.io e) := by
  rw [settle, cleanUp]
  cases hread : t.fs.readDir s.binDir with
  | error e =>
    refine Or.inr ⟨?_, e, rfl⟩
    rintro ⟨names, hnames⟩
    rw [hread] at hnames
    cases hnames
  | ok names =>
    left
    simp only
    rw [sweep_eq_ok]

section Ends

variable (hbegins : s.Begins name t own made begun) (hsource : source.IsUndisturbed)
variable (chunkSize : Nat)

include hbegins hsource

theorem Begins.replace_cancelled (h : source.ending t.cancelled begun = .cancelled) :
    (s.replace name chunkSize source t).1 = .error .cancelled ∧
      (s.replace name chunkSize source t).2.fs = made := by
  obtain ⟨file, t', hread, -, hrun⟩ := hbegins.replace_undisturbed hsource chunkSize
  rw [hrun, h]
  exact ⟨rfl, hread.discarded⟩

theorem Begins.replace_failed {reason : String}
    (h : source.ending t.cancelled begun = .failed reason) :
    (∃ count, (s.replace name chunkSize source t).1 =
        .error (.fetch (.brokenStream name count reason))) ∧
      (s.replace name chunkSize source t).2.fs = made := by
  obtain ⟨file, t', hread, -, hrun⟩ := hbegins.replace_undisturbed hsource chunkSize
  rw [hrun, h]
  exact ⟨⟨_, rfl⟩, hread.discarded⟩

theorem Begins.replace_empty (h : source.ending t.cancelled begun = .complete)
    (hempty : source.contents = .ok []) :
    (s.replace name chunkSize source t).1 = .error (.fetch (.emptyBody name)) ∧
      (s.replace name chunkSize source t).2.fs = made := by
  obtain ⟨file, t', hread, hcounts, hrun⟩ := hbegins.replace_undisturbed hsource chunkSize
  obtain ⟨bytes, hbytes, hcount⟩ := hcounts h
  rw [hempty] at hbytes
  obtain rfl := Except.ok.inj hbytes
  have hzero : t'.received = 0 := hcount
  rw [hrun, h]
  simp only [hzero, if_true]
  exact ⟨trivial, hread.discarded⟩

/-- The ways in which a replacement may end that has received a binary. -/
inductive Installs (s : Store) (name : Name) (bytes : Bytes) (bin : Location)
    (made : FileSystem) : Except Error Path → FileSystem → Prop
  /-- The name cannot be given to a file, and nothing has changed. -/
  | unplaced {e : IoError} (hplaces : ¬s.Places made name) :
      Installs s name bytes bin made (.error (.io e)) made
  /-- What stood under the name was a link on the way to the directory. -/
  | cutOff {e : IoError} {fs : FileSystem} (hplaces : s.Places made name)
      (hread : ¬s.Readable fs) : Installs s name bytes bin made (.error (.io e)) fs
  | installed {mid fs : FileSystem} (hplaces : s.Places made name)
      (hswept : s.Swept bin name (mid.names bin) mid fs)
      (hentry : fs.entry? (bin ++ [name]) = some (.file ⟨bytes, 0⟩))
      (hfile : fs.file? (s.pathOf name) = some ⟨bytes, 0⟩) :
      Installs s name bytes bin made (.ok (s.pathOf name)) fs

theorem Begins.replace_complete (htree : t.fs.IsTree)
    (h : source.ending t.cancelled begun = .complete) (hbytes : source.contents = .ok bytes)
    (hne : bytes ≠ []) :
    Installs s (bytesOf name) bytes own.dropLast made (s.replace name chunkSize source t).1
      (s.replace name chunkSize source t).2.fs := by
  obtain ⟨file, t', hread, hcounts, hrun⟩ := hbegins.replace_undisturbed hsource chunkSize
  obtain ⟨bytes', hbytes', hcount⟩ := hcounts h
  rw [hbytes] at hbytes'
  obtain rfl := Except.ok.inj hbytes'
  have hreceived : ¬t'.received = 0 := by
    have hlength := List.length_pos_iff.mpr hne
    change t'.received = 0 + bytes.length at hcount
    omega
  have hkey := accepts_iff.mp hbegins.accepted
  have hmade := hbegins.dirAt.1
  rw [h] at hrun
  simp only [if_neg hreceived] at hrun
  by_cases hplaces : s.Places made (bytesOf name)
  · obtain ⟨fs, hpersist⟩ := (hread.persist_iff hmade hkey).mpr hplaces
    have hsettle : s.replace name chunkSize source t = s.settle (bytesOf name) (t'.advance fs) := by
      rw [hrun, install, hpersist]
    -- The new binary may have taken the place of a link that the way to the directory led over.
    rcases settle_cases s (bytesOf name) (t'.advance fs) with hok | ⟨hnot, e, herror⟩
    · rw [← hsettle] at hok
      have hothers := shares_of_isUndisturbed own hsource t.cancelled begun
      obtain ⟨-, -, mid, hplaced, hswept⟩ :=
        hbegins.replace_ok htree hothers (Prod.ext hok rfl)
      have hspared :
          FileSystem.entry? (outcome (source.acts t.cancelled begun) begun) own ≠ none := by
        rw [hsource.acts_eq_nil, outcome_nil, hread.began.entry?_own]
        exact Option.some_ne_none _
      obtain ⟨bytes'', hbytes'', hentry, hfile⟩ := hplaced.binary hkey hswept hspared
      rw [hbytes] at hbytes''
      obtain rfl := Except.ok.inj hbytes''
      rw [hok]
      exact .installed hplaces hswept hentry hfile
    · rw [hsettle, herror]
      exact .cutOff hplaces hnot
  · have hnot : ∀ fs, s.persist file (bytesOf name) t'.fs ≠ .ok fs :=
      fun fs hok => hplaces ((hread.persist_iff hmade hkey).mp ⟨fs, hok⟩)
    have hinstalled : ¬t'.fs.isFile (s.pathOf (bytesOf name)) = true :=
      fun hfile => hplaces (hread.places_of_isFile hmade hkey hfile)
    rw [hrun, install]
    cases hpersist : s.persist file (bytesOf name) t'.fs with
    | ok fs => exact absurd hpersist (hnot fs)
    | error e =>
      simp only [hinstalled, Bool.false_eq_true, if_false]
      rw [hread.discarded]
      exact .unplaced hplaces

end Ends

end EngineClient.Store
