import Mathlib
import EngineClient.Proofs.Store.Undisturbed

/-!
# Rivals

Other processes install binaries with versions while a stream is received. Each that succeeds spares
the own partial file, as that is a fresh one, and brings nothing but its binary. So after any number
of them the files that have come are binaries that they have installed.
-/

namespace EngineClient

open FileSystem

/-- What a rival does: a store of the same directory installs a binary with a version. -/
inductive Contends (bin : Location) (fs : FileSystem) : Act → Prop
  | install (s : Store) (name : String) (data : Bytes) {v : Version} (hbin : fs.DirAt s.binDir bin)
      (hversion : Version.ofFileName? name = some v) : Contends bin fs (s.rival name data)

/-- The places that files come to while one is received: its own and those of the binaries that
others install. -/
def Arrives (own : Location) (acts : List (FileSystem × Act)) (loc : Location) : Prop :=
  loc = own ∨ ∃ (s : Store) (name : String) (data : Bytes) (fs : FileSystem),
    (fs, s.rival name data) ∈ acts ∧ loc = own.dropLast ++ [bytesOf name]

/-- The trees that are passed through as others act. -/
def moments (acts : List (FileSystem × Act)) (fs : FileSystem) : List FileSystem :=
  fs :: acts.map fun met => (met.2 met.1).1

variable {fs fs' made begun : FileSystem} {bin own : Location} {act : Act} {source : Source}
variable {acts : List (FileSystem × Act)} {cancelled : Bool} {draw : Name} {new : Location → Prop}

namespace Store

variable {s : Store} {name : String} {data : Bytes} {t : Transfer} {v : Version} {f : File}

theorem Begins.drawn (h : s.Begins name t own made begun) :
    ∃ draw, Path.IsPlain draw ∧ isPartialName draw = true ∧ own = own.dropLast ++ [draw] := by
  obtain ⟨hbin, file, hbegun⟩ := h.dirAt
  obtain ⟨file', hcreate⟩ := h.created
  obtain ⟨draw, hplain, hown, -⟩ := hbegun.name
  obtain ⟨draw', hpartial, hown'⟩ := createPartial_drawn hbin hcreate
  obtain rfl : draw = draw' := by simpa using hown.symm.trans hown'
  exact ⟨draw, hplain, hpartial, hown⟩

/-- An installation that succeeds spares the fresh partial files of others. -/
theorem replace_spares {chunkSize : Nat} {path : Path} {t' : Transfer} (htree : t.fs.IsTree)
    (hbin : t.fs.DirAt s.binDir bin) (hdraw : Path.IsPlain draw) (hother : draw ≠ bytesOf name)
    (hentry : t.fs.entry? (bin ++ [draw]) = some (.file f)) (hfresh : IsFresh draw f)
    (hsource : source.IsUndisturbed)
    (h : s.replace name chunkSize source t = (.ok path, t')) :
    t'.fs.entry? (bin ++ [draw]) = some (.file f) ∧
      ∀ loc, t.fs.entry? loc = some .dir → t'.fs.entry? loc = some .dir := by
  obtain ⟨own, made, begun, hbegins⟩ := begins_of_ok h
  obtain ⟨hdir, file, hbegun⟩ := hbegins.dirAt
  have hmade := hbegins.ensured
  rw [ensureDirectory_of_dirAt hbin] at hmade
  obtain rfl : t.fs = made := (Prod.ext_iff.mp hmade).2
  obtain rfl := hbin.unique hdir
  obtain ⟨-, -, mid, hplaced, hswept⟩ :=
    hbegins.replace_ok htree (shares_of_isUndisturbed own hsource _ _) h
  rw [hsource.acts_eq_nil, outcome_nil] at hplaced
  have hroot : own ≠ [] := ne_root_of_missing hbegun.missing
  have hkept : ∀ loc, t.fs.entry? loc ≠ none → begun.entry? loc = t.fs.entry? loc := by
    intro loc hloc
    rw [hbegun.tree, entry?_put hroot, if_neg]
    rintro rfl
    exact hloc hbegun.missing
  constructor
  · refine hswept.spares hplaced.dirAt hdraw ?_ hfresh
    rw [hplaced.unchanged hroot (fun heq => hother (by simpa using heq)), hkept _, hentry]
    · rw [hentry]
      nofun
    · intro heq
      rw [heq, hbegun.missing] at hentry
      cases hentry
  · intro loc hloc
    refine hplaced.dir hroot (by rw [hbegun.entry?_own]; nofun) hswept ?_
    rw [hkept _ (by rw [hloc]; nofun), hloc]

private theorem rival_spares (htree : fs.IsTree) (hbin : fs.DirAt s.binDir bin)
    (hdraw : Path.IsPlain draw) (hother : draw ≠ bytesOf name)
    (hentry : fs.entry? (bin ++ [draw]) = some (.file f)) (hfresh : IsFresh draw f)
    (h : (s.rival name data fs).2 = none) :
    (s.rival name data fs).1.IsTree ∧
      FileSystem.entry? (s.rival name data fs).1 (bin ++ [draw]) = some (.file f) := by
  obtain ⟨hwork, hlater⟩ := rival_brings name data hbin
  have hnew : ∀ dir key, (Path.IsPlain (bytesOf name) ∧ dir ++ [key] = bin ++ [bytesOf name]) →
      Path.IsPlain key := by
    rintro dir key ⟨hplain, heq⟩
    obtain ⟨-, rfl⟩ : dir = bin ∧ key = bytesOf name := by simpa using heq
    exact hplain
  rw [rival] at h hwork hlater ⊢
  rcases hrun : s.replace name rivalChunk [.data data] { fs } with ⟨e | path, t'⟩
  · rw [hrun] at h
    cases h
  · rw [hrun] at hwork hlater
    obtain ⟨hspared, hdirs⟩ := replace_spares (t := { fs }) htree hbin hdraw hother hentry hfresh
      (isUndisturbed_data data) hrun
    exact ⟨htree.of_later hwork hlater hnew hdirs, hspared⟩

end Store

/-! ## Runs of rivals -/

/-- What rivals make of a tree after the own file has been created in it. -/
structure Contended (own : Location) (new : Location → Prop) (made fs : FileSystem) : Prop where
  isTree : fs.IsTree
  own : fs.entry? own = some (.file ⟨[], 0⟩)
  workDir : fs.workDir = made.workDir
  later : OnlyFilesAt new made fs

theorem Store.Begun.contended {s : Store} {file : Path} (h : s.Begun bin own file made begun)
    (htree : made.IsTree) (acts : List (FileSystem × Act)) :
    Contended own (Arrives own acts) made begun := by
  have hroot := ne_root_of_missing h.missing
  have hlater : OnlyFilesAt (fun loc => loc = own) made begun := by
    rw [h.tree]
    apply OnlyFilesAt.put hroot
    rfl
  have hwork : begun.workDir = made.workDir := by
    rw [h.tree]
    rfl
  obtain ⟨draw, hplain, hown, -⟩ := h.name
  refine ⟨htree.of_later hwork hlater ?_ ?_, h.entry?_own, hwork, hlater.mono fun _ => Or.inl⟩
  · intro dir name heq
    obtain ⟨-, rfl⟩ : dir = bin ∧ name = draw := by simpa using heq.trans hown
    exact hplain
  · intro loc hloc
    rw [h.tree, entry?_put hroot, if_neg, hloc]
    rintro rfl
    rw [h.missing] at hloc
    cases hloc

theorem Contends.shares (h : Contends own.dropLast fs act)
    (hpartial : Store.isPartialName draw = true) (hown : own = own.dropLast ++ [draw]) :
    Shares own fs act := by
  cases h with
  | install s name data hbin hversion =>
    refine .install s name data hbin fun heq => ?_
    obtain rfl : bytesOf name = draw := by simpa using heq.trans hown
    rw [Store.not_isPartialName hversion] at hpartial
    cases hpartial

/-- A rival that succeeds keeps the own file and brings its binary. -/
theorem Contended.step (h : Contended own (Arrives own acts) made fs)
    (hdraw : Path.IsPlain draw) (hpartial : Store.isPartialName draw = true)
    (hown : own = own.dropLast ++ [draw]) (hmem : (fs, act) ∈ acts)
    (hact : Contends own.dropLast fs act) (hreport : (act fs).2 = none) :
    Contended own (Arrives own acts) made (act fs).1 := by
  cases hact with
  | install s name data hbin hversion =>
    have hother : draw ≠ bytesOf name := by
      rintro rfl
      rw [Store.not_isPartialName hversion] at hpartial
      cases hpartial
    have hfresh : Store.IsFresh draw ⟨[], 0⟩ := ⟨hpartial, by decide⟩
    obtain ⟨hwork, hlater⟩ := Store.rival_brings name data hbin
    obtain ⟨htree, hspared⟩ :=
      Store.rival_spares h.isTree hbin hdraw hother (hown ▸ h.own) hfresh hreport
    refine ⟨htree, hown ▸ hspared, hwork.trans h.workDir, h.later.trans (hlater.mono ?_)⟩
    rintro loc ⟨-, rfl⟩
    exact Or.inr ⟨s, name, data, fs, hmem, rfl⟩

/-- Rivals that succeed one after the other keep the own file and bring their binaries. -/
theorem contended_moments (hdraw : Path.IsPlain draw) (hpartial : Store.isPartialName draw = true)
    (hown : own = own.dropLast ++ [draw])
    (hstart : Contended own (Arrives own (source.acts cancelled begun)) made begun)
    (hothers : ∀ met ∈ source.acts cancelled begun, Contends own.dropLast met.1 met.2)
    (hreports : ∀ met ∈ source.acts cancelled begun, (met.2 met.1).2 = none) :
    let acts := source.acts cancelled begun
    (∀ fs ∈ moments acts begun, Contended own (Arrives own acts) made fs) ∧
      Contended own (Arrives own acts) made (outcome acts begun) := by
  intro acts
  have hstep : ∀ met ∈ acts, Contended own (Arrives own acts) made met.1 →
      Contended own (Arrives own acts) made (met.2 met.1).1 :=
    fun met hmet h => h.step hdraw hpartial hown hmet (hothers met hmet) (hreports met hmet)
  obtain ⟨hmet, hlast⟩ := Source.acts_induction source cancelled hstart hstep
  refine ⟨fun fs hfs => ?_, hlast⟩
  rcases List.mem_cons.mp hfs with rfl | hfs
  · exact hstart
  · obtain ⟨met, hmem, rfl⟩ := List.mem_map.mp hfs
    exact hstep met hmem (hmet met hmem)

theorem Contended.arrived {s : Store} {other : String} {w : Version}
    (h : Contended own new made fs) (hinstalled : s.Installed fs other w)
    (hnot : ¬s.Installed made other w) :
    ∃ loc, fs.resolve true (s.pathOf (bytesOf other)) = .ok loc ∧ new loc := by
  obtain ⟨f, hfile⟩ := Option.isSome_iff_exists.mp hinstalled.isFile
  obtain ⟨loc, hloc, hentry⟩ := file?_eq_some_iff.mp hfile
  refine ⟨loc, hloc, ?_⟩
  by_contra hold
  have hbefore : made.isFile (s.pathOf (bytesOf other)) = true := by
    rcases resolve_of_later h.workDir h.later hloc hentry with ⟨hnew, -⟩ | ⟨hloc', hentry'⟩
    · exact absurd hnew hold
    · exact Option.isSome_iff_exists.mpr ⟨f, file?_eq_some_iff.mpr ⟨loc, hloc', hentry'⟩⟩
  obtain ⟨names, hread, hmem⟩ := hinstalled.listed
  obtain ⟨bin, hbin, rfl⟩ := readDir_eq_ok_iff.mp hread
  have hplain : Path.IsPlain (bytesOf other) := h.isTree.plain bin _ (mem_names.mp hmem)
  have hstands : made.entry? (bin ++ [bytesOf other]) ≠ none := by
    obtain ⟨entry, hstands⟩ := Option.ne_none_iff_exists'.mp (mem_names.mp hmem)
    rcases h.later _ entry hstands with hmade | ⟨hnew, g, rfl⟩
    · rw [hmade]
      nofun
    · obtain ⟨named, hnamed, hkind⟩ := named_of_resolve hloc hentry
      obtain rfl := ((Store.resolve_pathOf hplain hbin).mp hnamed).2.2
      rcases hkind with rfl | ⟨target, hlink⟩
      · exact absurd hnew hold
      · rw [hstands] at hlink
        cases hlink
  refine hnot ⟨⟨_, readDir_eq_ok_iff.mpr ⟨bin, ?_, rfl⟩, mem_names.mpr hstands⟩, hbefore,
    hinstalled.version⟩
  exact hbin.of_later h.workDir h.later

end EngineClient
