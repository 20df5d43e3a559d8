import Mathlib
import EngineClient.Proofs.Store.Rivals

/-!
# Installations that end at once

Several stores of one directory have each received a binary and take the last two steps of their
installations in any order: each gives its partial file the final name and then cleans up. A binary
is left in the end exactly if every cleaning after the last renaming keeps the name that has been
given there. Two installations of different names that are both renamed before either of them has
cleaned up remove each other.
-/

namespace EngineClient.Store

open FileSystem

/-- An installation that has received its binary into a partial file. -/
structure Pending where
  store : Store
  draw : Name
  name : String
  binary : File
deriving DecidableEq

namespace Pending

/-- The path that the installation answers with. -/
def target (p : Pending) : Path := p.store.pathOf (bytesOf p.name)

def rename (p : Pending) (fs : FileSystem) : Except IoError FileSystem :=
  p.store.persist (p.store.pathOf p.draw) (bytesOf p.name) fs

def tidy (p : Pending) (fs : FileSystem) : Except IoError FileSystem :=
  match p.store.cleanUp (bytesOf p.name) { fs } with
  | (.ok (), t) => .ok t.fs
  | (.error e, _) => .error e

end Pending

/-- One of the two steps that are left of an installation. -/
inductive Move where
  | rename (p : Pending)
  | tidy (p : Pending)
deriving DecidableEq

namespace Move

/-- The installation that a step belongs to. -/
def pending : Move → Pending
  | .rename p => p
  | .tidy p => p

def perform (fs : FileSystem) : Move → Except IoError FileSystem
  | .rename p => p.rename fs
  | .tidy p => p.tidy fs

/-- Takes steps one after the other. -/
def performAll (fs : FileSystem) : List Move → Except IoError FileSystem
  | [] => .ok fs
  | move :: rest =>
    match move.perform fs with
    | .ok fs => performAll fs rest
    | .error e => .error e

end Move

/-- Each installation takes its two steps once, and renames before it cleans up. -/
def IsOrder (moves : List Move) : Prop :=
  moves.Nodup ∧
    ∀ p, .rename p ∈ moves ∨ .tidy p ∈ moves → List.Sublist [.rename p, .tidy p] moves

/-- An installation that is about to end: its partial file lies complete in the directory, and its
name is one with a version. -/
structure Pending.Ready (bin : Location) (fs : FileSystem) (p : Pending) : Prop where
  dirAt : fs.DirAt p.store.binDir bin
  received : fs.entry? (bin ++ [p.draw]) = some (.file p.binary)
  plain : Path.IsPlain p.draw
  drawn : isPartialName p.draw = true
  version : ∃ v, Version.ofFileName? p.name = some v
  noSlash : '/' ∉ p.name.toList

variable {start fs mid fs' : FileSystem} {bin dir : Location} {p q last : Pending} {path : Path}
variable {move : Move} {moves before after rest done : List Move}

open Move

/-! ## The steps -/

private theorem performAll_cons : performAll fs (move :: rest) = .ok fs' ↔
    ∃ mid, move.perform fs = .ok mid ∧ performAll mid rest = .ok fs' := by
  rw [performAll]
  cases move.perform fs with
  | error e => simp
  | ok mid => simp

private theorem performAll_append : performAll fs (before ++ after) = .ok fs' ↔
    ∃ mid, performAll fs before = .ok mid ∧ performAll mid after = .ok fs' := by
  induction before generalizing fs with
  | nil => simp [performAll]
  | cons move rest ih =>
    rw [List.cons_append, performAll_cons]
    simp only [performAll_cons, ih]
    constructor
    · rintro ⟨next, hmove, mid, hrest, hafter⟩
      exact ⟨mid, ⟨next, hmove, hrest⟩, hafter⟩
    · rintro ⟨mid, ⟨next, hmove, hrest⟩, hafter⟩
      exact ⟨next, hmove, mid, hrest, hafter⟩

private theorem Pending.tidy_eq_ok_iff : p.tidy fs = .ok fs' ↔ ∃ bin, fs.DirAt p.store.binDir bin ∧
    fs' = (p.store.sweep (bytesOf p.name) (fs.names bin) { fs }).2.fs := by
  rw [tidy, cleanUp]
  cases hread : fs.readDir p.store.binDir with
  | error e =>
    simp only [reduceCtorEq, false_iff, not_exists, not_and]
    intro bin hbin
    rw [readDir_eq_ok_iff.mpr ⟨bin, hbin, rfl⟩] at hread
    cases hread
  | ok names =>
    obtain ⟨bin, hbin, rfl⟩ := readDir_eq_ok_iff.mp hread
    simp only
    rw [sweep_eq_ok]
    constructor
    · intro h
      exact ⟨bin, hbin, (Except.ok.inj h).symm⟩
    · rintro ⟨bin', hbin', rfl⟩
      rw [hbin.unique hbin']

/-- An installation of which nothing else comes between the two steps. -/
theorem install_of_performAll (h : performAll fs [.rename p, .tidy p] = .ok fs') :
    ∃ t, p.store.install (p.store.pathOf p.draw) (bytesOf p.name) { fs } = (.ok p.target, t) ∧
      t.fs = fs' := by
  obtain ⟨mid, hrename, h⟩ := performAll_cons.mp h
  obtain ⟨out, htidy, h⟩ := performAll_cons.mp h
  obtain rfl : out = fs' := Except.ok.inj h
  obtain ⟨bin, hbin, rfl⟩ := Pending.tidy_eq_ok_iff.mp htidy
  have hpersist : p.store.persist (p.store.pathOf p.draw) (bytesOf p.name) fs = .ok mid := hrename
  have hread : mid.readDir p.store.binDir = .ok (mid.names bin) :=
    readDir_eq_ok_iff.mpr ⟨bin, hbin, rfl⟩
  let t : Transfer := { fs }
  refine ⟨(p.store.sweep (bytesOf p.name) (mid.names bin) (t.advance mid)).2, ?_, rfl⟩
  have hread' : (t.advance mid).fs.readDir p.store.binDir = .ok (mid.names bin) := hread
  rw [install, hpersist]
  simp only
  rw [settle, cleanUp, hread']
  simp only
  rw [sweep_eq_ok]
  rfl

/-! ## What steps bring -/

/-- Since all binaries were complete, nothing but files has come. -/
structure Since (start fs : FileSystem) : Prop where
  workDir : fs.workDir = start.workDir
  later : OnlyFilesAt (fun _ => True) start fs

private theorem Since.refl (fs : FileSystem) : Since fs fs := ⟨rfl, OnlyFilesAt.refl _ fs⟩

private theorem Since.trans (h : Since start fs) (h' : Since fs fs') : Since start fs' :=
  ⟨h'.workDir.trans h.workDir, h.later.trans h'.later⟩

private theorem Since.dirAt (h : Since start fs) (hdir : fs.DirAt path dir) :
    start.DirAt path dir :=
  hdir.of_later h.workDir h.later

private theorem Pending.Ready.rename (hready : p.Ready bin start) (h : Since start fs)
    (hrename : p.rename fs = .ok fs') : ∃ loc loc' f, fs.entry? loc = some (.file f) ∧
      fs.resolve false (p.store.pathOf p.draw) = .ok loc ∧ fs.resolve false p.target = .ok loc' ∧
      fs.entry? loc' ≠ some .dir ∧ fs' = (fs.erase loc).put loc' (.file f) := by
  obtain ⟨loc, entry, loc', hloc, hentry, hdir, hloc', hdir', rfl⟩ :=
    moveFile_eq_ok_iff.mp hrename
  obtain ⟨f, rfl⟩ : ∃ f, entry = .file f := by
    rcases resolve_of_later h.workDir h.later hloc hentry with ⟨-, hfile⟩ | ⟨hold, hentry'⟩
    · exact hfile
    · obtain rfl := ((resolve_pathOf hready.plain hready.dirAt).mp hold).2.2
      rw [hready.received] at hentry'
      exact ⟨_, (Option.some.inj hentry').symm⟩
  exact ⟨loc, loc', f, hentry, hloc, hloc', hdir', rfl⟩

private theorem ne_root_of_not_dir {loc : Location} (h : fs.entry? loc ≠ some .dir) : loc ≠ [] := by
  rintro rfl
  exact h rfl

private theorem Since.perform (h : Since start fs) (hready : move.pending.Ready bin start)
    (hmove : move.perform fs = .ok fs') : Since fs fs' := by
  cases move with
  | rename p =>
    obtain ⟨loc, loc', f, -, -, -, hdir', rfl⟩ := Pending.Ready.rename hready h hmove
    exact ⟨rfl, (OnlyFilesAt.erase _ _ _).trans
      (OnlyFilesAt.put (ne_root_of_not_dir hdir') trivial f)⟩
  | tidy p =>
    obtain ⟨bin, -, rfl⟩ := Pending.tidy_eq_ok_iff.mp hmove
    obtain ⟨-, hwork, hshrunk⟩ := sweep_spec p.store (bytesOf p.name) (fs.names bin) { fs }
    exact ⟨hwork, hshrunk.mono fun _ => False.elim⟩

private theorem Since.performAll (h : Since start fs)
    (hready : ∀ move ∈ moves, move.pending.Ready bin start)
    (hrun : performAll fs moves = .ok fs') : Since fs fs' := by
  induction moves generalizing fs with
  | nil =>
    obtain rfl := Except.ok.inj hrun
    exact Since.refl fs
  | cons move rest ih =>
    obtain ⟨mid, hmove, hrest⟩ := performAll_cons.mp hrun
    have hfirst : Since fs mid := h.perform (hready move List.mem_cons_self) hmove
    exact hfirst.trans
      (ih (h.trans hfirst) (fun other hother => hready other (List.mem_cons_of_mem _ hother)) hrest)

private theorem Since.dirAt_of_tidy (h : Since start fs)
    (hready : ∀ move ∈ moves, move.pending.Ready bin start) (htidy : .tidy p ∈ moves)
    (hrun : Move.performAll fs moves = .ok fs') : fs.DirAt p.store.binDir bin := by
  have hp : p.Ready bin start := hready _ htidy
  obtain ⟨before, after, rfl⟩ := List.append_of_mem htidy
  obtain ⟨mid, hbefore, hafter⟩ := performAll_append.mp hrun
  obtain ⟨out, hmove, -⟩ := performAll_cons.mp hafter
  obtain ⟨bin', hbin', -⟩ := Pending.tidy_eq_ok_iff.mp hmove
  have hmid : Since fs mid :=
    h.performAll (fun move hmove => hready move (List.mem_append_left _ hmove)) hbefore
  have hdir := hmid.dirAt hbin'
  obtain rfl := hp.dirAt.unique (h.dirAt hdir)
  exact hdir

/-! ## Steps right in the directory -/

/-- A place right in a directory, under a name with a version. -/
def Versioned (bin loc : Location) : Prop :=
  ∃ (name : String) (v : Version), Version.ofFileName? name = some v ∧ '/' ∉ name.toList ∧
    loc = bin ++ [bytesOf name]

/-- What has come since all binaries were complete are files under names with a version. Where an
installation has renamed, a file stands if anything does. -/
structure Underway (bin : Location) (start : FileSystem) (done : List Move) (fs : FileSystem) :
    Prop where
  workDir : fs.workDir = start.workDir
  later : OnlyFilesAt (Versioned bin) start fs
  renamed : ∀ p, .rename p ∈ done → (bytesOf p.name).length ≤ maxName ∧
    ∀ entry, fs.entry? (bin ++ [bytesOf p.name]) = some entry → ∃ f, entry = .file f

private theorem Underway.refl (bin : Location) (fs : FileSystem) : Underway bin fs [] fs where
  workDir := rfl
  later := OnlyFilesAt.refl _ fs
  renamed := nofun

private theorem Underway.since (h : Underway bin start done fs) : Since start fs :=
  ⟨h.workDir, h.later.mono fun _ _ => trivial⟩

private theorem Pending.Ready.isPlain (h : p.Ready bin start) : Path.IsPlain (bytesOf p.name) := by
  obtain ⟨v, hv⟩ := h.version
  exact Version.isPlain_bytesOf hv h.noSlash

private theorem Pending.Ready.versioned (h : p.Ready bin start) :
    Versioned bin (bin ++ [bytesOf p.name]) := by
  obtain ⟨v, hv⟩ := h.version
  exact ⟨p.name, v, hv, h.noSlash, rfl⟩

private theorem Underway.rename (h : Underway bin start done fs) (hready : p.Ready bin start)
    (hbin : fs.DirAt p.store.binDir bin) (hrename : p.rename fs = .ok fs') :
    fs.entry? (bin ++ [bytesOf p.name]) ≠ some .dir ∧ p.target.IsSpelled ∧
      (bytesOf p.name).length ≤ maxName ∧
      fs' = (fs.erase (bin ++ [p.draw])).put (bin ++ [bytesOf p.name]) (.file p.binary) := by
  obtain ⟨loc, loc', f, hentry, hloc, hloc', hdir', rfl⟩ := hready.rename h.since hrename
  obtain rfl := ((resolve_pathOf hready.plain hbin).mp hloc).2.2
  obtain ⟨hspelled, hlength, rfl⟩ := (resolve_pathOf hready.isPlain hbin).mp hloc'
  refine ⟨hdir', hspelled, hlength, ?_⟩
  rcases h.later _ _ hentry with hold | ⟨⟨name, v, hv, -, heq⟩, -⟩
  · rw [hready.received] at hold
    cases hold
    rfl
  · have hdrawn := hready.drawn
    have hname : p.draw = bytesOf name := by simpa using heq
    rw [hname, not_isPartialName hv] at hdrawn
    cases hdrawn

private theorem Underway.tidy (h : Underway bin start done fs) (htree : start.IsTree)
    (hready : p.Ready bin start) (hbin : fs.DirAt p.store.binDir bin)
    (htidy : p.tidy fs = .ok fs') :
    p.store.Swept bin (bytesOf p.name) (fs.names bin) fs fs' ∧
      ∀ path dir, fs.DirAt path dir → fs'.DirAt path dir := by
  have hwithin : OnlyFilesAt (Within bin) start fs := by
    refine h.later.mono ?_
    rintro loc ⟨name, v, hv, hslash, heq⟩
    exact ⟨_, Version.isPlain_bytesOf hv hslash, heq⟩
  obtain ⟨hpass, hplain⟩ := ready_of_later htree hready.dirAt hwithin
  obtain ⟨bin', hbin', rfl⟩ := Pending.tidy_eq_ok_iff.mp htidy
  obtain rfl := hbin.unique hbin'
  exact ⟨sweep_swept (t := { fs }) hpass hbin hplain,
    fun path dir hdir => sweep_dirAt (t := { fs }) hpass hbin hplain hdir⟩

private theorem Underway.perform (h : Underway bin start done fs) (htree : start.IsTree)
    (hready : move.pending.Ready bin start) (hbin : fs.DirAt move.pending.store.binDir bin)
    (hmove : move.perform fs = .ok fs') : Underway bin start (done ++ [move]) fs' := by
  have hsince : Since fs fs' := h.since.perform hready hmove
  have hkept : ∀ p, .rename p ∈ done → (bytesOf p.name).length ≤ maxName ∧
      ∀ entry, fs'.entry? (bin ++ [bytesOf p.name]) = some entry → ∃ f, entry = .file f := by
    intro p hp
    obtain ⟨hlength, hfile⟩ := h.renamed p hp
    refine ⟨hlength, fun entry hentry => ?_⟩
    rcases hsince.later _ entry hentry with hold | ⟨-, hnew⟩
    · exact hfile entry hold
    · exact hnew
  cases move with
  | rename p =>
    have hp : p.Ready bin start := hready
    have hbin' : fs.DirAt p.store.binDir bin := hbin
    obtain ⟨hdir, -, hlength, rfl⟩ := h.rename hp hbin' hmove
    refine ⟨h.workDir, h.later.trans ((OnlyFilesAt.erase _ _ _).trans
      (OnlyFilesAt.put (by simp) hp.versioned p.binary)), fun q hq => ?_⟩
    rcases List.mem_append.mp hq with hq | hq
    · exact hkept q hq
    · obtain rfl : q = p := by simpa using hq
      refine ⟨hlength, fun entry hentry => ⟨q.binary, ?_⟩⟩
      rw [entry?_put (by simp), if_pos rfl] at hentry
      exact (Option.some.inj hentry).symm
  | tidy p =>
    obtain ⟨hswept, -⟩ := h.tidy htree hready hbin hmove
    exact ⟨hswept.workDir.trans h.workDir, h.later.trans (hswept.shrunk.mono fun _ => False.elim),
      fun q hq => hkept q (by simpa using hq)⟩

/-! ## Whole runs -/

/-- After each renaming comes the cleaning of the same installation. -/
def Closes (moves : List Move) : Prop :=
  ∀ p before after, moves = before ++ .rename p :: after → .tidy p ∈ after

private theorem Closes.tail (h : Closes (move :: rest)) : Closes rest :=
  fun p before after heq => h p (move :: before) after (heq ▸ rfl)

private theorem IsOrder.closes (h : IsOrder moves) : Closes moves := by
  rintro p before after rfl
  have hmem : Move.rename p ∈ before ++ .rename p :: after := by simp
  have hnot : Move.rename p ∉ before := fun hbefore =>
    List.disjoint_of_nodup_append h.1 hbefore List.mem_cons_self
  obtain ⟨first, second, heq, hfirst, hsecond⟩ :=
    List.sublist_append_iff.mp (h.2 p (Or.inl hmem))
  cases first with
  | nil =>
    obtain rfl : _ = second := heq
    exact List.singleton_sublist.mp (List.cons_sublist_cons.mp hsecond)
  | cons move others =>
    obtain ⟨rfl, -⟩ := List.cons.inj heq
    exact absurd (hfirst.subset List.mem_cons_self) hnot

private theorem IsOrder.rename_of_tidy (h : IsOrder moves) (hp : .tidy p ∈ moves) :
    .rename p ∈ moves :=
  (h.2 p (Or.inr hp)).subset List.mem_cons_self

/-- By induction on the steps taken so far; those that follow still have to succeed. -/
theorem Underway.performAll (h : Underway bin start done fs) (htree : start.IsTree)
    (hready : ∀ move ∈ moves ++ rest, move.pending.Ready bin start)
    (hcloses : Closes (moves ++ rest)) (hrun : Move.performAll fs moves = .ok mid)
    (hrest : Move.performAll mid rest = .ok fs') : Underway bin start (done ++ moves) mid := by
  induction moves generalizing done fs with
  | nil =>
    obtain rfl := Except.ok.inj hrun
    rwa [List.append_nil]
  | cons move others ih =>
    have hall : Move.performAll fs (move :: others ++ rest) = .ok fs' :=
      performAll_append.mpr ⟨mid, hrun, hrest⟩
    obtain ⟨next, hmove, hothers⟩ := performAll_cons.mp hrun
    have htidy : .tidy move.pending ∈ move :: others ++ rest := by
      cases move with
      | rename p => exact List.mem_cons_of_mem _ (hcloses p [] _ rfl)
      | tidy p => exact List.mem_cons_self
    have hbin := h.since.dirAt_of_tidy hready htidy hall
    have hnext := h.perform htree (hready move List.mem_cons_self) hbin hmove
    have hrest' := ih hnext (fun other hother => hready other (List.mem_cons_of_mem _ hother))
      hcloses.tail hothers
    rwa [List.append_assoc, List.singleton_append] at hrest'

/-- What cleaning up does after the last renaming. -/
theorem Underway.tidyAll (h : Underway bin start done fs) (htree : start.IsTree)
    (hready : ∀ move ∈ moves, move.pending.Ready bin start) (hlast : ∀ p, .rename p ∉ moves)
    (hrun : Move.performAll fs moves = .ok fs') :
    Shrunk fs fs' ∧ (∀ path dir, fs.DirAt path dir → fs'.DirAt path dir) ∧
      ∀ name, (∀ q, .tidy q ∈ moves → q.name = name) →
        fs'.entry? (bin ++ [bytesOf name]) = fs.entry? (bin ++ [bytesOf name]) := by
  induction moves generalizing done fs with
  | nil =>
    obtain rfl := Except.ok.inj hrun
    exact ⟨OnlyFilesAt.refl _ _, fun _ _ hdir => hdir, fun _ _ => rfl⟩
  | cons move rest ih =>
    obtain ⟨mid, hmove, hrest⟩ := performAll_cons.mp hrun
    cases move with
    | rename p => exact absurd List.mem_cons_self (hlast p)
    | tidy p =>
      have hp : p.Ready bin start := hready _ List.mem_cons_self
      have hbin := h.since.dirAt_of_tidy hready List.mem_cons_self hrun
      obtain ⟨hswept, hdirs⟩ := h.tidy htree hp hbin hmove
      have hnext : Underway bin start (done ++ [.tidy p]) mid := h.perform htree hp hbin hmove
      obtain ⟨hshrunk, hdirs', hkept⟩ := ih hnext
        (fun other hother => hready other (List.mem_cons_of_mem _ hother))
        (fun q hq => hlast q (List.mem_cons_of_mem _ hq)) hrest
      refine ⟨hswept.shrunk.trans hshrunk,
        fun path dir hdir => hdirs' path dir (hdirs path dir hdir), fun name hnames => ?_⟩
      rw [hkept name fun q hq => hnames q (List.mem_cons_of_mem _ hq)]
      rcases hswept.entries (bin ++ [bytesOf name]) with hsame | ⟨-, -, other, f, heq, -, hne, -⟩
      · exact hsame
      · obtain rfl : bytesOf name = other := by simpa using heq
        exact absurd (congrArg bytesOf (hnames p List.mem_cons_self)).symm hne

private theorem Underway.removed (h : Underway bin start done fs) (htree : start.IsTree)
    (hp : p.Ready bin start) (hbin : fs.DirAt p.store.binDir bin) (htidy : p.tidy fs = .ok fs')
    (hq : q.Ready bin start) (hdone : .rename q ∈ done) (hother : q.name ≠ p.name)
    (hspelled : (p.store.pathOf (bytesOf q.name)).IsSpelled) :
    fs'.entry? (bin ++ [bytesOf q.name]) = none := by
  obtain ⟨hswept, -⟩ := h.tidy htree hp hbin htidy
  obtain ⟨hlength, hfile⟩ := h.renamed q hdone
  rcases hswept.entries (bin ++ [bytesOf q.name]) with hsame | ⟨hnone, -⟩
  · by_contra hsome
    obtain ⟨entry, hentry⟩ := Option.ne_none_iff_exists'.mp hsome
    obtain ⟨f, rfl⟩ := hfile entry (hsame ▸ hentry)
    have hstands := file?_pathOf hq.isPlain hswept.dirAt hspelled hlength hentry
    have hmem : bytesOf q.name ∈ fs.names bin := mem_names.mpr (hsame ▸ hsome)
    rcases hswept.files _ hmem f hstands with hkeep | ⟨hpartial, -⟩
    · exact hother (bytesOf_injective hkeep)
    · obtain ⟨v, hv⟩ := hq.version
      rw [not_isPartialName hv] at hpartial
      cases hpartial
  · exact hnone

private theorem Underway.removedAll (h : Underway bin start done fs) (htree : start.IsTree)
    (hready : ∀ move ∈ moves, move.pending.Ready bin start) (hlast : ∀ p, .rename p ∉ moves)
    (hrun : Move.performAll fs moves = .ok fs') (hp : .tidy p ∈ moves) (hq : q.Ready bin start)
    (hdone : .rename q ∈ done) (hother : q.name ≠ p.name)
    (hspelled : (p.store.pathOf (bytesOf q.name)).IsSpelled) :
    fs'.entry? (bin ++ [bytesOf q.name]) = none := by
  obtain ⟨before, after, rfl⟩ := List.append_of_mem hp
  obtain ⟨mid, hbefore, hrest⟩ := performAll_append.mp hrun
  obtain ⟨next, htidy, hafter⟩ := performAll_cons.mp hrest
  have hp' : p.Ready bin start := hready _ hp
  have hcloses : Closes (before ++ .tidy p :: after) :=
    fun r first second heq => absurd (heq ▸ by simp) (hlast r)
  have hmid := h.performAll htree hready hcloses hbefore hrest
  have hbin := hmid.since.dirAt_of_tidy
    (fun move hmove => hready move (List.mem_append_right _ hmove)) List.mem_cons_self hrest
  have hnone := hmid.removed htree hp' hbin htidy hq (List.mem_append_left _ hdone) hother hspelled
  have hnext : Underway bin start (done ++ before ++ [.tidy p]) next :=
    hmid.perform htree hp' hbin htidy
  obtain ⟨hshrunk, -⟩ := hnext.tidyAll htree (fun move hmove => hready move (by simp [hmove]))
    (fun r hr => hlast r (by simp [hr])) hafter
  by_contra hsome
  obtain ⟨entry, hentry⟩ := Option.ne_none_iff_exists'.mp hsome
  rw [hshrunk.entry_before hentry] at hnone
  cases hnone

/-- If all steps succeed, then the file that has been renamed last is left if every cleaning after it
keeps its name. It is complete then, and the path that its store answers with leads to it. A store
that keeps another name removes it, and the last store removes the files of all other names, as far
as the path of the file from that store can be spelled. -/
theorem performAll_keeps_last (htree : start.IsTree) (horder : IsOrder moves)
    (hready : ∀ p, .rename p ∈ moves → p.Ready bin start)
    (hsplit : moves = before ++ .rename last :: after) (hlast : ∀ p, .rename p ∉ after)
    (hrun : performAll start moves = .ok fs') :
    (∀ p, .rename p ∈ moves → p.name ≠ last.name →
        (last.store.pathOf (bytesOf p.name)).IsSpelled →
        fs'.entry? (bin ++ [bytesOf p.name]) = none) ∧
      ((∀ q, .tidy q ∈ after → q.name = last.name) →
        fs'.entry? (bin ++ [bytesOf last.name]) = some (.file last.binary) ∧
          fs'.file? last.target = some last.binary) ∧
      ∀ q, .tidy q ∈ after → q.name ≠ last.name →
        (q.store.pathOf (bytesOf last.name)).IsSpelled →
        fs'.entry? (bin ++ [bytesOf last.name]) = none := by
  have hclose := horder.closes
  have hrename : ∀ p, .tidy p ∈ moves → .rename p ∈ moves := fun p => horder.rename_of_tidy
  have hall : ∀ move ∈ moves, move.pending.Ready bin start := by
    intro move hmove
    cases move with
    | rename p => exact hready p hmove
    | tidy p => exact hready p (hrename p hmove)
  subst hsplit
  have hall' : ∀ move ∈ after, move.pending.Ready bin start :=
    fun move hmove => hall move (by simp [hmove])
  have htidy : .tidy last ∈ after := hclose last before after rfl
  have hready' : last.Ready bin start := hready last (by simp)
  obtain ⟨early, hearly, hrun⟩ := performAll_append.mp hrun
  obtain ⟨mid, hmove, hend⟩ := performAll_cons.mp hrun
  have hunder : Underway bin start before early :=
    (Underway.refl bin start).performAll htree hall hclose hearly hrun
  have hbin : early.DirAt last.store.binDir bin :=
    hunder.since.dirAt_of_tidy (fun move hmove => hall move (List.mem_append_right _ hmove))
      (List.mem_cons_of_mem _ htidy) hrun
  obtain ⟨-, hspelled, hlength, hmid⟩ := hunder.rename hready' hbin hmove
  have hdone : Underway bin start (before ++ [.rename last]) mid :=
    hunder.perform htree hready' hbin hmove
  have hstands : mid.entry? (bin ++ [bytesOf last.name]) = some (.file last.binary) := by
    rw [hmid, entry?_put (by simp), if_pos rfl]
  obtain ⟨-, hdirs, hkept⟩ := hdone.tidyAll htree hall' hlast hend
  -- All renaming is done, so a store that cleans up removes the files of all other names.
  have hgone : ∀ q, .tidy q ∈ after → ∀ p, .rename p ∈ before ++ .rename last :: after →
      p.name ≠ q.name → (q.store.pathOf (bytesOf p.name)).IsSpelled →
      fs'.entry? (bin ++ [bytesOf p.name]) = none := by
    intro q hq p hp hother hpath
    have hdone' : .rename p ∈ before ++ [.rename last] := by
      simpa [hlast p] using hp
    exact hdone.removedAll htree hall' hlast hend hq (hready p hp) hdone' hother hpath
  refine ⟨fun p hp hother => hgone last htidy p hp hother, fun hnames => ?_, fun q hq hother =>
    hgone q hq last (by simp) (Ne.symm hother)⟩
  have hentry := (hkept last.name hnames).trans hstands
  have hmidAt : mid.DirAt last.store.binDir bin :=
    hdone.since.dirAt_of_tidy hall' htidy hend
  exact ⟨hentry, file?_pathOf hready'.isPlain (hdirs _ _ hmidAt) hspelled hlength hentry⟩

/-! ### Two stores of one directory -/

def firstRacer : Pending := ⟨sampleStore, bytesOf ".download-a", "1.0.0-a", ⟨[1], 0⟩⟩

def secondRacer (name : String) : Pending :=
  ⟨sampleStore, bytesOf ".download-b", name, ⟨[2], 0⟩⟩

/-- Both have received their binaries. -/
def racingTree : FileSystem where
  entries := [([[109]], .dir), ([[109], [98, 105, 110]], .dir),
    ([[109], [98, 105, 110], bytesOf ".download-a"], .file ⟨[1], 0⟩),
    ([[109], [98, 105, 110], bytesOf ".download-b"], .file ⟨[2], 0⟩)]

/-- Both rename before either cleans up. -/
def crossing (p q : Pending) : List Move := [.rename p, .rename q, .tidy p, .tidy q]

private theorem crossing_isOrder (h : p ≠ q) : IsOrder (crossing p q) := by
  refine ⟨by simp [crossing, h], fun r hr => ?_⟩
  have heq : r = p ∨ r = q := by simpa [crossing] using hr
  rcases heq with rfl | rfl
  · exact .cons_cons _ (.cons _ (.cons_cons _ (List.nil_sublist _)))
  · exact .cons _ (.cons_cons _ (.cons _ (.cons_cons _ (List.nil_sublist _))))

private theorem crossing_ready {name : String} {v : Version}
    (hversion : Version.ofFileName? name = some v) (hslash : '/' ∉ name.toList) :
    ∀ p, .rename p ∈ crossing firstRacer (secondRacer name) →
      p.Ready [[109], [98, 105, 110]] racingTree := by
  intro p hp
  have heq : p = firstRacer ∨ p = secondRacer name := by simpa [crossing] using hp
  have hbin : racingTree.DirAt sampleStore.binDir [[109], [98, 105, 110]] := by
    constructor <;> decide +kernel
  rcases heq with rfl | rfl
  · exact ⟨hbin, by decide +kernel, by decide +kernel, by decide +kernel,
      ⟨⟨1, 0, 0, none, none⟩, by decide +kernel⟩, by decide +kernel⟩
  · have hreceived : racingTree.entry? [[109], [98, 105, 110], bytesOf ".download-b"] =
        some (.file ⟨[2], 0⟩) := by decide +kernel
    have hplain : Path.IsPlain (bytesOf ".download-b") := by decide +kernel
    have hdrawn : isPartialName (bytesOf ".download-b") = true := by decide +kernel
    exact ⟨hbin, hreceived, hplain, hdrawn, ⟨v, hversion⟩, hslash⟩

theorem performAll_keeps_last_same_name : ∃ fs',
    performAll racingTree (crossing firstRacer (secondRacer "1.0.0-a")) = .ok fs' ∧
      fs'.file? (secondRacer "1.0.0-a").target = some ⟨[2], 0⟩ := by
  let left : FileSystem :=
    { entries := [([[109], [98, 105, 110], bytesOf "1.0.0-a"], .file ⟨[2], 0⟩), ([[109]], .dir),
        ([[109], [98, 105, 110]], .dir)] }
  have hrun : performAll racingTree (crossing firstRacer (secondRacer "1.0.0-a")) = .ok left := by
    decide +kernel
  have hversion : Version.ofFileName? "1.0.0-a" = some ⟨1, 0, 0, none, none⟩ := by decide +kernel
  have hsplit : crossing firstRacer (secondRacer "1.0.0-a") = [.rename firstRacer] ++
      .rename (secondRacer "1.0.0-a") ::
        [.tidy firstRacer, .tidy (secondRacer "1.0.0-a")] := rfl
  have hkeeps := performAll_keeps_last (isTree_of_entries (by decide +kernel) rfl)
    (crossing_isOrder (by decide +kernel)) (crossing_ready hversion (by decide +kernel)) hsplit
    (by simp) hrun
  refine ⟨left, hrun, (hkeeps.2.1 fun q hq => ?_).2⟩
  have heq : q = firstRacer ∨ q = secondRacer "1.0.0-a" := by simpa using hq
  rcases heq with rfl | rfl
  · rfl
  · rfl

/-- Two stores that install different binaries may leave none. -/
theorem crossing_empties :
    IsOrder (crossing firstRacer (secondRacer "2.0.0-b")) ∧
      (∀ p, .rename p ∈ crossing firstRacer (secondRacer "2.0.0-b") →
        p.Ready [[109], [98, 105, 110]] racingTree) ∧
      ∃ fs', performAll racingTree (crossing firstRacer (secondRacer "2.0.0-b")) = .ok fs' ∧
        ∀ p, .rename p ∈ crossing firstRacer (secondRacer "2.0.0-b") →
          fs'.file? p.target = none := by
  refine ⟨crossing_isOrder (by decide +kernel),
    crossing_ready (v := ⟨2, 0, 0, none, none⟩) (by decide +kernel) (by decide +kernel),
    { entries := [([[109]], .dir), ([[109], [98, 105, 110]], .dir)] }, by decide +kernel,
    fun p hp => ?_⟩
  have heq : p = firstRacer ∨ p = secondRacer "2.0.0-b" := by simpa [crossing] using hp
  rcases heq with rfl | rfl
  · decide +kernel
  · decide +kernel

end EngineClient.Store
