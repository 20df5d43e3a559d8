import Mathlib
import EngineClient.Proofs.FileSystem.Resolve

/-!
# Directories that are created

Creating a directory with those above it adds directories on the way to it and nothing else,
whether or not it succeeds. If it does, the path leads to a directory.
-/

namespace EngineClient

namespace Path

/-- A path that creating another one goes through: that of its first parts, or itself. -/
def IsAbove (q p : Path) : Prop := q = p ∨ ∃ k, q = ofParts p.isAbsolute (p.parts.take k)

theorem trimEnd_eq_self {p : Path} (h : endsOpen p = false) : trimEnd p = p := by
  rw [trimEnd]
  cases hrev : p.reverse with
  | nil => simpa using hrev.symm
  | cons last rest =>
    have hp : p = rest.reverse ++ [last] := by
      rw [← List.reverse_reverse p, hrev, List.reverse_cons]
    have hlast : (last == slash) = false := by simpa [endsOpen, hp] using h
    rw [List.dropWhile_cons, hlast, hp]
    simp

private theorem intercalate_snoc (names : List Name) (last : Name) :
    ∃ start, [slash].intercalate (names ++ [last]) = start ++ last := by
  induction names with
  | nil => exact ⟨[], by simp⟩
  | cons name names ih =>
    obtain ⟨start, hstart⟩ := ih
    cases hrest : names ++ [last] with
    | nil => simp at hrest
    | cons next others =>
      rw [hrest] at hstart
      refine ⟨name ++ [slash] ++ start, ?_⟩
      rw [List.cons_append, hrest, List.intercalate_cons_cons, hstart]
      simp

private theorem endsOpen_ofParts (absolute : Bool) (names : List Name) {last : Name}
    (hne : last ≠ []) (hslash : slash ∉ last) :
    endsOpen (ofParts absolute (names ++ [last])) = false := by
  obtain ⟨start, hstart⟩ := intercalate_snoc names last
  rw [ofParts, hstart, ← List.append_assoc]
  exact endsOpen_append hne hslash

end Path

namespace FileSystem

variable {fs fs' fs'' : FileSystem} {follow : Bool} {n : Nat} {here loc out : Location}
variable {names : List Name} {p q : Path} {entry : Entry}

/-! ## Entries that stay -/

/-- Whatever stands in a tree stands in the other one too. -/
def Kept (fs fs' : FileSystem) : Prop :=
  ∀ loc entry, fs.entry? loc = some entry → fs'.entry? loc = some entry

private theorem Leads.of_kept (hkept : Kept fs fs') (h : Leads fs follow n here names out)
    (hentry : fs.entry? out = some entry) : Leads fs' follow n here names out := by
  induction h with
  | done here => exact .done here
  | self h ih => exact .self (ih hentry)
  | up h ih => exact .up (ih hentry)
  | enter hname hdir h ih => exact .enter hname (hkept _ _ hdir) (ih hentry)
  | stop hname hstop =>
    refine .stop hname ?_
    rcases hstop with hnone | ⟨f, hfile⟩ | ⟨hfollow, target, hlink⟩
    · rw [hnone] at hentry
      cases hentry
    · exact Or.inr (Or.inl ⟨f, hkept _ _ hfile⟩)
    · exact Or.inr (Or.inr ⟨hfollow, target, hkept _ _ hlink⟩)
  | jump hname hlink hon h ih => exact .jump hname (hkept _ _ hlink) hon (ih hentry)

private theorem Leads.of_missing (hkept : Kept fs fs') (h : Leads fs false n here names out)
    (hnone : fs.entry? out = none) (hdir : fs'.entry? out = some .dir) :
    Leads fs' true n here names out := by
  induction h with
  | done here => exact .done here
  | self h ih => exact .self (ih hnone hdir)
  | up h ih => exact .up (ih hnone hdir)
  | enter hname hentry h ih => exact .enter hname (hkept _ _ hentry) (ih hnone hdir)
  | stop hname hstop => exact .enter hname hdir (.done _)
  | jump hname hlink hon h ih =>
    exact .jump hname (hkept _ _ hlink) (Or.inr rfl) (ih hnone hdir)

theorem DirAt.of_kept (hwork : fs'.workDir = fs.workDir) (hkept : Kept fs fs')
    (h : fs.DirAt p loc) : fs'.DirAt p loc := by
  obtain ⟨hspelled, n, hn, hleads⟩ := resolve_eq_ok_iff.mp h.1
  refine ⟨resolve_eq_ok_iff.mpr ⟨hspelled, n, hn, ?_⟩, hkept _ _ h.2⟩
  rw [start, hwork]
  exact hleads.of_kept hkept h.2

/-- Every directory and every link of a tree stands in the other one too. -/
def KeptWays (fs fs' : FileSystem) : Prop :=
  ∀ loc entry, fs.entry? loc = some entry → (∀ f, entry ≠ .file f) → fs'.entry? loc = some entry

theorem KeptWays.put {place : Location} (hplace : place ≠ [])
    (hfile : ∀ entry, fs.entry? place = some entry → ∃ f, entry = .file f) (f : File) :
    KeptWays fs (fs.put place (.file f)) := by
  intro loc entry hentry hnot
  rw [entry?_put hplace, if_neg, hentry]
  rintro rfl
  obtain ⟨g, rfl⟩ := hfile entry hentry
  exact hnot g rfl

theorem KeptWays.erase {place : Location} (hplace : place ≠ [])
    (hfile : ∀ entry, fs.entry? place = some entry → ∃ f, entry = .file f) :
    KeptWays fs (fs.erase place) := by
  intro loc entry hentry hnot
  rw [entry?_erase hplace, if_neg, hentry]
  rintro rfl
  obtain ⟨g, rfl⟩ := hfile entry hentry
  exact hnot g rfl

theorem KeptWays.append {place : Location} (hplace : place ≠ []) (data : Bytes) :
    KeptWays fs (fs.append place data) := by
  intro loc entry hentry hnot
  rw [FileSystem.append, entry?_modify hplace]
  split
  · rw [hentry]
    cases entry with
    | file f => exact absurd rfl (hnot f)
    | dir => rfl
    | link target => rfl
  · exact hentry

private theorem Leads.of_keptWays (hkept : KeptWays fs fs') (h : Leads fs follow n here names out)
    (hdir : fs.entry? out = some .dir) : Leads fs' follow n here names out := by
  induction h with
  | done here => exact .done here
  | self h ih => exact .self (ih hdir)
  | up h ih => exact .up (ih hdir)
  | enter hname hentry h ih => exact .enter hname (hkept _ _ hentry nofun) (ih hdir)
  | stop hname hstop =>
    rcases hstop with hnone | ⟨f, hfile⟩ | ⟨-, target, hlink⟩
    · rw [hnone] at hdir
      cases hdir
    · rw [hfile] at hdir
      cases hdir
    · rw [hlink] at hdir
      cases hdir
  | jump hname hlink hon h ih => exact .jump hname (hkept _ _ hlink nofun) hon (ih hdir)

theorem DirAt.of_keptWays (hwork : fs'.workDir = fs.workDir) (hkept : KeptWays fs fs')
    (h : fs.DirAt p loc) : fs'.DirAt p loc := by
  obtain ⟨hspelled, n, hn, hleads⟩ := resolve_eq_ok_iff.mp h.1
  refine ⟨resolve_eq_ok_iff.mpr ⟨hspelled, n, hn, ?_⟩, hkept _ _ h.2 nofun⟩
  rw [start, hwork]
  exact hleads.of_keptWays hkept h.2

/-! ## The way to a directory -/

/-- Nothing has happened to a tree but that directories have come on the way to a path. -/
structure MadeWay (p : Path) (fs fs' : FileSystem) : Prop where
  workDir : fs'.workDir = fs.workDir
  entries : ∀ loc, fs'.entry? loc = fs.entry? loc ∨
    fs.entry? loc = none ∧ ∃ q, q.IsAbove p ∧ fs'.DirAt q loc

private theorem MadeWay.refl (p : Path) (fs : FileSystem) : MadeWay p fs fs where
  workDir := rfl
  entries _ := Or.inl rfl

theorem MadeWay.kept (h : MadeWay p fs fs') : Kept fs fs' := by
  intro loc entry hentry
  rcases h.entries loc with hsame | ⟨hnone, -⟩
  · rw [hsame, hentry]
  · rw [hnone] at hentry
    cases hentry

private theorem MadeWay.trans (h : MadeWay p fs fs') (h' : MadeWay p fs' fs'') :
    MadeWay p fs fs'' where
  workDir := h'.workDir.trans h.workDir
  entries loc := by
    rcases h.entries loc with hsame | ⟨hnone, q, hq, hdir⟩
    · rw [← hsame]
      exact h'.entries loc
    · exact Or.inr ⟨hnone, q, hq, hdir.of_kept h'.workDir h'.kept⟩

private theorem makeDir_spec (hq : q.IsAbove p) (hopen : q.endsOpen = false)
    (h : fs.makeDir q = .ok fs') : MadeWay p fs fs' ∧ ∃ loc, fs'.DirAt q loc := by
  have htrim : (if q.trimEnd.isEmpty then q else q.trimEnd) = q := by
    rw [Path.trimEnd_eq_self hopen]
    exact ite_self q
  simp only [makeDir, htrim, bind, Except.bind] at h
  cases hloc : fs.resolve false q with
  | error e =>
    rw [hloc] at h
    cases h
  | ok loc =>
    rw [hloc] at h
    simp only at h
    cases hnone : fs.entry? loc with
    | some entry =>
      rw [hnone] at h
      cases h
    | none =>
      rw [hnone] at h
      obtain rfl := Except.ok.inj h
      have hentry : ∀ other, FileSystem.entry? (fs.put loc .dir) other =
          if other = loc then some .dir else fs.entry? other :=
        fun other => entry?_put (ne_root_of_missing hnone)
      have hkept : Kept fs (fs.put loc .dir) := by
        intro other entry hother
        rw [hentry, if_neg, hother]
        rintro rfl
        rw [hnone] at hother
        cases hother
      have hhere : FileSystem.entry? (fs.put loc .dir) loc = some .dir := by rw [hentry, if_pos rfl]
      obtain ⟨hspelled, n, hn, hleads⟩ := resolve_eq_ok_iff.mp hloc
      have hdir : (fs.put loc .dir).DirAt q loc :=
        ⟨resolve_eq_ok_iff.mpr ⟨hspelled, n, hn, hleads.of_missing hkept hnone hhere⟩, hhere⟩
      refine ⟨⟨rfl, fun other => ?_⟩, loc, hdir⟩
      by_cases heq : other = loc
      · subst heq
        exact Or.inr ⟨hnone, q, hq, hdir⟩
      · exact Or.inl (by rw [hentry, if_neg heq])

/-- What creating directories does to a tree, and that the path leads to one in the end. -/
def MakesWay (p q : Path) (create : FileSystem → Except IoError Unit × FileSystem) : Prop :=
  ∀ fs, MadeWay p fs (create fs).2 ∧ ((create fs).1 = .ok () → ∃ loc, (create fs).2.DirAt q loc)

private theorem makeDirAfter_spec {above : FileSystem → Except IoError Unit × FileSystem}
    (habove : ∀ fs, MadeWay p fs (above fs).2) (hq : q.IsAbove p) (hopen : q.endsOpen = false) :
    MakesWay p q (makeDirAfter above q) := by
  intro fs
  rw [makeDirAfter]
  cases hmake : fs.makeDir q with
  | ok fs' =>
    obtain ⟨hway, hdir⟩ := makeDir_spec hq hopen hmake
    exact ⟨hway, fun _ => hdir⟩
  | error e =>
    simp only
    split
    · have hway := habove fs
      generalize above fs = created at hway ⊢
      obtain ⟨_ | _, fs'⟩ := created
      · exact ⟨hway, nofun⟩
      · simp only
        cases hmake' : fs'.makeDir q with
        | ok fs'' =>
          obtain ⟨hway', hdir⟩ := makeDir_spec hq hopen hmake'
          exact ⟨hway.trans hway', fun _ => hdir⟩
        | error e' =>
          refine ⟨hway, fun hok => isDir_iff.mp ?_⟩
          by_contra hnot
          simp [hnot] at hok
    · refine ⟨MadeWay.refl p fs, fun hok => isDir_iff.mp ?_⟩
      by_contra hnot
      simp [hnot] at hok

private theorem makeDirsFrom_spec {parts : List Name} (hparts : parts.reverse <+: p.parts) :
    ∀ fs, MadeWay p fs (makeDirsFrom p.isAbsolute parts fs).2 := by
  induction parts with
  | nil => exact fun fs => MadeWay.refl p fs
  | cons name above ih =>
    rw [List.reverse_cons] at hparts
    have hmem : name ∈ p.parts := hparts.subset (by simp)
    obtain ⟨hne, hslash⟩ := Path.of_mem_segments (Path.mem_segments_of_mem_parts hmem)
    have hq : (Path.ofParts p.isAbsolute (name :: above).reverse).IsAbove p := by
      rw [List.reverse_cons]
      exact Or.inr ⟨_, congrArg _ (List.prefix_iff_eq_take.mp hparts)⟩
    have hopen : (Path.ofParts p.isAbsolute (name :: above).reverse).endsOpen = false := by
      rw [List.reverse_cons]
      exact Path.endsOpen_ofParts _ _ hne hslash
    intro fs
    exact (makeDirAfter_spec (ih ((List.prefix_append _ _).trans hparts)) hq hopen fs).1

/-- Creating a directory with those above it adds only directories on the way, and leads to one if
it succeeds. -/
theorem makeDirs_spec (hopen : p.endsOpen = false) (hparts : p.parts ≠ []) (fs : FileSystem) :
    MadeWay p fs (fs.makeDirs p).2 ∧
      ((fs.makeDirs p).1 = .ok () → ∃ loc, (fs.makeDirs p).2.DirAt p loc) := by
  rw [makeDirs]
  cases hrev : p.parts.reverse with
  | nil => exact absurd (List.reverse_eq_nil_iff.mp hrev) hparts
  | cons last above =>
    have habove : above.reverse <+: p.parts := by
      rw [← List.reverse_reverse p.parts, hrev, List.reverse_cons]
      exact List.prefix_append _ _
    exact makeDirAfter_spec (makeDirsFrom_spec habove) (Or.inl rfl) hopen fs

end FileSystem

end EngineClient
