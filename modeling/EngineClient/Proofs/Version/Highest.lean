import Mathlib
import EngineClient.Proofs.Repository.Selection
import EngineClient.Proofs.Store.Installed

/-!
# The highest version of a listing

Both searches go through a listing and keep an entry that no other one exceeds: a repository goes
through keys, a store through the entries of its directory. The precedence that they find is the
greatest of the listing, so neither the order of the entries nor those without a version matter.
-/

namespace EngineClient

/-! ## Greatest versions -/

/-- A version that none of some versions exceeds, if there are any. -/
inductive IsHighest (among : Version → Prop) : Option Version → Prop
  | nothing (hnone : ∀ v, ¬among v) : IsHighest among none
  | best {v : Version} (hv : among v) (hbest : ∀ w, among w → ¬v < w) : IsHighest among (some v)

private theorem IsHighest.precedence {among : Version → Prop} {found found' : Option Version}
    (h : IsHighest among found) (h' : IsHighest among found') :
    found.map Version.precedence = found'.map Version.precedence := by
  cases h with
  | nothing hnone =>
    cases h' with
    | nothing => rfl
    | best hv => exact absurd hv (hnone _)
  | best hv hbest =>
    cases h' with
    | nothing hnone => exact absurd hv (hnone _)
    | best hv' hbest' =>
      exact congrArg some (Version.precedence_eq_iff.mpr ⟨hbest _ hv', hbest' _ hv⟩)

/-! ## Listings -/

section Listings

variable {α : Type} {version? : α → Option Version} {listing listing' : List α}

/-- A listing becomes another one when its order is changed and entries without a version are put
into it, any number of times. -/
inductive Rearranges (version? : α → Option Version) : List α → List α → Prop
  | reorder {listing listing' : List α} (hperm : listing.Perm listing') :
      Rearranges version? listing listing'
  | insert (before after : List α) {entry : α} (hidle : version? entry = none) :
      Rearranges version? (before ++ after) (before ++ entry :: after)
  | andThen {listing listing' listing'' : List α} (hfirst : Rearranges version? listing listing')
      (hnext : Rearranges version? listing' listing'') : Rearranges version? listing listing''

/-- A version is that of an entry of a listing. -/
def Occurs (version? : α → Option Version) (listing : List α) (v : Version) : Prop :=
  ∃ entry ∈ listing, version? entry = some v

private theorem IsHighest.eq_none_iff {found : Option Version}
    (h : IsHighest (Occurs version? listing) found) :
    found = none ↔ ∀ entry ∈ listing, version? entry = none := by
  cases h with
  | nothing hnone =>
    refine iff_of_true rfl fun entry hentry => ?_
    exact Option.eq_none_iff_forall_ne_some.mpr fun v hv => hnone v ⟨entry, hentry, hv⟩
  | best hv =>
    obtain ⟨entry, hentry, hv⟩ := hv
    refine iff_of_false nofun fun hnone => ?_
    rw [hnone entry hentry] at hv
    cases hv

private theorem Rearranges.occurs_iff (h : Rearranges version? listing listing') (v : Version) :
    Occurs version? listing v ↔ Occurs version? listing' v := by
  induction h with
  | reorder hperm =>
    simp only [Occurs, hperm.mem_iff]
  | insert before after hidle =>
    simp only [Occurs, List.mem_append, List.mem_cons]
    constructor
    · rintro ⟨entry, hentry | hentry, hv⟩
      · exact ⟨entry, Or.inl hentry, hv⟩
      · exact ⟨entry, Or.inr (Or.inr hentry), hv⟩
    · rintro ⟨entry, hentry | rfl | hentry, hv⟩
      · exact ⟨entry, Or.inl hentry, hv⟩
      · rw [hidle] at hv
        cases hv
      · exact ⟨entry, Or.inr hentry, hv⟩
  | andThen _ _ hfirst hnext => exact hfirst.trans hnext

/-- What is found in a listing is of the same precedence in any rearrangement of it. -/
theorem Rearranges.precedence (h : Rearranges version? listing listing')
    {found found' : Option Version} (hfound : IsHighest (Occurs version? listing) found)
    (hfound' : IsHighest (Occurs version? listing') found') :
    found'.map Version.precedence = found.map Version.precedence := by
  have hsame : Occurs version? listing = Occurs version? listing' :=
    funext fun v => propext (h.occurs_iff v)
  rw [← hsame] at hfound'
  exact hfound'.precedence hfound

end Listings

/-! ## Keys -/

namespace Repository

/-- The version that the name in a key has. -/
def keyVersion? (key : String) : Option Version := Version.ofFileName? (keyName key)

private theorem SelectsFirst.isHighest {keys : List String} {found : Option Asset}
    (h : SelectsFirst keys found) :
    IsHighest (Occurs keyVersion? keys) (found.map Asset.version) := by
  cases h with
  | nothing hnone =>
    refine .nothing ?_
    rintro v ⟨key, hkey, hv⟩
    rw [keyVersion?, hnone key hkey] at hv
    cases hv
  | @best a before after hkeys hversion hbefore hafter =>
    subst hkeys
    refine .best ⟨a.location, List.mem_append_right _ List.mem_cons_self, hversion⟩ ?_
    rintro w ⟨key, hkey, hw⟩ hlt
    rcases List.mem_append.mp hkey with hkey | hkey
    · exact Version.lt_irrefl _ (Version.lt_trans hlt (hbefore key hkey w hw))
    · rcases List.mem_cons.mp hkey with rfl | hkey
      · obtain rfl := Option.some.inj (hversion.symm.trans hw)
        exact Version.lt_irrefl _ hlt
      · exact hafter key hkey w hw hlt

end Repository

/-! ## Entries of the directory -/

namespace Store

variable {s : Store} {fs : FileSystem} {found : Option Asset}

/-- The entries of the directory: their names, and whether they lead to files. A link is another
entry once what it leads to has come or gone. -/
def listing (s : Store) (fs : FileSystem) : List (Name × Bool) :=
  ((fs.readDir s.binDir).toOption.getD []).map fun name => (name, fs.isFile (s.pathOf name))

/-- The version of an entry, if it leads to a file and its name is a text that has one. -/
def entryVersion? (entry : Name × Bool) : Option Version :=
  if entry.2 then (stringOf? entry.1).bind Version.ofFileName? else none

private theorem entryVersion?_eq_some_iff {entry : Name × Bool} {v : Version} :
    entryVersion? entry = some v ↔
      entry.2 = true ∧ ∃ name, entry.1 = bytesOf name ∧ Version.ofFileName? name = some v := by
  rw [entryVersion?]
  split
  · next hfile => simp [hfile, Option.bind_eq_some_iff, stringOf?_eq_some_iff]
  · next hfile => simp [hfile]

private theorem occurs_listing_iff {v : Version} :
    Occurs entryVersion? (s.listing fs) v ↔ ∃ name, s.Installed fs name v := by
  simp only [Occurs, entryVersion?_eq_some_iff]
  constructor
  · rintro ⟨entry, hentry, hfile, name, hname, hv⟩
    rw [listing] at hentry
    cases hread : fs.readDir s.binDir with
    | error e =>
      rw [hread] at hentry
      cases hentry
    | ok names =>
      rw [hread] at hentry
      obtain ⟨key, hkey, rfl⟩ := List.mem_map.mp hentry
      obtain rfl : key = bytesOf name := hname
      exact ⟨name, ⟨names, hread, hkey⟩, hfile, hv⟩
  · rintro ⟨name, ⟨names, hread, hname⟩, hfile, hv⟩
    refine ⟨(bytesOf name, fs.isFile (s.pathOf (bytesOf name))), ?_, hfile, name, rfl, hv⟩
    rw [listing, hread]
    exact List.mem_map.mpr ⟨_, hname, rfl⟩

private theorem Finds.isHighest (h : s.Finds fs found) :
    IsHighest (Occurs entryVersion? (s.listing fs)) (found.map Asset.version) := by
  cases h with
  | nothing hnone =>
    refine .nothing fun v hv => ?_
    obtain ⟨name, hname⟩ := occurs_listing_iff.mp hv
    exact hnone name v hname
  | binary hname hbest =>
    refine .best (occurs_listing_iff.mpr ⟨_, hname⟩) fun w hw => ?_
    obtain ⟨other, hother⟩ := occurs_listing_iff.mp hw
    exact hbest other w hother

end Store

/-- Both searches find the greatest precedence of their listings. Among the keys that a repository
lists nothing is found exactly if no name in a key has a version, and else the first key of the
highest version, with the version of its name. In the directory of a store nothing is found exactly
if there is no file with a version in its name, and else one of the highest version. In both,
another order of the listing or more entries without a version make no difference to the
precedence. -/
theorem searches_find_highest :
    (∀ (r : Repository) (fs : FileSystem) (p : Platform) (keys : List String),
      r.listKeys fs p.folder = .ok keys →
        ∃ found, r.latest? fs p = .ok found ∧ Repository.SelectsFirst keys found ∧
          (found = none ↔ ∀ key ∈ keys, Version.ofFileName? (keyName key) = none) ∧
          ∀ (r' : Repository) (fs' : FileSystem) (p' : Platform) (keys' : List String),
            r'.listKeys fs' p'.folder = .ok keys' →
              Rearranges Repository.keyVersion? keys keys' →
                ∃ found', r'.latest? fs' p' = .ok found' ∧
                  found'.map (·.version.precedence) = found.map (·.version.precedence)) ∧
    (∀ (s : Store) (fs : FileSystem),
        ∃ found, s.installed? fs = .ok found ∧ s.Finds fs found ∧
          (found = none ↔ ∀ entry ∈ s.listing fs, Store.entryVersion? entry = none) ∧
          ∀ (s' : Store) (fs' : FileSystem),
            Rearranges Store.entryVersion? (s.listing fs) (s'.listing fs') →
              ∃ found', s'.installed? fs' = .ok found' ∧
                found'.map (·.version.precedence) = found.map (·.version.precedence)) := by
  constructor
  · intro r fs p keys hkeys
    have hfirst := Repository.select_selectsFirst keys
    refine ⟨_, Repository.latest?_of_listKeys hkeys, hfirst, ?_, ?_⟩
    · rw [← Option.map_eq_none_iff (f := Asset.version)]
      exact hfirst.isHighest.eq_none_iff
    · intro r' fs' p' keys' hkeys' hrearranges
      refine ⟨_, Repository.latest?_of_listKeys hkeys', ?_⟩
      have hfirst' := Repository.select_selectsFirst keys'
      simpa [Function.comp_def] using hrearranges.precedence hfirst.isHighest hfirst'.isHighest
  · intro s fs
    obtain ⟨found, hfound⟩ := s.exists_installed? fs
    have hfinds := Store.installed?_finds hfound
    refine ⟨found, hfound, hfinds, ?_, ?_⟩
    · rw [← Option.map_eq_none_iff (f := Asset.version)]
      exact hfinds.isHighest.eq_none_iff
    · intro s' fs' hrearranges
      obtain ⟨found', hfound'⟩ := s'.exists_installed? fs'
      have hfinds' := Store.installed?_finds hfound'
      refine ⟨found', hfound', ?_⟩
      simpa [Function.comp_def] using hrearranges.precedence hfinds.isHighest hfinds'.isHighest

/-- A repository with nothing but keys. -/
def listingOnly (keys : List String) : Repository := .ofObjects (.ok keys) []

/-- A file system with some files in the directory `/m/bin`. -/
def binWith (names : List String) : FileSystem where
  entries := ([[109]], .dir) :: ([[109], bytesOf "bin"], .dir) ::
    names.map fun name => ([[109], bytesOf "bin", bytesOf name], .file ⟨[7], 10⟩)

theorem searches_find_highest_tie :
    (∃ found, (listingOnly ["a/1.0.0+7", "notes", "b/1.0.0-x"]).latest? {} .linuxX86 = .ok found ∧
        found.map (·.version.precedence) = some (1, 0, 0)) ∧
      ∃ found, (Store.mk (bytesOf "/m")).installed? (binWith ["notes", "2.0.0-e"]) = .ok found ∧
        found.map (·.version.precedence) = some (2, 0, 0) := by
  obtain ⟨hkeys, hentries⟩ := searches_find_highest
  constructor
  · obtain ⟨found, hfound, -, -, hrearranged⟩ := hkeys (listingOnly ["b/1.0.0-x", "a/1.0.0+7"]) {}
      .linuxX86 _ rfl
    obtain ⟨found', hfound', hsame⟩ := hrearranged
      (listingOnly ["a/1.0.0+7", "notes", "b/1.0.0-x"]) {} .linuxX86 _ rfl
      (.andThen (.reorder (.swap _ _ _)) (.insert ["a/1.0.0+7"] _ (by decide +kernel)))
    have hfirst : (listingOnly ["b/1.0.0-x", "a/1.0.0+7"]).latest? {} .linuxX86 =
        .ok (some ⟨⟨1, 0, 0, none, none⟩, "b/1.0.0-x"⟩) := by decide +kernel
    rw [hfirst] at hfound
    cases hfound
    exact ⟨found', hfound', hsame⟩
  · obtain ⟨found, hfound, -, -, hrearranged⟩ := hentries ⟨bytesOf "/m"⟩ (binWith ["2.0.0-e"])
    obtain ⟨found', hfound', hsame⟩ := hrearranged ⟨bytesOf "/m"⟩ (binWith ["notes", "2.0.0-e"])
      (.insert [] [(bytesOf "2.0.0-e", true)] (by decide +kernel))
    have hfirst : (Store.mk (bytesOf "/m")).installed? (binWith ["2.0.0-e"]) =
        .ok (some ⟨⟨2, 0, 0, none, none⟩, "/m/bin/2.0.0-e"⟩) := by decide +kernel
    rw [hfirst] at hfound
    cases hfound
    exact ⟨found', hfound', hsame⟩

end EngineClient
