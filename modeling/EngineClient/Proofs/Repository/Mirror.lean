import Mathlib
import EngineClient.Proofs.Repository.Directory
import EngineClient.Proofs.Repository.Selection

/-!
# Mirrors of a bucket

A bucket lists all keys that start with the folder of a platform, a mirror of it the files right in
that folder. The mirror selects a binary of the platform. The bucket selects the same one exactly if
it selects one in the folder at all: the keys of a platform whose tag goes on where that of another
one ends start with the folder of the other one, and so do the keys below it.
-/

namespace EngineClient.Repository

open FileSystem

variable {fs : FileSystem} {root dir : Path} {keys : Finset String} {key : String}
variable {name : Name} {p : Platform} {text folder : String}

/-! ## Keys and paths -/

/-- A key right in the folder of a platform. -/
def InFolder (p : Platform) (key : String) : Prop :=
  ∃ text : String, '/' ∉ text.toList ∧ key = p.folder ++ "/" ++ text

/-- A key that is a path below a root: no segment is empty or moves in the tree. -/
def IsNormal (key : String) : Prop :=
  ∀ segment ∈ keySegments key, segment ≠ "" ∧ segment ≠ "." ∧ segment ≠ ".."

private theorem keySegments_folder (p : Platform) : keySegments p.folder = ["release", p.tag] := by
  cases p <;> decide

private theorem keyName_append (folder : String) (h : '/' ∉ text.toList) :
    keyName (folder ++ "/" ++ text) = text := by
  have htext : (folder ++ "/" ++ text).toList.reverse =
      text.toList.reverse ++ '/' :: folder.toList.reverse := by simp
  have hkept : ∀ c ∈ text.toList.reverse, (c != '/') = true := by
    intro c hc
    exact bne_iff_ne.mpr fun heq => h (heq ▸ List.mem_reverse.mp hc)
  rw [keyName, htext, List.takeWhile_append_of_pos hkept, List.takeWhile_cons_of_neg (by decide),
    List.append_nil, List.reverse_reverse, String.ofList_toList]

/-- The folder of a platform below a root. -/
def folderUnder (root : Path) (p : Platform) : Path :=
  (root.join (bytesOf "release")).join (bytesOf p.tag)

private theorem isPlain_tag (p : Platform) : Path.IsPlain (bytesOf p.tag) := by
  cases p <;> decide

private theorem folderUnder_closed (root : Path) (p : Platform) :
    folderUnder root p ≠ [] ∧ (folderUnder root p).endsOpen = false :=
  Path.join_closed _ (isPlain_tag p).1 (isPlain_tag p).2.1

private theorem pathUnder_folder (root : Path) (p : Platform) :
    pathUnder root p.folder = .ok (folderUnder root p) := by
  rw [pathUnder, keySegments_folder]
  cases p <;> rfl

private theorem trimFolder_folder (p : Platform) : trimFolder p.folder = p.folder := by
  cases p <;> decide

private theorem pathUnder_inFolder (root : Path) (p : Platform) (h : Path.IsPlain (bytesOf text)) :
    pathUnder root (p.folder ++ "/" ++ text) =
      .ok ((folderUnder root p).join (bytesOf text)) := by
  have hentry := pathUnder_entry (pathUnder_folder root p) h
  rwa [trimFolder_folder] at hentry

/-! ## Listings -/

/-- Whatever stands in a tree stands in a directory. -/
def Parented (fs : FileSystem) : Prop :=
  ∀ loc name, fs.entry? (loc ++ [name]) ≠ none → fs.entry? loc = some .dir

/-- A tree that holds below a root the objects under some keys, as far as keys are paths. -/
structure Mirrors (fs : FileSystem) (root : Path) (keys : Finset String) : Prop where
  tree : fs.IsTree
  parents : Parented fs
  holds : ∀ key path, IsNormal key → pathUnder root key = .ok path →
    (fs.isFile path = true ↔ key ∈ keys)

private theorem Mirrors.parent (h : Mirrors fs root keys) (hne : dir ≠ [])
    (hopen : dir.endsOpen = false) (hname : Path.IsPlain name)
    (hfile : fs.isFile (dir.join name) = true) :
    ∃ loc, fs.DirAt dir loc ∧ name ∈ fs.names loc := by
  obtain ⟨loc, f, hloc, hentry⟩ := isFile_iff.mp hfile
  obtain ⟨hspelled, n, hn, hleads⟩ := resolve_eq_ok_iff.mp hloc
  have hstart : fs.start (dir.join name) = fs.start dir := by
    rw [start, start, Path.isAbsolute_join dir hname.2.1]
  rw [Path.steps_join hne hopen hname, hstart] at hleads
  obtain ⟨k, m, mid, hkm, hmid, hlast, -⟩ := hleads.split (List.cons_ne_nil _ _)
  have hstands : fs.entry? (mid ++ [name]) ≠ none := by
    cases hlast with
    | self => exact absurd rfl hname.2.2.1
    | up => exact absurd rfl hname.2.2.2
    | enter _ hdir => rw [hdir]; exact Option.some_ne_none _
    | stop => rw [hentry]; exact Option.some_ne_none _
    | jump _ hlink => rw [hlink]; exact Option.some_ne_none _
  have hspelled' : dir.IsSpelled := by
    obtain ⟨hnul, -, hlength⟩ := hspelled
    rw [Path.join_eq hne hopen hname.2.1] at hnul hlength
    refine ⟨by simp_all, hne, ?_⟩
    simp only [List.length_append] at hlength
    omega
  exact ⟨mid, ⟨resolve_eq_ok_iff.mpr ⟨hspelled', k, by omega, hmid⟩,
    h.parents mid name hstands⟩, mem_names.mpr hstands⟩

private theorem isNormal_inFolder (h : Path.IsPlain (bytesOf text)) :
    IsNormal (p.folder ++ "/" ++ text) := by
  obtain ⟨hslash, htext⟩ := isPlain_bytesOf_iff.mp h
  have htag := (isPlain_bytesOf_iff.mp (isPlain_tag p)).2
  intro segment hsegment
  rw [keySegments_append _ hslash, keySegments_folder] at hsegment
  simp only [List.cons_append, List.nil_append, List.mem_cons, List.not_mem_nil, or_false]
    at hsegment
  rcases hsegment with rfl | rfl | rfl
  · decide
  · exact htag
  · exact htext

/-- The mirror lists the objects right in the folder of a platform whose keys are paths. -/
theorem Mirrors.listing (h : Mirrors fs root keys) (p : Platform) :
    ∃ listing, (ofDirectory root).listKeys fs p.folder = .ok listing ∧
      listing.Pairwise (· ≤ ·) ∧
      ∀ key, key ∈ listing ↔
        key ∈ keys ∧ ∃ text, Path.IsPlain (bytesOf text) ∧ key = p.folder ++ "/" ++ text := by
  obtain ⟨hne, hopen⟩ := folderUnder_closed root p
  have hfolder := pathUnder_folder root p
  have hholds : ∀ text, Path.IsPlain (bytesOf text) →
      (fs.isFile ((folderUnder root p).join (bytesOf text)) = true ↔
        p.folder ++ "/" ++ text ∈ keys) := fun text htext =>
    h.holds _ _ (isNormal_inFolder htext) (pathUnder_inFolder root p htext)
  by_cases hdir : fs.isDir (folderUnder root p) = true
  · obtain ⟨loc, hloc⟩ := isDir_iff.mp hdir
    refine ⟨_, listKeys_of_dirAt hfolder hloc, pairwise_keysIn _ _ _ _, fun key => ?_⟩
    rw [mem_keysIn_iff, trimFolder_folder]
    constructor
    · rintro ⟨text, hmem, hfile, rfl⟩
      have htext := h.tree.plain loc _ (mem_names.mp hmem)
      exact ⟨(hholds text htext).mp hfile, text, htext, rfl⟩
    · rintro ⟨hkey, text, htext, rfl⟩
      have hfile := (hholds text htext).mpr hkey
      obtain ⟨loc', hloc', hmem⟩ := h.parent hne hopen htext hfile
      obtain rfl := hloc'.unique hloc
      exact ⟨text, hmem, hfile, rfl⟩
  · refine ⟨[], listKeys_of_not_isDir hfolder hdir, .nil, fun key => ⟨nofun, ?_⟩⟩
    rintro ⟨hkey, text, htext, rfl⟩
    obtain ⟨loc, hloc, -⟩ := h.parent hne hopen htext ((hholds text htext).mpr hkey)
    exact absurd (isDir_iff.mpr ⟨loc, hloc⟩) hdir

/-- What a bucket answers when it is asked for the keys that start with a prefix. -/
structure Lists (start : String) (keys : Finset String) (listing : List String) : Prop where
  sorted : listing.Pairwise (· ≤ ·)
  complete : ∀ key, key ∈ listing ↔ key ∈ keys ∧ start.toList <+: key.toList

private theorem InFolder.starts (h : InFolder p key) : p.folder.toList <+: key.toList := by
  obtain ⟨text, -, rfl⟩ := h
  rw [String.append_assoc, String.toList_append]
  exact List.prefix_append _ _

private theorem Mirrors.latest? (h : Mirrors fs root keys) (p : Platform) :
    ∃ mirrored, (ofDirectory root).latest? fs p = .ok mirrored ∧
      Selects (fun key => key ∈ keys ∧ InFolder p key) mirrored := by
  obtain ⟨listing, hlisting, hsorted, hmem⟩ := h.listing p
  refine ⟨select listing, latest?_of_listKeys hlisting, ?_⟩
  refine (select_selects hsorted).congr fun key v hversion => ?_
  rw [hmem]
  refine and_congr_right fun _ => ⟨?_, ?_⟩
  · rintro ⟨text, htext, rfl⟩
    exact ⟨text, (isPlain_bytesOf_iff.mp htext).1, rfl⟩
  · rintro ⟨text, hslash, rfl⟩
    rw [keyName_append _ hslash] at hversion
    exact ⟨text, Version.isPlain_bytesOf hversion hslash, rfl⟩

/-- For every platform and set of keys: the mirror selects a key right in the folder of the
platform, and the best of these. A bucket with the same keys selects the same one exactly if it
selects one in the folder or none. So they agree where all keys that start with the folder are in
it. -/
theorem mirror_selects {bucket : Repository} {listing : List String} (h : Mirrors fs root keys)
    (hbucket : bucket.listKeys fs p.folder = .ok listing)
    (hlisting : Lists p.folder keys listing) :
    ∃ published mirrored, bucket.latest? fs p = .ok published ∧
      (ofDirectory root).latest? fs p = .ok mirrored ∧
      Selects (fun key => key ∈ keys ∧ p.folder.toList <+: key.toList) published ∧
      Selects (fun key => key ∈ keys ∧ InFolder p key) mirrored ∧
      (published = mirrored ↔ ∀ a ∈ published, InFolder p a.location) ∧
      ((∀ key ∈ keys, p.folder.toList <+: key.toList → InFolder p key) → published = mirrored) := by
  obtain ⟨mirrored, hlatest, hmirrored⟩ := h.latest? p
  have hpublished :
      Selects (fun key => key ∈ keys ∧ p.folder.toList <+: key.toList) (select listing) :=
    (select_selects hlisting.sorted).congr fun key _ _ => hlisting.complete key
  have hagree : (∀ a ∈ select listing, InFolder p a.location) → select listing = mirrored := by
    intro hin
    refine Selects.unique (hpublished.restrict (fun key hkey => ⟨hkey.1, hkey.2.starts⟩) ?_)
      hmirrored
    rintro a hselect
    rw [hselect] at hpublished
    exact ⟨hpublished.mem.1, hin a hselect⟩
  refine ⟨select listing, mirrored, by rw [latest?, hbucket]; rfl, hlatest, hpublished, hmirrored,
    ⟨?_, hagree⟩, fun hall => hagree fun a hselect => ?_⟩
  · rintro heq a hselect
    have hsome : mirrored = some a := heq ▸ Option.mem_def.mp hselect
    rw [hsome] at hmirrored
    exact hmirrored.mem.2
  · rw [hselect] at hpublished
    exact hall _ hpublished.mem.1 hpublished.mem.2

/-! ## Trees without links -/

private theorem eq_append_of_leads {follow : Bool} {n : Nat} {here out : Location}
    {names : List Name} (hlinks : ∀ loc target, fs.entry? loc ≠ some (.link target))
    (hnames : ∀ name ∈ names, Path.IsPlain name) (h : Leads fs follow n here names out) :
    out = here ++ names := by
  induction h with
  | done here => rw [List.append_nil]
  | self => exact absurd rfl (hnames Path.self List.mem_cons_self).2.2.1
  | up => exact absurd rfl (hnames Path.up List.mem_cons_self).2.2.2
  | enter _ _ _ ih =>
    rw [ih fun name hname => hnames name (List.mem_cons_of_mem _ hname), List.append_assoc]
    rfl
  | stop => rfl
  | jump _ hlink => exact absurd hlink (hlinks _ _)

private theorem keyNames_of_isNormal (h : IsNormal key) : keyNames key = keySegments key := by
  rw [keyNames, List.filter_eq_self]
  intro segment hsegment
  simpa using (h segment hsegment).1

private theorem isPlain_of_isNormal (h : IsNormal key) :
    ∀ name ∈ (keySegments key).map bytesOf, Path.IsPlain name := by
  have hstays : ¬Strays key := by
    rintro ⟨segment, hsegment, hdots⟩
    exact hdots.elim (h segment hsegment).2.1 (h segment hsegment).2.2
  have hplain := isPlain_keyNames hstays
  rwa [keyNames_of_isNormal h] at hplain

private theorem steps_pathUnder {path : Path} (hne : root ≠ []) (hopen : root.endsOpen = false)
    (hnormal : IsNormal key) (h : pathUnder root key = .ok path) :
    path.steps = root.steps ++ (keySegments key).map bytesOf ∧
      path.isAbsolute = root.isAbsolute := by
  obtain ⟨-, rfl⟩ := pathUnder_eq_ok_iff.mp h
  rw [keyNames_of_isNormal hnormal]
  exact ⟨Path.steps_foldl_join hne hopen (isPlain_of_isNormal hnormal),
    (Path.goesOn_foldl root (isPlain_of_isNormal hnormal)).isAbsolute⟩

private theorem keySegments_injective {other : String} (h : keySegments key = keySegments other) :
    key = other := by
  have hsplit : key.toList.splitOn '/' = other.toList.splitOn '/' :=
    List.map_injective_iff.mpr (fun _ _ heq => String.ofList_injective heq) h
  have hlist : ['/'].intercalate (key.toList.splitOn '/') = key.toList :=
    List.intercalate_splitOn '/'
  rw [hsplit, List.intercalate_splitOn] at hlist
  exact (String.toList_inj.mp hlist).symm

private theorem Mirrors.of_entries (htree : fs.IsTree) (hparents : Parented fs)
    (hlinks : ∀ loc target, fs.entry? loc ≠ some (.link target)) (hne : root ≠ [])
    (hopen : root.endsOpen = false) (hplain : ∀ name ∈ root.steps, Path.IsPlain name)
    (hfiles : ∀ key f, fs.entry? (fs.start root ++ (root.steps ++ (keySegments key).map bytesOf)) =
      some (.file f) → key ∈ keys)
    (hkeys : ∀ key ∈ keys, ∀ path, pathUnder root key = .ok path → fs.isFile path = true) :
    Mirrors fs root keys where
  tree := htree
  parents := hparents
  holds := by
    intro key path hnormal hpath
    refine ⟨fun hfile => ?_, fun hkey => hkeys key hkey path hpath⟩
    obtain ⟨loc, f, hloc, hentry⟩ := isFile_iff.mp hfile
    obtain ⟨-, n, -, hleads⟩ := resolve_eq_ok_iff.mp hloc
    obtain ⟨hsteps, habsolute⟩ := steps_pathUnder hne hopen hnormal hpath
    have hstart : fs.start path = fs.start root := by rw [start, start, habsolute]
    rw [hsteps, hstart] at hleads
    have hnames : ∀ name ∈ root.steps ++ (keySegments key).map bytesOf, Path.IsPlain name := by
      intro name hname
      rcases List.mem_append.mp hname with hname | hname
      · exact hplain name hname
      · exact isPlain_of_isNormal hnormal name hname
    rw [eq_append_of_leads hlinks hnames hleads] at hentry
    exact hfiles key f hentry

/-! ### A tag that goes on where another one ends -/

/-- A mirror of binaries for three tags, below `/r`. -/
def publishedTree : FileSystem where
  entries :=
    [([[114]], .dir), ([[114], bytesOf "release"], .dir),
      ([[114], bytesOf "release", bytesOf "linux-x86_64"], .dir),
      ([[114], bytesOf "release", bytesOf "linux-x86_64-musl"], .dir),
      ([[114], bytesOf "release", bytesOf "mac-aarch64"], .dir),
      ([[114], bytesOf "release", bytesOf "linux-x86_64", bytesOf "1.0.0-e"], .file ⟨[1], 0⟩),
      ([[114], bytesOf "release", bytesOf "linux-x86_64-musl", bytesOf "2.0.0-e"], .file ⟨[2], 0⟩),
      ([[114], bytesOf "release", bytesOf "mac-aarch64", bytesOf "1.5.0-e"], .file ⟨[3], 0⟩)]

def publishedKeys : Finset String :=
  {"release/linux-x86_64/1.0.0-e", "release/linux-x86_64-musl/2.0.0-e",
    "release/mac-aarch64/1.5.0-e"}

private theorem published_mirrors : Mirrors publishedTree [47, 114] publishedKeys := by
  have hlinks : ∀ loc target, publishedTree.entry? loc ≠ some (.link target) := by
    intro loc target hlink
    have hroot : loc ≠ [] := by
      rintro rfl
      cases hlink
    have hmem := mem_entries hroot hlink
    simp [publishedTree] at hmem
  have hparents : Parented publishedTree := by
    intro loc name hname
    obtain ⟨entry, hentry⟩ := Option.ne_none_iff_exists'.mp hname
    have habove : ∀ e ∈ publishedTree.entries, publishedTree.entry? e.1.dropLast = some .dir := by
      decide +kernel
    have hdir := habove _ (mem_entries (by simp) hentry)
    rwa [List.dropLast_concat] at hdir
  refine Mirrors.of_entries (isTree_of_entries (by decide +kernel) rfl) hparents hlinks
    (by decide) (by decide) (by decide) (fun key f hentry => ?_) fun key hkey path hpath => ?_
  · have hfiles : ∀ e ∈ publishedTree.entries, e.2 = .dir ∨
        ∃ other ∈ publishedKeys, e.1 = [114] :: (keySegments other).map bytesOf := by
      decide +kernel
    have hroot : publishedTree.start [47, 114] ++
        (Path.steps [47, 114] ++ (keySegments key).map bytesOf) =
          [114] :: (keySegments key).map bytesOf := rfl
    rw [hroot] at hentry
    rcases hfiles _ (mem_entries (List.cons_ne_nil _ _) hentry) with hdir | ⟨other, hother, heq⟩
    · cases hdir
    · have hsegments := (List.cons.inj heq).2
      rw [keySegments_injective
        (List.map_injective_iff.mpr (fun _ _ h => bytesOf_injective h) hsegments)]
      exact hother
  · have hall : ∀ key ∈ publishedKeys, ∀ path ∈ (pathUnder [47, 114] key).toOption,
        publishedTree.isFile path = true := by decide +kernel
    exact hall key hkey path (by rw [hpath]; rfl)

private theorem Lists.of_keys {start : String} {listing : List String}
    (hsorted : listing.Pairwise (· ≤ ·)) (hsub : ∀ key ∈ listing, key ∈ keys)
    (hiff : ∀ key ∈ keys, key ∈ listing ↔ start.toList <+: key.toList) :
    Lists start keys listing where
  sorted := hsorted
  complete := fun key => ⟨fun hkey => ⟨hsub key hkey, (hiff key (hsub key hkey)).mp hkey⟩,
    fun ⟨hkey, hstart⟩ => (hiff key hkey).mpr hstart⟩

theorem mirror_selects_mac :
    (ofObjects (.ok ["release/mac-aarch64/1.5.0-e"]) []).latest? publishedTree .macArm =
      (ofDirectory [47, 114]).latest? publishedTree .macArm := by
  have hlisting : Lists Platform.macArm.folder publishedKeys ["release/mac-aarch64/1.5.0-e"] :=
    Lists.of_keys (by decide +kernel) (by decide +kernel) (by decide +kernel)
  have hall : ∀ key ∈ publishedKeys, Platform.macArm.folder.toList <+: key.toList →
      InFolder .macArm key := by
    intro key hkey hstart
    have hmac : ∀ key ∈ publishedKeys, Platform.macArm.folder.toList <+: key.toList →
        key = "release/mac-aarch64/1.5.0-e" := by decide +kernel
    exact ⟨"1.5.0-e", by decide, hmac key hkey hstart⟩
  have hlists : (ofObjects (.ok ["release/mac-aarch64/1.5.0-e"]) []).listKeys publishedTree
      Platform.macArm.folder = .ok ["release/mac-aarch64/1.5.0-e"] := rfl
  obtain ⟨published, mirrored, hpublished, hmirrored, -, -, -, hsame⟩ :=
    mirror_selects published_mirrors hlists hlisting
  rw [hpublished, hmirrored, hsame hall]

/-- The bucket selects a binary for another tag, the mirror one for the platform. -/
theorem bucket_selects_other_tag :
    let listing := ["release/linux-x86_64-musl/2.0.0-e", "release/linux-x86_64/1.0.0-e"]
    Mirrors publishedTree [47, 114] publishedKeys ∧
      Lists Platform.linuxX86.folder publishedKeys listing ∧
      (ofObjects (.ok listing) []).latest? publishedTree .linuxX86 =
        .ok (some ⟨⟨2, 0, 0, none, none⟩, "release/linux-x86_64-musl/2.0.0-e"⟩) ∧
      (ofDirectory [47, 114]).latest? publishedTree .linuxX86 =
        .ok (some ⟨⟨1, 0, 0, none, none⟩, "release/linux-x86_64/1.0.0-e"⟩) :=
  ⟨published_mirrors, Lists.of_keys (by decide +kernel) (by decide +kernel) (by decide +kernel),
    by decide +kernel, by decide +kernel⟩

end EngineClient.Repository
