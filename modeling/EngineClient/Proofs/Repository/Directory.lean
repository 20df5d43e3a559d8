import Mathlib
import EngineClient.Repository
import EngineClient.Proofs.FileSystem.Tree
import EngineClient.Proofs.Store.Installed
import EngineClient.Proofs.Text.Order

/-!
# Repositories in a directory

A directory serves a key from the path that goes on from its root with the names in the key. A key
that moves in the tree is refused before anything is looked at, so that no path leaves the root. A
folder is listed with one key for each file in it whose name is a text, and the key leads back to
that file.
-/

namespace EngineClient

namespace Path

variable {p q : Path} {name name' : Name} {names : List Name}

/-! ## Paths that go on -/

private theorem join_injective (h : IsPlain name) (h' : IsPlain name')
    (heq : p.join name = p.join name') :
    name = name' := by
  have hparts := congrArg parts heq
  rw [parts_join p h, parts_join p h'] at hparts
  exact List.singleton_inj.mp (List.append_cancel_left hparts)

/-- A path that goes on from a root with some names, none of which moves in the tree. -/
structure GoesOn (root : Path) (names : List Name) (path : Path) : Prop where
  plain : ∀ name ∈ names, IsPlain name
  parts : parts path = parts root ++ names
  isAbsolute : isAbsolute path = isAbsolute root
  starts : root <+: path
  stays : names = [] → path = root

theorem goesOn_foldl (root : Path) (h : ∀ name ∈ names, IsPlain name) :
    GoesOn root names (names.foldl join root) := by
  induction names generalizing root with
  | nil => exact ⟨h, (List.append_nil _).symm, rfl, List.prefix_rfl, fun _ => rfl⟩
  | cons name names ih =>
    have hname := h name List.mem_cons_self
    have hrest := ih (root.join name) fun other hother => h other (List.mem_cons_of_mem _ hother)
    exact {
      plain := h
      parts := by
        rw [List.foldl_cons, hrest.parts, parts_join root hname, List.append_assoc,
          List.singleton_append]
      isAbsolute := hrest.isAbsolute.trans (isAbsolute_join root hname.2.1)
      starts := (prefix_join root hname.2.1).trans hrest.starts
      stays := nofun }

theorem steps_foldl_join (hne : p ≠ []) (hopen : endsOpen p = false)
    (h : ∀ name ∈ names, IsPlain name) : steps (names.foldl join p) = steps p ++ names := by
  induction names generalizing p with
  | nil => rw [List.foldl_nil, List.append_nil]
  | cons name names ih =>
    have hname := h name List.mem_cons_self
    obtain ⟨hne', hopen'⟩ := join_closed p hname.1 hname.2.1
    rw [List.foldl_cons, ih hne' hopen' fun other hother => h other (List.mem_cons_of_mem _ hother),
      steps_join hne hopen hname, List.append_assoc, List.singleton_append]

end Path

namespace Repository

open FileSystem

variable {fs : FileSystem} {root dir path : Path} {folder key text : String} {loc : Location}
variable {listing : List String}

/-! ## Names in a key -/

private theorem keySegments_append_slash (folder text : String) :
    keySegments (folder ++ "/" ++ text) = keySegments folder ++ keySegments text := by
  have htext : (folder ++ "/" ++ text).toList = folder.toList ++ '/' :: text.toList := by simp
  rw [keySegments, htext, List.splitOn_append_cons_self, List.map_append]
  rfl

theorem keySegments_append (folder : String) (h : '/' ∉ text.toList) :
    keySegments (folder ++ "/" ++ text) = keySegments folder ++ [text] := by
  rw [keySegments_append_slash]
  simp [keySegments, List.splitOn_eq_singleton h]

private theorem slash_mem_bytesOf : Path.slash ∈ bytesOf text ↔ '/' ∈ text.toList := by
  refine ⟨Utf8.slash_mem_encode, fun h => ?_⟩
  exact List.mem_flatMap.mpr ⟨'/', h, by decide⟩

theorem isPlain_bytesOf_iff : Path.IsPlain (bytesOf text) ↔
    '/' ∉ text.toList ∧ text ≠ "" ∧ text ≠ "." ∧ text ≠ ".." := by
  have hne : ∀ other : String, bytesOf text = bytesOf other ↔ text = other :=
    fun other => ⟨fun h => bytesOf_injective h, fun h => h ▸ rfl⟩
  have hnil : bytesOf "" = [] := by decide
  have hself : bytesOf "." = Path.self := by decide
  have hup : bytesOf ".." = Path.up := by decide
  rw [Path.IsPlain, slash_mem_bytesOf, ← hnil, ← hself, ← hup, Ne, Ne, Ne, hne, hne, hne]
  tauto

/-- The names in a key: its segments that are not empty. -/
def keyNames (key : String) : List String := (keySegments key).filter (!·.isEmpty)

/-- Whether a key has a segment that moves in the tree. -/
def Strays (key : String) : Prop := ∃ segment ∈ keySegments key, segment = "." ∨ segment = ".."

private theorem strays_iff :
    Strays key ↔ ∃ segment ∈ keyNames key, segment = "." ∨ segment = ".." := by
  constructor
  · rintro ⟨segment, hmem, hdots⟩
    refine ⟨segment, List.mem_filter.mpr ⟨hmem, ?_⟩, hdots⟩
    rcases hdots with rfl | rfl <;> decide
  · rintro ⟨segment, hmem, hdots⟩
    exact ⟨segment, List.mem_of_mem_filter hmem, hdots⟩

/-! ## Paths of keys -/

theorem isPlain_keyNames (h : ¬Strays key) :
    ∀ name ∈ (keyNames key).map bytesOf, Path.IsPlain name := by
  intro name hname
  obtain ⟨segment, hsegment, rfl⟩ := List.mem_map.mp hname
  obtain ⟨hmem, hne⟩ := List.mem_filter.mp hsegment
  obtain ⟨part, hpart, rfl⟩ := List.mem_map.mp hmem
  refine isPlain_bytesOf_iff.mpr ⟨?_, by simpa using hne, fun heq => ?_, fun heq => ?_⟩
  · rw [String.toList_ofList]
    exact not_mem_of_mem_splitOn hpart
  · exact h ⟨_, hmem, .inl heq⟩
  · exact h ⟨_, hmem, .inr heq⟩

private theorem pathUnder_of_strays (root : Path) (h : Strays key) :
    pathUnder root key = .error (.fetch (.invalidKey key)) := by
  rw [pathUnder]
  exact if_pos (by simpa [keyNames, and_assoc] using strays_iff.mp h)

private theorem pathUnder_of_not_strays (root : Path) (h : ¬Strays key) :
    pathUnder root key = .ok (((keyNames key).map bytesOf).foldl Path.join root) := by
  rw [pathUnder, List.foldl_map]
  exact if_neg fun hany => h (strays_iff.mpr (by simpa [keyNames, and_assoc] using hany))

theorem pathUnder_eq_ok_iff : pathUnder root key = .ok path ↔
    ¬Strays key ∧ path = ((keyNames key).map bytesOf).foldl Path.join root := by
  by_cases h : Strays key
  · simp [pathUnder_of_strays root h, h]
  · simp [pathUnder_of_not_strays root h, h, eq_comm]

/-- Where the path of a key may be. A key that strays is refused, listed or fetched, on every file
system. -/
structure Confines (root : Path) (key : String) : Prop where
  fails : (∃ e, pathUnder root key = .error e) ↔ Strays key
  refused : ∀ e, pathUnder root key = .error e → e = .fetch (.invalidKey key) ∧
    ∀ fs, (ofDirectory root).listKeys fs key = .error e ∧ (ofDirectory root).fetch fs key = .error e
  below : ∀ path, pathUnder root key = .ok path → root.GoesOn ((keyNames key).map bytesOf) path

private theorem confines (root : Path) (key : String) : Confines root key where
  fails := by
    refine ⟨fun ⟨e, he⟩ => ?_, fun h => ⟨_, pathUnder_of_strays root h⟩⟩
    by_contra h
    rw [pathUnder_of_not_strays root h] at he
    cases he
  refused := by
    intro e he
    have hlist : ∀ fs, (ofDirectory root).listKeys fs key = .error e := by
      intro fs
      simp only [ofDirectory, he]
    have hfetch : ∀ fs, (ofDirectory root).fetch fs key = .error e := by
      intro fs
      simp only [ofDirectory, he]
    refine ⟨?_, fun fs => ⟨hlist fs, hfetch fs⟩⟩
    by_cases h : Strays key
    · rw [pathUnder_of_strays root h] at he
      exact (Except.error.inj he).symm
    · rw [pathUnder_of_not_strays root h] at he
      cases he
  below := by
    intro path hpath
    obtain ⟨h, rfl⟩ := pathUnder_eq_ok_iff.mp hpath
    exact Path.goesOn_foldl root (isPlain_keyNames h)

/-! ## Keys of a folder -/

private theorem keyNames_append_slash (folder text : String) :
    keyNames (folder ++ "/" ++ text) = keyNames folder ++ keyNames text := by
  rw [keyNames, keySegments_append_slash, List.filter_append]
  rfl

private theorem keyNames_slashes (n : Nat) (folder : String) :
    keyNames (folder ++ String.ofList (List.replicate n '/')) = keyNames folder := by
  induction n generalizing folder with
  | zero => exact congrArg keyNames String.append_empty
  | succ n ih =>
    have hfirst : folder ++ String.ofList (List.replicate (n + 1) '/') =
        folder ++ "/" ++ String.ofList (List.replicate n '/') := by
      simp [← String.toList_inj, List.replicate_succ]
    have hrest : keyNames (String.ofList (List.replicate n '/')) = [] := by
      have hempty := ih ""
      rwa [String.empty_append] at hempty
    rw [hfirst, keyNames_append_slash, hrest, List.append_nil]

private theorem keyNames_trimFolder (folder : String) :
    keyNames (trimFolder folder) = keyNames folder := by
  have hslashes : ∀ c ∈ folder.toList.reverse.takeWhile (· == '/'), c = '/' := by
    intro c hc
    simpa using List.mem_takeWhile_imp hc
  have hfolder : folder = trimFolder folder ++ String.ofList
      (List.replicate (folder.toList.reverse.takeWhile (· == '/')).length '/') := by
    rw [← String.toList_inj, trimFolder]
    have hreverse := congrArg List.reverse (List.takeWhile_append_dropWhile
      (p := (· == '/')) (l := folder.toList.reverse))
    rw [List.reverse_append, List.reverse_reverse, List.eq_replicate_of_mem hslashes] at hreverse
    simpa using hreverse.symm
  conv_rhs => rw [hfolder]
  exact (keyNames_slashes _ _).symm

private theorem keyNames_entry (folder : String) (h : Path.IsPlain (bytesOf text)) :
    keyNames (trimFolder folder ++ "/" ++ text) = keyNames folder ++ [text] := by
  obtain ⟨hslash, hne, -⟩ := isPlain_bytesOf_iff.mp h
  have hname : keyNames text = [text] := by
    simp [keyNames, keySegments, List.splitOn_eq_singleton hslash, hne]
  rw [keyNames_append_slash, keyNames_trimFolder, hname]

/-- The key of an entry leads to that entry. -/
theorem pathUnder_entry (hdir : pathUnder root folder = .ok dir)
    (h : Path.IsPlain (bytesOf text)) :
    pathUnder root (trimFolder folder ++ "/" ++ text) = .ok (dir.join (bytesOf text)) := by
  obtain ⟨hfolder, rfl⟩ := pathUnder_eq_ok_iff.mp hdir
  obtain ⟨-, -, hself, hup⟩ := isPlain_bytesOf_iff.mp h
  have hkey : ¬Strays (trimFolder folder ++ "/" ++ text) := by
    rw [strays_iff, keyNames_entry folder h]
    rintro ⟨segment, hmem, hdots⟩
    rcases List.mem_append.mp hmem with hmem | hmem
    · exact hfolder (strays_iff.mpr ⟨segment, hmem, hdots⟩)
    · obtain rfl := List.mem_singleton.mp hmem
      exact hdots.elim hself hup
  rw [pathUnder_of_not_strays root hkey, keyNames_entry folder h, List.map_append,
    List.foldl_append]
  rfl

/-! ## Listings -/

theorem mem_keysIn_iff {names : List Name} : key ∈ keysIn fs dir folder names ↔
    ∃ text, bytesOf text ∈ names ∧ fs.isFile (dir.join (bytesOf text)) = true ∧
      key = trimFolder folder ++ "/" ++ text := by
  simp only [keysIn, List.mem_mergeSort, List.mem_map, List.mem_filterMap, List.mem_filter,
    stringOf?_eq_some_iff]
  constructor
  · rintro ⟨text, ⟨_, ⟨hmem, hfile⟩, rfl⟩, rfl⟩
    exact ⟨text, hmem, hfile, rfl⟩
  · rintro ⟨text, hmem, hfile, rfl⟩
    exact ⟨text, ⟨_, ⟨hmem, hfile⟩, rfl⟩, rfl⟩

theorem pairwise_keysIn (fs : FileSystem) (dir : Path) (folder : String) (names : List Name) :
    (keysIn fs dir folder names).Pairwise (· ≤ ·) := by
  have htrans : ∀ a b c : String, decide (a ≤ b) = true → decide (b ≤ c) = true →
      decide (a ≤ c) = true := by
    simpa using fun a b c => le_trans
  have htotal : ∀ a b : String, (decide (a ≤ b) || decide (b ≤ a)) = true := by
    simpa using le_total
  exact (List.pairwise_mergeSort htrans htotal _).imp of_decide_eq_true

private theorem nodup_keysIn {names : List Name} (h : names.Nodup) :
    (keysIn fs dir folder names).Nodup := by
  have hfiles : (names.filter fun name => fs.isFile (dir.join name)).Nodup :=
    h.sublist List.filter_sublist
  have htexts : ((names.filter fun name => fs.isFile (dir.join name)).filterMap stringOf?).Nodup :=
    hfiles.filterMap fun name name' text htext htext' =>
      (stringOf?_eq_some_iff.mp htext).trans (stringOf?_eq_some_iff.mp htext').symm
  refine (List.mergeSort_perm _ _).nodup_iff.mpr (htexts.map fun text text' heq => ?_)
  exact String.append_right_inj _ |>.mp heq

/-- Keys are listed in the order of their bytes. -/
theorem ordered_keysIn {names : List Name} (h : names.Nodup) :
    ((keysIn fs dir folder names).map bytesOf).Pairwise (· < ·) := by
  rw [List.pairwise_map]
  exact ((pairwise_keysIn fs dir folder names).and (nodup_keysIn h)).imp
    fun ⟨hle, hne⟩ => bytesOf_lt_bytesOf (lt_of_le_of_ne hle hne)

/-- A listing of the directory that a folder leads to: in the order of the bytes, with one key for
each file in it whose name is a text, and no other. Whatever the file system has become since, a key
is fetched from the path of its file. -/
structure Catalogues (fs : FileSystem) (root dir : Path) (folder : String)
    (listing : List String) : Prop where
  ordered : (listing.map bytesOf).Pairwise (· < ·)
  listed : ∀ loc text, fs.DirAt dir loc → bytesOf text ∈ fs.names loc →
    fs.isFile (dir.join (bytesOf text)) = true →
    ∃! key, key ∈ listing ∧ pathUnder root key = .ok (dir.join (bytesOf text))
  named : ∀ key ∈ listing, ∃ loc text, fs.DirAt dir loc ∧ bytesOf text ∈ fs.names loc ∧
    fs.isFile (dir.join (bytesOf text)) = true ∧ key = trimFolder folder ++ "/" ++ text ∧
    pathUnder root key = .ok (dir.join (bytesOf text))
  fetched : ∀ key ∈ listing, ∀ path, pathUnder root key = .ok path →
    ∀ fs' f, FileSystem.file? fs' path = some f →
      (ofDirectory root).fetch fs' key = .ok [.data f.data]

theorem listKeys_of_dirAt (hfolder : pathUnder root folder = .ok dir) (hdir : fs.DirAt dir loc) :
    (ofDirectory root).listKeys fs folder = .ok (keysIn fs dir folder (fs.names loc)) := by
  have hread : fs.readDir dir = .ok (fs.names loc) := readDir_eq_ok_iff.mpr ⟨loc, hdir, rfl⟩
  simp only [ofDirectory, hfolder, if_pos (isDir_iff.mpr ⟨loc, hdir⟩), hread]

theorem listKeys_of_not_isDir (hfolder : pathUnder root folder = .ok dir)
    (hdir : ¬fs.isDir dir = true) : (ofDirectory root).listKeys fs folder = .ok [] := by
  simp only [ofDirectory, hfolder, if_neg hdir]

private theorem fetch_of_file? {f : File} (hpath : pathUnder root key = .ok path)
    (hfile : fs.file? path = some f) : (ofDirectory root).fetch fs key = .ok [.data f.data] := by
  have hstat : fs.stat path = .ok (.file f) :=
    stat_eq_ok_iff.mpr (file?_eq_some_iff.mp hfile)
  simp only [ofDirectory, hpath, hstat]

private theorem catalogues_keysIn (htree : fs.IsTree) (hdistinct : fs.IsDistinct)
    (hfolder : pathUnder root folder = .ok dir) (hdir : fs.DirAt dir loc) :
    Catalogues fs root dir folder (keysIn fs dir folder (fs.names loc)) := by
  have hplain : ∀ text, bytesOf text ∈ fs.names loc → Path.IsPlain (bytesOf text) :=
    fun text hmem => htree.plain loc _ (mem_names.mp hmem)
  refine ⟨ordered_keysIn (hdistinct.nodup_names loc), ?listed, fun key hkey => ?named,
    fun key _ path hpath fs' f hfile => fetch_of_file? hpath hfile⟩
  case listed =>
    intro loc' text hdir' hmem hfile
    obtain rfl := hdir.unique hdir'
    have hpath := pathUnder_entry hfolder (hplain text hmem)
    refine ⟨_, ⟨mem_keysIn_iff.mpr ⟨text, hmem, hfile, rfl⟩, hpath⟩, ?_⟩
    rintro key ⟨hkey, hkeyPath⟩
    obtain ⟨text', hmem', -, rfl⟩ := mem_keysIn_iff.mp hkey
    rw [pathUnder_entry hfolder (hplain text' hmem')] at hkeyPath
    have hname := Path.join_injective (hplain text' hmem') (hplain text hmem)
      (Except.ok.inj hkeyPath)
    rw [bytesOf_injective hname]
  case named =>
    obtain ⟨text, hmem, hfile, rfl⟩ := mem_keysIn_iff.mp hkey
    exact ⟨loc, text, hdir, hmem, hfile, rfl, pathUnder_entry hfolder (hplain text hmem)⟩

private theorem catalogues_nil (hdir : ¬fs.isDir dir = true) :
    Catalogues fs root dir folder [] where
  ordered := List.Pairwise.nil
  listed := fun loc _ hloc => absurd (isDir_iff.mpr ⟨loc, hloc⟩) hdir
  named := nofun
  fetched := nofun

/-- For every root: a key is refused, before anything is opened, exactly if a segment of it is `.` or
`..`, and the path of any other key goes on from the root with the names in the key. Every folder
that is not refused is listed, and every file in it is fetched under the key it is listed for. -/
theorem directory_serves_listed (htree : fs.IsTree) (hdistinct : fs.IsDistinct) (root : Path) :
    (∀ key, Confines root key) ∧
      ∀ folder dir, pathUnder root folder = .ok dir →
        ∃ listing, (ofDirectory root).listKeys fs folder = .ok listing ∧
          Catalogues fs root dir folder listing := by
  refine ⟨confines root, fun folder dir hfolder => ?_⟩
  by_cases hdir : fs.isDir dir = true
  · obtain ⟨loc, hloc⟩ := isDir_iff.mp hdir
    exact ⟨_, listKeys_of_dirAt hfolder hloc, catalogues_keysIn htree hdistinct hfolder hloc⟩
  · exact ⟨[], listKeys_of_not_isDir hfolder hdir, catalogues_nil hdir⟩

/-- A directory `/r` with a file, a link to it and a name that is not a text. -/
def shelfTree : FileSystem where
  entries :=
    [([[114]], .dir), ([[114], [97]], .file ⟨[1], 0⟩), ([[114], [98]], .link [97]),
      ([[114], [255]], .file ⟨[2], 0⟩), ([[114], [99]], .dir)]

theorem directory_serves_listed_shelf :
    shelfTree.IsTree ∧ shelfTree.IsDistinct ∧
      (ofDirectory [47, 114]).listKeys shelfTree "//" = .ok ["/a", "/b"] ∧
      Catalogues shelfTree [47, 114] [47, 114] "//" ["/a", "/b"] := by
  have htree : shelfTree.IsTree := isTree_of_entries (by decide +kernel) rfl
  have hdistinct : shelfTree.IsDistinct := by
    rw [IsDistinct]
    decide +kernel
  have hlist : (ofDirectory [47, 114]).listKeys shelfTree "//" = .ok ["/a", "/b"] := by
    have hread : (ofDirectory [47, 114]).listKeys shelfTree "//" =
        .ok (keysIn shelfTree [47, 114] "//" [[97], [98], [255], [99]]) := by
      have hfolder : pathUnder [47, 114] "//" = .ok [47, 114] := by decide +kernel
      have hdir : shelfTree.isDir [47, 114] = true := by decide +kernel
      have hnames : shelfTree.readDir [47, 114] = .ok [[97], [98], [255], [99]] := by decide +kernel
      simp only [ofDirectory, hfolder, hdir, hnames, if_true]
    have hfiles : (([[97], [98], [255], [99]].filter fun name =>
        shelfTree.isFile (Path.join [47, 114] name)).filterMap stringOf?).map
          (fun name => trimFolder "//" ++ "/" ++ name) = ["/a", "/b"] := by decide +kernel
    rw [hread, keysIn, hfiles, List.mergeSort_of_pairwise (by decide)]
  obtain ⟨-, hfolders⟩ := directory_serves_listed htree hdistinct [47, 114]
  obtain ⟨listing, hlisting, hcatalogue⟩ := hfolders "//" [47, 114] (by decide +kernel)
  obtain rfl := Except.ok.inj (hlist.symm.trans hlisting)
  exact ⟨htree, hdistinct, hlist, hcatalogue⟩

end Repository

end EngineClient
