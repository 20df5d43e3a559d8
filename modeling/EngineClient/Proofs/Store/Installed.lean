import Mathlib
import EngineClient.Proofs.FileSystem.Resolve
import EngineClient.Proofs.Text.Utf8
import EngineClient.Proofs.Version.Precedence

/-!
# Installed binaries

A binary is installed under a name with a version if that name leads to a file in the directory of
the binary. The search for it finds one of the highest version. No partial file has such a name, and
a name with a version can be that of a binary unless there is a slash in it.
-/

namespace EngineClient

/-! ## Names -/

namespace Utf8

private theorem slash_mem_encodeChar {c : Char} (h : Path.slash ∈ String.utf8EncodeChar c) :
    c = '/' := by
  have hspells : Spells c.toNat (String.utf8EncodeChar c) := spells_written c.valid
  generalize String.utf8EncodeChar c = bytes at h hspells
  have htail : ∀ b, IsTail b → Path.slash ≠ b := by
    rintro _ ⟨hlow, -⟩ rfl
    exact absurd hlow (by decide)
  have hlead : ∀ b : UInt8, 0xC2 ≤ b.toNat → Path.slash ≠ b := by
    rintro _ hlow rfl
    exact absurd hlow (by decide)
  have hcode : c.toNat = 47 := by
    generalize c.toNat = v at hspells
    cases hspells with
    | one hb =>
      obtain rfl := List.mem_singleton.mp h
      rfl
    | two hb hs => simp [hlead _ hb.1, htail _ hs] at h
    | @three b _ _ hb hs hlow hhigh ht =>
      have hb := hlead b (by omega)
      simp [hb, htail _ hs, htail _ ht] at h
    | @four b _ _ _ hb hs hlow hhigh ht hu =>
      have hb := hlead b (by omega)
      simp [hb, htail _ hs, htail _ ht, htail _ hu] at h
  rw [← Char.ofNat_toNat c, hcode]

theorem slash_mem_encode {text : List Char} (h : Path.slash ∈ encode text) : '/' ∈ text := by
  obtain ⟨c, hc, hslash⟩ := List.mem_flatMap.mp h
  exact slash_mem_encodeChar hslash ▸ hc

end Utf8

namespace Version

variable {name : String} {v : Version}

private theorem head_bytesOf (h : ofFileName? name = some v) :
    ∃ c rest, Utf8.head (bytesOf name) = .char c rest ∧ c.isDigit = true := by
  obtain ⟨c, more, hname, hdigit⟩ := ofFileName?_isDigit h
  refine ⟨c, Utf8.encode more, Utf8.head_eq_char_iff.mpr ?_, hdigit⟩
  rw [bytesOf, hname]
  rfl

private theorem bytesOf_ne_dot (h : ofFileName? name = some v) (rest : Bytes) :
    bytesOf name ≠ 46 :: rest := by
  intro heq
  obtain ⟨c, rest', hhead, hdigit⟩ := head_bytesOf h
  have hdot : Utf8.head (46 :: rest) = .char '.' rest := rfl
  rw [heq, hdot] at hhead
  cases hhead
  cases hdigit

theorem isPlain_bytesOf (h : ofFileName? name = some v) (hslash : '/' ∉ name.toList) :
    Path.IsPlain (bytesOf name) := by
  refine ⟨?_, fun hmem => hslash (Utf8.slash_mem_encode hmem), bytesOf_ne_dot h _,
    bytesOf_ne_dot h _⟩
  intro hnil
  obtain ⟨c, rest, hhead, -⟩ := head_bytesOf h
  rw [hnil] at hhead
  cases hhead

end Version

namespace Store

open FileSystem

variable {s : Store} {fs : FileSystem} {name : String} {v : Version} {found : Option Asset}

theorem not_isPartialName (h : Version.ofFileName? name = some v) :
    isPartialName (bytesOf name) = false := by
  have hmark : partialMark.isPrefixOf (bytesOf name) = false := by
    by_contra hprefix
    obtain ⟨rest, hrest⟩ := List.isPrefixOf_iff_prefix.mp (eq_true_of_ne_false hprefix)
    have hdot : partialMark = [46, 100, 111, 119, 110, 108, 111, 97, 100, 45] := by decide
    rw [hdot] at hrest
    exact Version.bytesOf_ne_dot h _ hrest.symm
  rw [isPartialName, hmark, Bool.and_false]

/-! ## The search -/

/-- A binary of a version is installed under a name. -/
structure Installed (s : Store) (fs : FileSystem) (name : String) (v : Version) : Prop where
  listed : ∃ names, fs.readDir s.binDir = .ok names ∧ bytesOf name ∈ names
  isFile : fs.isFile (s.pathOf (bytesOf name)) = true
  version : Version.ofFileName? name = some v

/-- What a search should find: nothing if nothing is installed, or else a binary of the highest
version. -/
inductive Finds (s : Store) (fs : FileSystem) : Option Asset → Prop
  | nothing (hnone : ∀ name v, ¬s.Installed fs name v) : Finds s fs none
  | binary {name : String} {v : Version} (hname : s.Installed fs name v)
      (hbest : ∀ other w, s.Installed fs other w → ¬v < w) :
      Finds s fs (some ⟨v, lossyString (s.pathOf (bytesOf name))⟩)

theorem candidate?_eq_some_iff {key : Name} {a : Asset} : s.candidate? fs key = some a ↔
    ∃ name, key = bytesOf name ∧ fs.isFile (s.pathOf key) = true ∧
      Version.ofFileName? name = some a.version ∧ a.location = lossyString (s.pathOf key) := by
  rw [candidate?]
  split
  · next hfile =>
    cases htext : stringOf? key with
    | none =>
      simp only [reduceCtorEq, false_iff, not_exists, not_and]
      rintro name rfl
      rw [stringOf?_eq_some_iff.mpr rfl] at htext
      cases htext
    | some text =>
      obtain rfl := stringOf?_eq_some_iff.mp htext
      simp only [Option.map_eq_some_iff]
      constructor
      · rintro ⟨v, hv, rfl⟩
        exact ⟨text, rfl, hfile, hv, rfl⟩
      · rintro ⟨name, hname, -, hv, hloc⟩
        obtain rfl := bytesOf_injective hname
        exact ⟨a.version, hv, by rw [← hloc]⟩
  · next hfile => simp [hfile]

/-- The candidates in a directory are the installed binaries. -/
theorem mem_candidates_iff {names : List Name} {a : Asset}
    (hread : fs.readDir s.binDir = .ok names) : a ∈ names.filterMap (s.candidate? fs) ↔
      ∃ name, s.Installed fs name a.version ∧
        a.location = lossyString (s.pathOf (bytesOf name)) := by
  rw [List.mem_filterMap]
  simp only [candidate?_eq_some_iff]
  constructor
  · rintro ⟨_, hmem, name, rfl, hfile, hv, hloc⟩
    exact ⟨name, ⟨⟨names, hread, hmem⟩, hfile, hv⟩, hloc⟩
  · rintro ⟨name, ⟨⟨names', hread', hmem⟩, hfile, hv⟩, hloc⟩
    rw [hread] at hread'
    obtain rfl := Except.ok.inj hread'
    exact ⟨_, hmem, name, rfl, hfile, hv, hloc⟩

theorem installed?_finds (h : s.installed? fs = .ok found) : s.Finds fs found := by
  rw [installed?] at h
  split at h
  · next hdir =>
    obtain ⟨bin, hbin⟩ := isDir_iff.mp hdir
    have hread : fs.readDir s.binDir = .ok (fs.names bin) := readDir_eq_ok_iff.mpr ⟨bin, hbin, rfl⟩
    have hfound : highest ((fs.names bin).filterMap (s.candidate? fs)) = found := by
      rw [hread] at h
      exact Except.ok.inj h
    cases found with
    | none =>
      refine .nothing fun name v hname => ?_
      have hmem := (mem_candidates_iff (a := ⟨v, _⟩) hread).mpr ⟨name, hname, rfl⟩
      rw [highest_eq_none_iff.mp hfound] at hmem
      cases hmem
    | some a =>
      obtain ⟨name, hname, hloc⟩ := (mem_candidates_iff hread).mp (mem_of_highest hfound)
      obtain ⟨v, location⟩ := a
      obtain rfl : location = _ := hloc
      refine .binary hname fun other w hother => ?_
      exact not_lt_of_highest hfound
        ((mem_candidates_iff (a := ⟨w, _⟩) hread).mpr ⟨other, hother, rfl⟩)
  · next hdir =>
    obtain rfl := Except.ok.inj h
    refine .nothing fun name v hname => ?_
    obtain ⟨names, hread, -⟩ := hname.listed
    obtain ⟨bin, hbin, -⟩ := readDir_eq_ok_iff.mp hread
    exact hdir (isDir_iff.mpr ⟨bin, hbin⟩)

theorem installed?_of_dirAt {bin : Location} (h : fs.DirAt s.binDir bin) :
    ∃ found, s.installed? fs = .ok found := by
  rw [installed?, if_pos (isDir_iff.mpr ⟨bin, h⟩), readDir_eq_ok_iff.mpr ⟨bin, h, rfl⟩]
  exact ⟨_, rfl⟩

theorem exists_installed? (s : Store) (fs : FileSystem) : ∃ found, s.installed? fs = .ok found := by
  by_cases hdir : fs.isDir s.binDir = true
  · obtain ⟨bin, hbin⟩ := isDir_iff.mp hdir
    exact installed?_of_dirAt hbin
  · exact ⟨none, if_neg hdir⟩

theorem installed?_of_installed (h : s.Installed fs name v) :
    ∃ a, s.installed? fs = .ok (some a) := by
  obtain ⟨names, hread, -⟩ := h.listed
  obtain ⟨bin, hbin, -⟩ := readDir_eq_ok_iff.mp hread
  obtain ⟨found, hfound⟩ := installed?_of_dirAt hbin
  rw [hfound]
  cases installed?_finds hfound with
  | nothing hnone => exact absurd h (hnone name v)
  | binary => exact ⟨_, rfl⟩

theorem installed?_of_only {bin : Location} (hbin : fs.DirAt s.binDir bin)
    (hname : s.Installed fs name v) (honly : ∀ other w, s.Installed fs other w → other = name) :
    s.installed? fs = .ok (some ⟨v, lossyString (s.pathOf (bytesOf name))⟩) := by
  obtain ⟨found, hfound⟩ := installed?_of_dirAt hbin
  rw [hfound]
  cases installed?_finds hfound with
  | nothing hnone => exact absurd hname (hnone name v)
  | binary hother =>
    obtain rfl := honly _ _ hother
    have hv := hother.version
    rw [hname.version] at hv
    obtain rfl := Option.some.inj hv
    rfl

/-! ## Paths of text -/

theorem pathOf_bytesOf {mount : String} (hmount : s.mount = bytesOf mount) (name : String) :
    Path.ofString (lossyString (s.pathOf (bytesOf name))) = s.pathOf (bytesOf name) := by
  have hjoin : ∀ p q : String, ∃ r : String, Path.join (bytesOf p) (bytesOf q) = bytesOf r := by
    intro p q
    rw [Path.join]
    split
    · exact ⟨q, rfl⟩
    split
    · exact ⟨p ++ q, (bytesOf_append p q).symm⟩
    · refine ⟨p ++ ("/" ++ q), ?_⟩
      rw [bytesOf_append, bytesOf_append]
      rfl
  obtain ⟨bin, hbin⟩ : ∃ bin : String, s.binDir = bytesOf bin := by
    rw [binDir, hmount]
    exact hjoin mount "bin"
  obtain ⟨path, hpath⟩ := hjoin bin name
  rw [pathOf, hbin, hpath, lossyString_bytesOf, Path.ofString]

/-- Below such a directory the search answers with the path of a binary. -/
theorem Finds.path {mount : String} (hmount : s.mount = bytesOf mount) {a : Asset}
    (h : s.Finds fs (some a)) : ∃ name, s.Installed fs name a.version ∧
      Path.ofString a.location = s.pathOf (bytesOf name) := by
  cases h with
  | @binary name v hname => exact ⟨name, hname, pathOf_bytesOf hmount name⟩

end Store

end EngineClient
