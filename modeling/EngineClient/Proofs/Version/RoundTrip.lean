import Mathlib
import EngineClient.Proofs.Store.Installed
import EngineClient.Proofs.Version.Grammar

/-!
# Versions as texts

A version is written as its three numbers, without zeros that could be left out, and its tags. What
is written reads as the same version, and is the text that the version was read from unless a number
of that text is padded with zeros. In the name of a binary only what stands before the first dash is
read, so the tags may be lost there, but never the precedence.
-/

namespace EngineClient.Version

open Spelling

variable {digits rest : List Char} {parts : Spelling} {s t : String} {v w : Version} {c : Char}

/-! ## Numerals -/

/-- A zero leads that could be left out. -/
def IsPadded (digits : List Char) : Prop := ∃ more, more ≠ [] ∧ digits = '0' :: more

private theorem decimal_toDigits (n : Nat) : decimal (Nat.toDigits 10 n) = n := by
  rw [← ofDigitChars_eq_decimal]
  exact Nat.ofDigitChars_ten_toDigits

private theorem isNumeral_toDigits (n : UInt64) : IsNumeral (Nat.toDigits 10 n.toNat) where
  nonempty := Nat.toDigits_ne_nil
  digit _ hc := Nat.isDigit_of_mem_toDigits (by decide) (by decide) hc
  bounded := by
    rw [decimal_toDigits]
    exact n.toNat_lt

private theorem not_isPadded_toDigits (n : Nat) : ¬IsPadded (Nat.toDigits 10 n) := by
  induction n using Nat.strong_induction_on with
  | _ n ih =>
    rintro ⟨more, hmore, hdigits⟩
    by_cases hlt : n < 10
    · rw [Nat.toDigits_of_lt_base hlt] at hdigits
      exact hmore (List.cons.inj hdigits).2.symm
    · have hle : 10 ≤ n := Nat.le_of_not_lt hlt
      rw [Nat.toDigits_of_base_le (by decide) hle] at hdigits
      cases hfront : Nat.toDigits 10 (n / 10) with
      | nil => exact Nat.toDigits_ne_nil hfront
      | cons d others =>
        rw [hfront, List.cons_append] at hdigits
        obtain ⟨rfl, -⟩ := List.cons.inj hdigits
        have hshort : others = [] := by
          by_contra hothers
          exact ih _ (by omega) ⟨others, hothers, hfront⟩
        have hvalue := decimal_toDigits (n / 10)
        rw [hfront, hshort] at hvalue
        have hzero : decimal ['0'] = 0 := by decide
        omega

private theorem digitChar_of_isDigit (h : c.isDigit = true) :
    c.toNat - '0'.toNat < 10 ∧ Nat.digitChar (c.toNat - '0'.toNat) = c := by
  have hrange : 48 ≤ c.toNat ∧ c.toNat ≤ 57 := by
    simpa [Char.isDigit, UInt32.le_iff_toNat_le] using h
  change c.toNat - 48 < 10 ∧ Nat.digitChar (c.toNat - 48) = c
  refine ⟨by omega, ?_⟩
  rw [← Char.toNat_inj, Nat.toNat_digitChar_of_lt_ten (by omega)]
  omega

private theorem toDigits_decimal (hdigit : ∀ c ∈ digits, c.isDigit = true) (hne : digits ≠ [])
    (hpad : ¬IsPadded digits) : Nat.toDigits 10 (decimal digits) = digits := by
  induction digits using List.reverseRecOn with
  | nil => exact absurd rfl hne
  | append_singleton front c ih =>
    obtain ⟨hlt, hchar⟩ := digitChar_of_isDigit (hdigit c (by simp))
    have hvalue : decimal (front ++ [c]) = 10 * decimal front + (c.toNat - '0'.toNat) := by
      simp only [← ofDigitChars_eq_decimal, Nat.ofDigitChars_append, Nat.ofDigitChars_cons,
        Nat.ofDigitChars_nil]
    rw [hvalue]
    by_cases hnil : front = []
    · have hzero : decimal [] = 0 := rfl
      rw [hnil, hzero, Nat.mul_zero, Nat.zero_add, Nat.toDigits_of_lt_base hlt, hchar]
      rfl
    · have hfront : Nat.toDigits 10 (decimal front) = front := by
        apply ih (fun d hd => hdigit d (List.mem_append_left _ hd)) hnil
        rintro ⟨more, -, rfl⟩
        exact hpad ⟨more ++ [c], by simp, rfl⟩
      have hpos : 0 < decimal front := by
        apply Nat.pos_of_ne_zero
        intro hzero
        rw [hzero, Nat.toDigits_zero] at hfront
        exact hpad ⟨[c], by simp, by rw [← hfront]; rfl⟩
      rw [← Nat.toDigits_append_toDigits (by decide) hpos hlt, hfront,
        Nat.toDigits_of_lt_base hlt, hchar]

/-! ## Written versions -/

/-- A number among the parts is padded. -/
def Spelling.Padded (parts : Spelling) : Prop :=
  IsPadded parts.major ∨ IsPadded parts.minor ∨ IsPadded parts.patch

/-- The parts of the text that a version is written as. -/
def written (v : Version) : Spelling where
  major := Nat.toDigits 10 v.major.toNat
  minor := Nat.toDigits 10 v.minor.toNat
  patch := Nat.toDigits 10 v.patch.toNat
  prerelease := v.prerelease.map String.toList
  build := v.build.map String.toList

private theorem toList_toString (v : Version) :
    v.toString.toList = (written v).numbers ++ (written v).tags := by
  have htag : ∀ (mark : Char) (tag : Option String),
      (tagText (String.singleton mark) tag).toList = marked mark (tag.map String.toList) := by
    intro mark tag
    cases tag with
    | none => rfl
    | some tag => simp [tagText, marked]
  have hprerelease : (tagText "-" v.prerelease).toList = _ := htag '-' v.prerelease
  have hbuild : (tagText "+" v.build).toList = _ := htag '+' v.build
  simp [toString, numbers, tags, written, hprerelease, hbuild, Nat.repr_eq_ofList_toDigits]

private theorem written_tells (v : Version) : (written v).Tells v where
  major := (decimal_toDigits _).symm
  minor := (decimal_toDigits _).symm
  patch := (decimal_toDigits _).symm
  prerelease := by simp [written, Function.comp_def]
  build := by simp [written, Function.comp_def]

namespace Spelling

private theorem Tells.unique (h : parts.Tells v) (h' : parts.Tells w) : v = w := by
  obtain ⟨major, minor, patch, prerelease, build⟩ := v
  obtain ⟨major', minor', patch', prerelease', build'⟩ := w
  obtain rfl : major = major' := UInt64.toNat_inj.mp (h.major.trans h'.major.symm)
  obtain rfl : minor = minor' := UInt64.toNat_inj.mp (h.minor.trans h'.minor.symm)
  obtain rfl : patch = patch' := UInt64.toNat_inj.mp (h.patch.trans h'.patch.symm)
  obtain rfl : prerelease = prerelease' := h.prerelease.trans h'.prerelease.symm
  obtain rfl : build = build' := h.build.trans h'.build.symm
  rfl

private theorem Spells.written (h : parts.Spells t) (htells : parts.Tells v) :
    (written v).Spells v.toString where
  text := toList_toString v
  major := isNumeral_toDigits v.major
  minor := isNumeral_toDigits v.minor
  patch := isNumeral_toDigits v.patch
  prerelease := by
    intro tag htag
    apply h.prerelease
    simpa [Version.written, htells.prerelease, Function.comp_def] using htag
  build := by
    intro tag htag
    apply h.build
    simpa [Version.written, htells.build, Function.comp_def] using htag

/-- A text without padding is the one that its version is written as. -/
theorem Spells.toString_eq_iff (h : parts.Spells t) (htells : parts.Tells v) :
    v.toString = t ↔ ¬parts.Padded := by
  constructor
  · rintro rfl
    rw [h.unique (h.written htells)]
    rintro (hpad | hpad | hpad)
    all_goals exact not_isPadded_toDigits _ hpad
  · intro hpad
    simp only [Padded, not_or] at hpad
    obtain ⟨hmajor, hminor, hpatch⟩ := hpad
    have hparts : Version.written v = parts := by
      obtain ⟨major, minor, patch, prerelease, build⟩ := parts
      simp only [Version.written, htells.major, htells.minor, htells.patch, htells.prerelease,
        htells.build, mk.injEq]
      refine ⟨toDigits_decimal h.major.digit h.major.nonempty hmajor,
        toDigits_decimal h.minor.digit h.minor.nonempty hminor,
        toDigits_decimal h.patch.digit h.patch.nonempty hpatch, ?_, ?_⟩
      · simp [Function.comp_def]
      · simp [Function.comp_def]
    rw [← String.toList_inj, toList_toString, hparts, h.text]

/-! ## Names of binaries -/

/-- The parts that are read from a name that starts with these parts. The build stands behind the
prerelease, so it is not read where there is one. -/
def leading (parts : Spelling) : Spelling where
  major := parts.major
  minor := parts.minor
  patch := parts.patch
  prerelease := none
  build := if parts.prerelease = none then parts.build else none

private theorem Spells.leading (h : parts.Spells s) :
    parts.leading.Spells (String.ofList (parts.leading.numbers ++ parts.leading.tags)) where
  text := String.toList_ofList
  major := h.major
  minor := h.minor
  patch := h.patch
  prerelease := nofun
  build := by
    intro tag htag
    apply h.build
    simp only [Spelling.leading] at htag
    split at htag
    · exact htag
    · cases htag

private theorem Spells.takeWhile_name (h : parts.Spells s) (hrest : Stops (· != '-') rest) :
    (s.toList ++ rest).takeWhile (· != '-') = parts.leading.numbers ++ parts.leading.tags := by
  have hfront : ∀ {front : List Char}, '-' ∉ front → ∀ c ∈ front, (c != '-') = true := by
    intro front hdash c hc
    simp only [bne_iff_ne, ne_eq]
    rintro rfl
    exact hdash hc
  have hnumbers : '-' ∉ parts.numbers := by
    intro hmem
    have hchar := h.numbers_char _ hmem
    revert hchar
    decide
  rw [h.text]
  cases hprerelease : parts.prerelease with
  | none =>
    have htags : parts.leading.tags = parts.tags := by
      simp [tags, Spelling.leading, hprerelease]
    rw [htags]
    apply takeWhile_of_stops (hfront _) hrest
    rw [tags, hprerelease, List.mem_append, List.mem_append, not_or, not_or]
    exact ⟨hnumbers, List.not_mem_nil, not_mem_marked (by decide) (by decide) h.build⟩
  | some chars =>
    have htags : parts.leading.tags = [] := by
      simp [tags, marked, Spelling.leading, hprerelease]
    rw [htags, List.append_nil, tags, hprerelease, List.append_assoc]
    exact takeWhile_of_stops (hfront hnumbers) (stops_cons rfl)

private theorem Spells.ofFileName? (h : parts.Spells s) {name : String}
    (hname : name.toList = s.toList ++ rest) (hrest : Stops (· != '-') rest) :
    ∃ w, ofFileName? name = some w ∧ parts.leading.Tells w := by
  obtain ⟨w, hw, htells⟩ := h.leading.read?
  rw [String.toList_ofList] at hw
  refine ⟨w, ?_, htells⟩
  rw [Version.ofFileName?, hname, h.takeWhile_name hrest, hw]

end Spelling

private theorem precedence_of_leading (h : (written v).leading.Tells w) :
    w.precedence = v.precedence := by
  have hmajor : w.major = v.major := UInt64.toNat_inj.mp (h.major.trans (decimal_toDigits _))
  have hminor : w.minor = v.minor := UInt64.toNat_inj.mp (h.minor.trans (decimal_toDigits _))
  have hpatch : w.patch = v.patch := UInt64.toNat_inj.mp (h.patch.trans (decimal_toDigits _))
  rw [precedence, hmajor, hminor, hpatch]
  rfl

private theorem build_of_leading (h : (written v).leading.Tells w) :
    w.build = if v.prerelease = none then v.build else none := by
  rw [h.build]
  cases hprerelease : v.prerelease <;> simp [leading, written, hprerelease, Function.comp_def]

/-- A version that has been read is read back, all of it, from the text that it is written as, and
this is the text it was read from exactly if no number there is padded. In the name of a binary,
with or without a base name behind a dash, it is recognised by its precedence: a version of the same
rank is read, without a prerelease, and with the build unless a prerelease stands before it. So a
file of that name is found as a binary of this rank. -/
theorem version_reads_back {t : String} {v : Version} (h : parse t = .ok v) :
    parse v.toString = .ok v ∧
      (∃ parts : Spelling, parts.Spells t ∧ (v.toString = t ↔ ¬parts.Padded)) ∧
      ∀ base name : String, name = v.toString ∨ name = v.toString ++ "-" ++ base →
        ∃ w, ofFileName? name = some w ∧ sameRank w v = true ∧ compare w v = .eq ∧
          w.precedence = v.precedence ∧ w.prerelease = none ∧
          w.build = (if v.prerelease = none then v.build else none) ∧
          ∀ (s : Store) (fs : FileSystem), fs.isFile (s.pathOf (bytesOf name)) = true →
            s.candidate? fs (bytesOf name) = some ⟨w, lossyString (s.pathOf (bytesOf name))⟩ := by
  obtain ⟨parts, hparts, htells⟩ := read?_sound (parse_eq_ok_iff.mp h)
  have hwritten := hparts.written htells
  refine ⟨?_, ⟨parts, hparts, hparts.toString_eq_iff htells⟩, ?_⟩
  · obtain ⟨w, hw, hsame⟩ := hwritten.read?
    obtain rfl := (written_tells v).unique hsame
    exact parse_eq_ok_iff.mpr hw
  · intro base name hname
    obtain ⟨rest, htext, hrest⟩ : ∃ rest, name.toList = v.toString.toList ++ rest ∧
        Stops (· != '-') rest := by
      rcases hname with rfl | rfl
      · exact ⟨[], by simp, stops_nil⟩
      · exact ⟨'-' :: base.toList, by simp, stops_cons rfl⟩
    obtain ⟨w, hw, hlead⟩ := hwritten.ofFileName? htext hrest
    have hrank := precedence_of_leading hlead
    have hcompare := compare_eq_iff.mpr hrank
    refine ⟨w, hw, by rw [sameRank, hcompare]; rfl, hcompare, hrank, hlead.prerelease,
      build_of_leading hlead, ?_⟩
    intro s fs hfile
    exact Store.candidate?_eq_some_iff.mpr ⟨name, rfl, hfile, hw, rfl⟩

theorem version_reads_back_padded :
    let v : Version := ⟨1, 2, 3, some "rc.1", some "b_7"⟩
    parse "01.2.3-rc.1+b_7" = .ok v ∧ parse v.toString = .ok v ∧
      ∃ w, ofFileName? (v.toString ++ "-" ++ "lib-x+y.so") = some w ∧ compare w v = .eq ∧
        w.build = none := by
  intro v
  have hread : parse "01.2.3-rc.1+b_7" = .ok v := by decide +kernel
  obtain ⟨hback, -, hnames⟩ := version_reads_back hread
  obtain ⟨w, hw, -, hcompare, -, -, hbuild, -⟩ := hnames "lib-x+y.so" _ (Or.inr rfl)
  exact ⟨hread, hback, w, hw, hcompare, hbuild⟩

end EngineClient.Version
