import Mathlib
import EngineClient.Version

/-!
# The grammar of versions

A version is spelled as three numerals with dots between them, followed by a prerelease behind a
dash and a build behind a plus sign, each of which may be left out. A text is read as a version
exactly if it is spelled so. There is only one way to spell it so, and the version has what this way
tells.
-/

namespace EngineClient.Version

/-- The value of decimal digits, the highest place first. -/
def decimal (digits : List Char) : Nat :=
  Nat.ofDigits 10 (digits.reverse.map fun c => c.toNat - '0'.toNat)

/-- Digits of a number below 2⁶⁴. Any number of zeros may lead. -/
structure IsNumeral (digits : List Char) : Prop where
  nonempty : digits ≠ []
  digit : ∀ c ∈ digits, c.isDigit = true
  bounded : decimal digits < 2 ^ 64

/-- The text of a prerelease or a build: word characters and dots. -/
structure IsTag (tag : List Char) : Prop where
  nonempty : tag ≠ []
  char : ∀ c ∈ tag, Text.isWordChar c = true ∨ c = '.'

/-- The parts of a text that spells a version. -/
structure Spelling where
  major : List Char
  minor : List Char
  patch : List Char
  prerelease : Option (List Char)
  build : Option (List Char)

namespace Spelling

/-- A tag behind its mark, or nothing. -/
def marked (mark : Char) : Option (List Char) → List Char
  | some tag => mark :: tag
  | none => []

/-- The three numerals with their dots. -/
def numbers (parts : Spelling) : List Char :=
  parts.major ++ '.' :: (parts.minor ++ '.' :: parts.patch)

/-- The prerelease and the build with their marks. -/
def tags (parts : Spelling) : List Char :=
  marked '-' parts.prerelease ++ marked '+' parts.build

/-- A text consists of these parts, and each of them is as it should be. -/
structure Spells (parts : Spelling) (s : String) : Prop where
  text : s.toList = parts.numbers ++ parts.tags
  major : IsNumeral parts.major
  minor : IsNumeral parts.minor
  patch : IsNumeral parts.patch
  prerelease : ∀ tag ∈ parts.prerelease, IsTag tag
  build : ∀ tag ∈ parts.build, IsTag tag

/-- The parts tell all that a version has. -/
structure Tells (parts : Spelling) (v : Version) : Prop where
  major : v.major.toNat = decimal parts.major
  minor : v.minor.toNat = decimal parts.minor
  patch : v.patch.toNat = decimal parts.patch
  prerelease : v.prerelease = parts.prerelease.map String.ofList
  build : v.build = parts.build.map String.ofList

end Spelling

open Spelling

variable {p : Char → Bool} {front front' rest rest' text digits : List Char} {mark c : Char}
variable {n : UInt64} {found : Option String} {tag tag' : Option (List Char)}
variable {parts other : Spelling} {s : String} {v : Version}

/-! ## Runs of characters -/

/-- What follows does not go on with characters of a class. -/
def Stops (p : Char → Bool) (rest : List Char) : Prop := ∀ c ∈ rest.head?, p c = false

theorem stops_nil : Stops p [] := nofun

theorem stops_cons (h : p c = false) : Stops p (c :: rest) := by
  intro d hd
  obtain rfl : c = d := by simpa using hd
  exact h

private theorem stops_marked (hmark : p mark = false) (tag : Option (List Char))
    (hrest : Stops p rest) :
    Stops p (marked mark tag ++ rest) := by
  cases tag with
  | none => exact hrest
  | some tag => exact stops_cons hmark

theorem takeWhile_of_stops (hfront : ∀ c ∈ front, p c = true) (hrest : Stops p rest) :
    (front ++ rest).takeWhile p = front := by
  rw [List.takeWhile_append_of_pos hfront]
  cases rest with
  | nil => simp
  | cons c more => simp [hrest c rfl]

private theorem dropWhile_of_stops (hfront : ∀ c ∈ front, p c = true) (hrest : Stops p rest) :
    (front ++ rest).dropWhile p = rest := by
  rw [List.dropWhile_append_of_pos hfront]
  cases rest with
  | nil => rfl
  | cons c more => simp [hrest c rfl]

/-- A text can be cut in one place only where a run of characters ends. -/
theorem append_inj_of_stops (hfront : ∀ c ∈ front, p c = true) (hrest : Stops p rest)
    (hfront' : ∀ c ∈ front', p c = true) (hrest' : Stops p rest')
    (h : front ++ rest = front' ++ rest') : front = front' ∧ rest = rest' := by
  constructor
  · rw [← takeWhile_of_stops hfront hrest, h, takeWhile_of_stops hfront' hrest']
  · rw [← dropWhile_of_stops hfront hrest, h, dropWhile_of_stops hfront' hrest']

/-! ## Readers -/

theorem ofDigitChars_eq_decimal (digits : List Char) :
    Nat.ofDigitChars 10 digits 0 = decimal digits := by
  induction digits using List.reverseRecOn with
  | nil => rfl
  | append_singleton digits c ih =>
    have hlast : decimal (digits ++ [c]) = c.toNat - '0'.toNat + 10 * decimal digits := by
      simp [decimal, Nat.ofDigits_cons]
    rw [Nat.ofDigitChars_append, ih, Nat.ofDigitChars_cons, hlast, Nat.add_comm]
    rfl

private theorem readNumber_sound (h : readNumber text = some (n, rest)) :
    ∃ digits, text = digits ++ rest ∧ IsNumeral digits ∧ n.toNat = decimal digits := by
  rw [readNumber] at h
  split at h
  · cases h
  · next hgood =>
    obtain ⟨rfl, rfl⟩ : UInt64.ofNat _ = n ∧ _ = rest := by simpa using h
    simp only [Bool.or_eq_true, List.isEmpty_iff, decide_eq_true_eq, not_or, not_le] at hgood
    obtain ⟨hne, hbound⟩ := hgood
    refine ⟨_, List.takeWhile_append_dropWhile.symm, ⟨hne, ?_, ?_⟩, ?_⟩
    · intro c hc
      exact List.mem_takeWhile_imp hc
    · rwa [ofDigitChars_eq_decimal] at hbound
    · rw [UInt64.toNat_ofNat_of_lt' hbound, ofDigitChars_eq_decimal]

private theorem readNumber_append (hdigits : IsNumeral digits) (hrest : Stops Char.isDigit rest) :
    readNumber (digits ++ rest) = some (UInt64.ofNat (decimal digits), rest) := by
  have hbound : ¬UInt64.size ≤ decimal digits := Nat.not_le.mpr hdigits.bounded
  have hne : digits.isEmpty = false := by simpa using hdigits.nonempty
  rw [readNumber]
  simp [takeWhile_of_stops hdigits.digit hrest, dropWhile_of_stops hdigits.digit hrest,
    ofDigitChars_eq_decimal, hne, hbound]

private theorem readChar_eq_some_iff : readChar c text = some rest ↔ text = c :: rest := by
  cases text with
  | nil => simp [readChar]
  | cons d more => simp [readChar]

private theorem isTag_iff {chars : List Char} :
    IsTag chars ↔ chars ≠ [] ∧ ∀ c ∈ chars, isTagChar c = true := by
  constructor
  · intro h
    refine ⟨h.nonempty, fun c hc => ?_⟩
    simpa [isTagChar] using h.char c hc
  · intro h
    refine ⟨h.1, fun c hc => ?_⟩
    simpa [isTagChar] using h.2 c hc

private theorem readTag_sound (h : readTag mark text = some (found, rest)) :
    ∃ tag, text = marked mark tag ++ rest ∧ (∀ chars ∈ tag, IsTag chars) ∧
      found = tag.map String.ofList := by
  rw [readTag] at h
  cases hmark : readChar mark text with
  | none =>
    rw [hmark] at h
    cases h
    exact ⟨none, rfl, nofun, rfl⟩
  | some more =>
    obtain rfl := readChar_eq_some_iff.mp hmark
    simp only [hmark] at h
    split at h
    · cases h
    · next hne =>
      obtain ⟨rfl, rfl⟩ : some (String.ofList _) = found ∧ _ = rest := by simpa using h
      refine ⟨some (more.takeWhile isTagChar), ?_, ?_, rfl⟩
      · simp [marked]
      · intro chars hchars
        obtain rfl : more.takeWhile isTagChar = chars := by simpa using hchars
        refine isTag_iff.mpr ⟨by simpa using hne, fun c hc => ?_⟩
        exact List.mem_takeWhile_imp hc

private theorem readTag_append (htag : ∀ chars ∈ tag, IsTag chars) (hmark : Stops (· == mark) rest)
    (hrest : Stops isTagChar rest) :
    readTag mark (marked mark tag ++ rest) = some (tag.map String.ofList, rest) := by
  rw [readTag]
  cases tag with
  | none =>
    have hnone : readChar mark rest = none := by
      cases rest with
      | nil => rfl
      | cons d more =>
        have hne : d ≠ mark := by simpa using hmark d rfl
        simp [readChar, hne]
    simp [marked, hnone]
  | some chars =>
    obtain ⟨hne, hchars⟩ := isTag_iff.mp (htag chars rfl)
    have hread : readChar mark (mark :: (chars ++ rest)) = some (chars ++ rest) :=
      readChar_eq_some_iff.mpr rfl
    simp [marked, hread, takeWhile_of_stops hchars hrest, dropWhile_of_stops hchars hrest, hne]

/-! ## Texts that are spelled -/

theorem read?_sound (h : read? s.toList = some v) :
    ∃ parts : Spelling, parts.Spells s ∧ parts.Tells v := by
  simp only [read?, Option.bind_eq_bind, Option.bind_eq_some_iff] at h
  obtain ⟨⟨major, afterMajor⟩, hmajor, afterDot, hdot, ⟨minor, afterMinor⟩, hminor, afterDot',
    hdot', ⟨patch, afterPatch⟩, hpatch, ⟨pre, afterPre⟩, hpre, ⟨build, afterBuild⟩, hbuild,
    hend⟩ := h
  obtain ⟨majorDigits, htext, hmajorDigits, hmajorValue⟩ := readNumber_sound hmajor
  obtain ⟨minorDigits, hminorText, hminorDigits, hminorValue⟩ := readNumber_sound hminor
  obtain ⟨patchDigits, hpatchText, hpatchDigits, hpatchValue⟩ := readNumber_sound hpatch
  obtain ⟨preTag, hpreText, hpreTag, hpreFound⟩ := readTag_sound hpre
  obtain ⟨buildTag, hbuildText, hbuildTag, hbuildFound⟩ := readTag_sound hbuild
  have hdotText := readChar_eq_some_iff.mp hdot
  have hdotText' := readChar_eq_some_iff.mp hdot'
  simp only at hdotText hdotText' hminorText hpatchText hpreText hbuildText
  split at hend
  · next hempty =>
    obtain rfl := List.isEmpty_iff.mp hempty
    cases hend
    refine ⟨⟨majorDigits, minorDigits, patchDigits, preTag, buildTag⟩,
      ⟨?_, hmajorDigits, hminorDigits, hpatchDigits, hpreTag, hbuildTag⟩,
      ⟨hmajorValue, hminorValue, hpatchValue, hpreFound, hbuildFound⟩⟩
    rw [htext, hdotText, hminorText, hdotText', hpatchText, hpreText, hbuildText]
    simp [numbers, tags]
  · cases hend

private theorem stops_build (tag : Option (List Char)) :
    Stops isTagChar (marked '+' tag ++ []) ∧ Stops (· == '-') (marked '+' tag ++ []) :=
  ⟨stops_marked (by decide) tag stops_nil, stops_marked (by decide) tag stops_nil⟩

private theorem stops_tags (hdash : p '-' = false) (hplus : p '+' = false) (parts : Spelling) :
    Stops p parts.tags := by
  apply stops_marked hdash
  rw [← List.append_nil (marked '+' _)]
  exact stops_marked hplus _ stops_nil

theorem Spelling.Spells.read? (h : parts.Spells s) :
    ∃ v, read? s.toList = some v ∧ parts.Tells v := by
  have htext : s.toList = parts.major ++ '.' :: (parts.minor ++ '.' :: (parts.patch ++
      (marked '-' parts.prerelease ++ (marked '+' parts.build ++ [])))) := by
    simp [h.text, numbers, tags]
  have hdot : ∀ rest : List Char, Stops Char.isDigit ('.' :: rest) := fun _ => stops_cons rfl
  have hpatch : Stops Char.isDigit
      (marked '-' parts.prerelease ++ (marked '+' parts.build ++ [])) :=
    stops_marked rfl _ (stops_marked rfl _ stops_nil)
  obtain ⟨htagChar, hdash⟩ := stops_build parts.build
  have hchar : ∀ rest, readChar '.' ('.' :: rest) = some rest :=
    fun _ => readChar_eq_some_iff.mpr rfl
  let v : Version :=
    { major := UInt64.ofNat (decimal parts.major)
      minor := UInt64.ofNat (decimal parts.minor)
      patch := UInt64.ofNat (decimal parts.patch)
      prerelease := parts.prerelease.map String.ofList
      build := parts.build.map String.ofList }
  refine ⟨v, ?_, ⟨UInt64.toNat_ofNat_of_lt' h.major.bounded,
    UInt64.toNat_ofNat_of_lt' h.minor.bounded, UInt64.toNat_ofNat_of_lt' h.patch.bounded, rfl, rfl⟩⟩
  simp only [Version.read?, htext, Option.bind_eq_bind, Option.bind_some, hchar,
    readNumber_append h.major (hdot _), readNumber_append h.minor (hdot _),
    readNumber_append h.patch hpatch, readTag_append h.prerelease hdash htagChar,
    readTag_append h.build stops_nil stops_nil]
  rfl

/-! ## One way to spell a version -/

private theorem marked_inj (htag : ∀ chars ∈ tag, IsTag chars) (htag' : ∀ chars ∈ tag', IsTag chars)
    (hrest : Stops isTagChar rest) (hrest' : Stops isTagChar rest')
    (hmark : Stops (· == mark) rest) (hmark' : Stops (· == mark) rest')
    (h : marked mark tag ++ rest = marked mark tag' ++ rest') : tag = tag' ∧ rest = rest' := by
  cases tag with
  | none =>
    cases tag' with
    | none => exact ⟨rfl, h⟩
    | some chars' =>
      have hhead := hmark mark (by simp [show rest = _ from h, marked])
      simp at hhead
  | some chars =>
    cases tag' with
    | none =>
      have hhead := hmark' mark (by simp [show rest' = _ from h.symm, marked])
      simp at hhead
    | some chars' =>
      obtain ⟨rfl, hrests⟩ := append_inj_of_stops (isTag_iff.mp (htag chars rfl)).2 hrest
        (isTag_iff.mp (htag' chars' rfl)).2 hrest' (List.cons.inj h).2
      exact ⟨rfl, hrests⟩

theorem Spelling.Spells.unique (h : parts.Spells s) (h' : other.Spells s) : parts = other := by
  have htext := h.text.symm.trans h'.text
  simp only [numbers, tags, List.append_assoc, List.cons_append] at htext
  have hdot : ∀ rest : List Char, Stops Char.isDigit ('.' :: rest) := fun _ => stops_cons rfl
  obtain ⟨hmajor, htext⟩ := append_inj_of_stops h.major.digit (hdot _) h'.major.digit (hdot _) htext
  obtain ⟨hminor, htext⟩ := append_inj_of_stops h.minor.digit (hdot _) h'.minor.digit (hdot _)
    (List.cons.inj htext).2
  have htags : ∀ parts : Spelling, Stops Char.isDigit parts.tags := stops_tags rfl rfl
  obtain ⟨hpatch, htext⟩ := append_inj_of_stops h.patch.digit (htags parts) h'.patch.digit
    (htags other) (List.cons.inj htext).2
  obtain ⟨htagChar, hdash⟩ := stops_build parts.build
  obtain ⟨htagChar', hdash'⟩ := stops_build other.build
  rw [List.append_nil] at htagChar hdash htagChar' hdash'
  obtain ⟨hprerelease, htext⟩ :=
    marked_inj h.prerelease h'.prerelease htagChar htagChar' hdash hdash' htext
  obtain ⟨hbuild, -⟩ := marked_inj h.build h'.build stops_nil stops_nil stops_nil stops_nil
    (by simpa using htext)
  obtain ⟨_, _, _, _, _⟩ := parts
  obtain ⟨_, _, _, _, _⟩ := other
  simp only at hmajor hminor hpatch hprerelease hbuild
  rw [hmajor, hminor, hpatch, hprerelease, hbuild]

/-! ## Characters that are refused -/

/-- The part of a text before the first dash or plus sign. -/
def core (s : String) : List Char := s.toList.takeWhile fun c => c != '-' && c != '+'

theorem Spelling.Spells.numbers_char (h : parts.Spells s) :
    ∀ c ∈ parts.numbers, c.isDigit = true ∨ c = '.' := by
  intro c hc
  simp only [numbers, List.mem_append, List.mem_cons] at hc
  rcases hc with hc | hdot | hc | hdot | hc
  · exact Or.inl (h.major.digit c hc)
  · exact Or.inr hdot
  · exact Or.inl (h.minor.digit c hc)
  · exact Or.inr hdot
  · exact Or.inl (h.patch.digit c hc)

private theorem Spelling.Spells.core (h : parts.Spells s) : core s = parts.numbers := by
  rw [Version.core, h.text]
  apply takeWhile_of_stops _ (stops_tags (by decide) (by decide) parts)
  intro c hc
  have hne : c ≠ '-' ∧ c ≠ '+' := by
    rcases h.numbers_char c hc with hdigit | rfl
    · constructor
      · rintro rfl
        cases hdigit
      · rintro rfl
        cases hdigit
    · decide
  simp [hne.1, hne.2]

theorem not_mem_marked (hmark : mark ≠ c) (hchar : isTagChar c = false)
    (htag : ∀ chars ∈ tag, IsTag chars) : c ∉ marked mark tag := by
  cases tag with
  | none => exact List.not_mem_nil
  | some chars =>
    intro hmem
    rcases List.mem_cons.mp hmem with heq | hmem
    · exact hmark heq.symm
    · rw [(isTag_iff.mp (htag chars rfl)).2 c hmem] at hchar
      cases hchar

private theorem Spelling.Spells.newline_not_mem (h : parts.Spells s) : '\n' ∉ s.toList := by
  rw [h.text, List.mem_append, tags, List.mem_append, not_or, not_or]
  refine ⟨fun hmem => ?_, not_mem_marked (by decide) (by decide) h.prerelease,
    not_mem_marked (by decide) (by decide) h.build⟩
  have hchar := h.numbers_char _ hmem
  revert hchar
  decide

/-! ## Reading and spelling -/

theorem parse_eq_ok_iff : parse s = .ok v ↔ read? s.toList = some v := by
  rw [parse]
  cases read? s.toList with
  | none => simp
  | some w => simp

private theorem parse_eq_error {e : Error} (h : parse s = .error e) : e = .versionParse s := by
  rw [parse] at h
  split at h
  · cases h
  · exact (Except.error.inj h).symm

private theorem parse_of_not_spells (h : ∀ parts : Spelling, ¬parts.Spells s) :
    parse s = .error (.versionParse s) := by
  cases hparse : parse s with
  | error e => rw [parse_eq_error hparse]
  | ok v =>
    obtain ⟨parts, hparts, -⟩ := read?_sound (parse_eq_ok_iff.mp hparse)
    exact absurd hparts (h parts)

/-- A text is read as a version exactly if it is spelled as one. It is so in one way only, and the
version has what its parts tell. Any other text is refused with an error that repeats it, such as
one with anything but ASCII digits and dots before the first dash or plus sign, or with a line
break. -/
theorem parse_accepts_grammar (s : String) :
    ((∃ v, parse s = .ok v) ↔ ∃ parts : Spelling, parts.Spells s) ∧
      (∀ parts other : Spelling, parts.Spells s → other.Spells s → parts = other) ∧
      (∀ (v : Version) (parts : Spelling), parse s = .ok v → parts.Spells s → parts.Tells v) ∧
      ((∀ parts : Spelling, ¬parts.Spells s) → parse s = .error (.versionParse s)) ∧
      (∀ c ∈ core s, c.isDigit = false → c ≠ '.' → parse s = .error (.versionParse s)) ∧
      ('\n' ∈ s.toList → parse s = .error (.versionParse s)) := by
  refine ⟨⟨?_, ?_⟩, fun parts other => Spells.unique, ?_, parse_of_not_spells, ?_, ?_⟩
  · intro h
    obtain ⟨v, hv⟩ := h
    obtain ⟨parts, hparts, -⟩ := read?_sound (parse_eq_ok_iff.mp hv)
    exact ⟨parts, hparts⟩
  · intro h
    obtain ⟨parts, hparts⟩ := h
    obtain ⟨v, hv, -⟩ := hparts.read?
    exact ⟨v, parse_eq_ok_iff.mpr hv⟩
  · intro v parts hv hparts
    obtain ⟨w, hw, htells⟩ := hparts.read?
    rw [parse_eq_ok_iff.mp hv] at hw
    obtain rfl := Option.some.inj hw
    exact htells
  · intro c hc hdigit hdot
    apply parse_of_not_spells
    intro parts hparts
    rw [hparts.core] at hc
    rcases hparts.numbers_char c hc with h | h
    · rw [hdigit] at h
      cases h
    · exact hdot h
  · intro hmem
    exact parse_of_not_spells fun parts hparts => hparts.newline_not_mem hmem

example : parse "01.2.3-rc.1+b_7" = .ok ⟨1, 2, 3, some "rc.1", some "b_7"⟩ := by decide +kernel

example : parse "1.2.18446744073709551616" =
    .error (.versionParse "1.2.18446744073709551616") := by decide +kernel

end EngineClient.Version
