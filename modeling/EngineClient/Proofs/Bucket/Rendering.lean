import Mathlib
import EngineClient.Proofs.Bucket.Entities

/-!
# Elements of a listing

A text with elements of one name in it, and no other start of such an element, holds just these. So
a listing is read as the keys that it was made from, whatever stands around them and however they are
escaped. Only empty keys are left out.
-/

namespace EngineClient.Listing

variable {name : String} {content idle text rest body : List Char} {contents : List (List Char)}
variable {names : List String}

def opening (name : String) : List Char := ("<" ++ name ++ ">").toList

def closing (name : String) : List Char := ("</" ++ name ++ ">").toList

def element (name : String) (content : List Char) : List Char :=
  opening name ++ content ++ closing name

private theorem opening_eq (name : String) : opening name = '<' :: (name.toList ++ ['>']) := by
  simp [opening]

private theorem closing_eq (name : String) :
    closing name = '<' :: '/' :: (name.toList ++ ['>']) := by
  simp [closing]

/-! ## One element -/

private theorem after?_append (start : String) (rest : List Char) :
    after? start (start.toList ++ rest) = some rest := by
  have hstart : start.toList.isPrefixOf (start.toList ++ rest) = true :=
    List.isPrefixOf_iff_prefix.mpr (List.prefix_append _ _)
  rw [after?, if_pos hstart, List.drop_left]

private theorem elementAt?_eq_none (h : ¬opening name <+: text) : elementAt? name text = none := by
  have hnone : after? ("<" ++ name ++ ">") text = none :=
    if_neg fun hstarts => h (List.isPrefixOf_iff_prefix.mp hstarts)
  rw [elementAt?, hnone]
  rfl

private theorem elementAt?_element (h : '<' ∉ content) (rest : List Char) :
    elementAt? name (element name content ++ rest) =
      some (content, (element name content).length) := by
  have hopening : after? ("<" ++ name ++ ">") (element name content ++ rest) =
      some (content ++ (closing name ++ rest)) := by
    rw [element, List.append_assoc, List.append_assoc]
    exact after?_append _ _
  have hclosing : after? ("</" ++ name ++ ">") (closing name ++ rest) = some rest :=
    after?_append _ _
  have hbehind : closing name ++ rest = '<' :: ('/' :: (name.toList ++ ['>']) ++ rest) := by
    rw [closing_eq]
    rfl
  rw [elementAt?, hopening]
  simp only [Option.bind_eq_bind, Option.bind_some]
  rw [hbehind, takeWhile_append_cut h, dropWhile_append_cut h, ← hbehind, hclosing]
  simp only [Option.bind_some, List.length_append, Nat.add_sub_cancel]
  rfl

/-! ## All elements -/

private theorem elementsAfter_length (name : String) (front rest : List Char) :
    elementsAfter name front.length (front ++ rest) = elements name rest := by
  induction front with
  | nil => rfl
  | cons c front ih => rw [List.length_cons, List.cons_append, elementsAfter, ih]

private theorem elements_element (h : '<' ∉ content) (rest : List Char) :
    elements name (element name content ++ rest) = content :: elements name rest := by
  have hfound : elementAt? name (element name content ++ rest) =
      some (content, (element name content).length) := elementAt?_element h rest
  obtain ⟨inside, hinside⟩ : ∃ inside, element name content = '<' :: inside :=
    ⟨_, by rw [element, opening_eq]; rfl⟩
  rw [hinside, List.cons_append] at hfound ⊢
  rw [elements, elementsAfter, hfound]
  simp only [List.length_cons, Nat.add_sub_cancel, elementsAfter_length]

private theorem not_prefix_append {start : List Char} (hstart : '<' ∉ start) (hidle : idle ≠ [])
    (hfree : ¬ '<' :: start <+: idle) (hrest : ∀ c ∈ rest.head?, c = '<') :
    ¬ '<' :: start <+: idle ++ rest := by
  intro hstarts
  rcases List.prefix_or_prefix_of_prefix hstarts (List.prefix_append idle rest) with
    h | ⟨more, hmore⟩
  · exact hfree h
  obtain ⟨c, idle, rfl⟩ := List.exists_cons_of_ne_nil hidle
  rw [List.cons_append] at hmore
  obtain ⟨rfl, rfl⟩ := List.cons.inj hmore
  cases more with
  | nil => exact hfree (by rw [List.append_nil])
  | cons d more =>
    rw [List.cons_append, List.cons_prefix_cons, List.prefix_append_right_inj] at hstarts
    obtain ⟨tail, rfl⟩ := hstarts.2
    obtain rfl : d = '<' := hrest d rfl
    exact hstart (List.mem_append_right _ List.mem_cons_self)

private theorem elements_idle (hname : '<' ∉ name.toList) (hidle : ¬opening name <:+: idle)
    (hrest : ∀ c ∈ rest.head?, c = '<') :
    elements name (idle ++ rest) = elements name rest := by
  induction idle with
  | nil => rfl
  | cons c idle ih =>
    have hfree : ¬opening name <+: c :: idle := fun h => hidle h.isInfix
    have hnone : elementAt? name (c :: (idle ++ rest)) = none := by
      apply elementAt?_eq_none
      rw [opening_eq] at hfree ⊢
      exact not_prefix_append (by simpa using hname) (List.cons_ne_nil c idle) hfree hrest
    rw [List.cons_append, elements, elementsAfter, hnone]
    exact ih fun h => hidle (h.trans (List.suffix_cons c idle).isInfix)

/-- A text with elements of a name, in order, and before, between and behind them text in which none
starts. -/
inductive Holds (name : String) : List (List Char) → List Char → Prop
  | idle (idle : List Char) (hidle : ¬opening name <:+: idle) : Holds name [] idle
  | element (idle : List Char) {content rest : List Char} {contents : List (List Char)}
      (hidle : ¬opening name <:+: idle) (hrest : Holds name contents rest) :
      Holds name (content :: contents) (idle ++ (element name content ++ rest))

private theorem Holds.elements (h : Holds name contents text) (hname : '<' ∉ name.toList)
    (hcontents : ∀ content ∈ contents, '<' ∉ content) : Listing.elements name text = contents := by
  induction h with
  | idle idle hidle =>
    rw [← List.append_nil idle, elements_idle hname hidle (by simp)]
    rfl
  | @element idle content rest contents hidle hrest ih =>
    have hstart : ∀ c ∈ (Listing.element name content ++ rest).head?, c = '<' := by
      intro c hc
      rw [Listing.element, opening_eq] at hc
      exact (Option.some.inj hc).symm
    rw [elements_idle hname hidle hstart, elements_element (hcontents _ List.mem_cons_self),
      ih fun other hother => hcontents other (List.mem_cons_of_mem _ hother)]

/-! ## Keys -/

/-- A body that is made from keys: each is escaped and put in an element of its own. -/
def Renders (names : List String) (body : List Char) : Prop :=
  ∃ texts, List.Forall₂ (fun name text => Escapes name.toList text) names texts ∧
    Holds "Key" texts body

private theorem map_unescape {texts : List (List Char)}
    (h : List.Forall₂ (fun name text => Escapes name.toList text) names texts) :
    texts.map unescape = names.map String.toList := by
  induction h with
  | nil => rfl
  | cons htext htexts ih => rw [List.map_cons, List.map_cons, htext.reads.unescape, ih]

private theorem less_not_mem_of_escapes {texts : List (List Char)}
    (h : List.Forall₂ (fun name text => Escapes name.toList text) names texts) :
    ∀ text ∈ texts, '<' ∉ text := by
  induction h with
  | nil => exact List.forall_mem_nil _
  | cons htext htexts ih => exact List.forall_mem_cons.mpr ⟨htext.less_not_mem, ih⟩

/-- For every list of keys, however they are escaped and whatever else the body says: those that are
not empty are read from it, in order. Every text can be escaped, and unescaping gives it back. -/
theorem keys_of_renders :
    (∀ names body, Renders names body → keys body = names.filter (· ≠ "")) ∧
      ∀ key, (∃ text, Escapes key text) ∧ ∀ text, Escapes key text → unescape text = key := by
  refine ⟨?_, fun key => ⟨exists_escapes key, fun text h => h.reads.unescape⟩⟩
  rintro names body ⟨texts, htexts, hbody⟩
  have hkept : (fun key : List Char => !key.isEmpty) ∘ String.toList =
      fun name => decide (name ≠ "") := by
    funext name
    rw [Function.comp_apply, Bool.eq_iff_iff]
    simp [String.toList_eq_nil_iff]
  have htextsRead : elements "Key" body = texts :=
    hbody.elements (by decide) (less_not_mem_of_escapes htexts)
  rw [keys, htextsRead, map_unescape htexts, List.filter_map, List.map_map, hkept]
  simp

/-- A key that spells entities itself, an empty one, and one with a greater-than sign and quotes,
between texts that look like elements. -/
def nestedBody : String :=
  "&lt;Key>a</Key><Ke<Key>&amp;lt;&amp;amp;</Key></Key><Key></Key>"
    ++ "&<Key>>&apos;\"</Key></Key>"

theorem keys_of_renders_nested :
    keys nestedBody.toList = ["&lt;&amp;", ">'\""] ∧
      unescape "&amp;lt;&amp;amp;".toList = "&lt;&amp;".toList := by
  have hspelled : Escapes "&lt;&amp;".toList "&amp;lt;&amp;amp;".toList := by
    have hescapes := Escapes.entity (e := "&amp;") (c := '&') (by decide)
      (.plains "lt;".toList (by simp) (.entity (e := "&amp;") (c := '&') (by decide)
        (.plains "amp;".toList (by simp) .nil)))
    simpa using hescapes
  have hquotes : Escapes ">'\"".toList ">&apos;\"".toList := by
    have hescapes := Escapes.plains ">".toList (by simp) (.entity (e := "&apos;") (c := '\x27')
      (by decide) (.plains "\"".toList (by simp) .nil))
    simpa using hescapes
  have hholds : Holds "Key" ["&amp;lt;&amp;amp;".toList, [], ">&apos;\"".toList] _ :=
    .element "&lt;Key>a</Key><Ke".toList (by decide +kernel)
      (.element "</Key>".toList (by decide +kernel)
        (.element "&".toList (by decide +kernel)
          (.idle "</Key>".toList (by decide +kernel))))
  have hbody : Renders ["&lt;&amp;", "", ">'\""] nestedBody.toList :=
    ⟨_, .cons hspelled (.cons .nil (.cons hquotes .nil)), by
      convert hholds
      decide +kernel⟩
  refine ⟨(keys_of_renders.1 _ _ hbody).trans (by decide +kernel), ?_⟩
  exact (keys_of_renders.2 _).2 _ hspelled

end EngineClient.Listing
