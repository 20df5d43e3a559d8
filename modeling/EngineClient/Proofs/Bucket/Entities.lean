import Mathlib
import EngineClient.Bucket.Listing

/-!
# Entities

`Reads` tells what a text stands for when it is read once from left to right, each entity of a table
taken for its character and all else for itself. Replacing the first entity of the table everywhere
leaves a text that reads the same with the others, as long as its character begins none of them. So
replacing one after the other reads the whole table, and no character is read twice: five
replacements of a listing's entities are one `scan` of the text.
-/

namespace EngineClient.Listing

variable {old new front text rest out : List Char} {c d : Char} {e : String}
variable {table : List (String × Char)}

/-! ## Cutting -/

theorem takeWhile_append_cut (h : c ∉ front) (rest : List Char) :
    (front ++ c :: rest).takeWhile (· != c) = front := by
  have hkept : ∀ d ∈ front, (d != c) = true := fun d hd => bne_iff_ne.mpr fun heq => h (heq ▸ hd)
  rw [List.takeWhile_append_of_pos hkept, List.takeWhile_cons_of_neg (by simp), List.append_nil]

theorem dropWhile_append_cut (h : c ∉ front) (rest : List Char) :
    (front ++ c :: rest).dropWhile (· != c) = c :: rest := by
  have hkept : ∀ d ∈ front, (d != c) = true := fun d hd => bne_iff_ne.mpr fun heq => h (heq ▸ hd)
  rw [List.dropWhile_append_of_pos hkept, List.dropWhile_cons_of_neg (by simp)]

/-! ## Replacing -/

private theorem replaceAfter_length (old new front rest : List Char) :
    replaceAfter old new front.length (front ++ rest) = replaceAfter old new 0 rest := by
  induction front with
  | nil => rfl
  | cons c front ih => rw [List.length_cons, List.cons_append, replaceAfter, ih]

private theorem replaceAfter_match (old new rest : List Char) :
    replaceAfter (c :: old) new 0 (c :: old ++ rest) =
      new ++ replaceAfter (c :: old) new 0 rest := by
  have hmatch : (c :: old).isPrefixOf (c :: old ++ rest) = true :=
    List.isPrefixOf_iff_prefix.mpr (List.prefix_append _ _)
  rw [List.cons_append] at hmatch ⊢
  rw [replaceAfter, if_pos hmatch, List.length_cons, Nat.add_sub_cancel, replaceAfter_length]

private theorem replaceAfter_cons (h : ¬old <+: c :: rest) :
    replaceAfter old new 0 (c :: rest) = c :: replaceAfter old new 0 rest := by
  rw [replaceAfter, if_neg fun hmatch => h (List.isPrefixOf_iff_prefix.mp hmatch)]

private theorem prefix_of_prefix_replaceAfter {start : List Char} (hnew : d ∉ start)
    (h : start <+: replaceAfter old [d] 0 text) : start <+: text := by
  induction start generalizing text with
  | nil => exact List.nil_prefix
  | cons c start ih =>
    cases text with
    | nil => exact h
    | cons c' text =>
      by_cases hmatch : old <+: c' :: text
      · rw [replaceAfter, if_pos (List.isPrefixOf_iff_prefix.mpr hmatch), List.singleton_append,
          List.cons_prefix_cons] at h
        exact absurd (h.1 ▸ List.mem_cons_self) hnew
      · rw [replaceAfter_cons hmatch, List.cons_prefix_cons] at h
        exact List.cons_prefix_cons.mpr ⟨h.1, ih (List.not_mem_of_not_mem_cons hnew) h.2⟩

/-! ## Reading a text with entities -/

/-- What a text stands for, read from left to right with a table of entities. -/
inductive Reads (table : List (String × Char)) : List Char → List Char → Prop
  | nil : Reads table [] []
  | entity {e : String} {c : Char} {text out : List Char} (hentity : (e, c) ∈ table)
      (hrest : Reads table text out) : Reads table (e.toList ++ text) (c :: out)
  | plain {c : Char} {text out : List Char} (hplain : ∀ p ∈ table, ¬p.1.toList <+: c :: text)
      (hrest : Reads table text out) : Reads table (c :: text) (c :: out)

/-- An ampersand and a name, closed by a semicolon. -/
def IsEntity (e : String) : Prop :=
  ∃ name, e.toList = '&' :: (name ++ [';']) ∧ '&' ∉ name ∧ ';' ∉ name

private theorem IsEntity.eq_of_prefix {e' : String} (h : IsEntity e) (h' : IsEntity e')
    (hstarts : e.toList <+: e'.toList ++ text) : e = e' := by
  obtain ⟨name, hname, -, hsemi⟩ := h
  obtain ⟨name', hname', -, hsemi'⟩ := h'
  rw [hname, hname', List.cons_append, List.cons_prefix_cons] at hstarts
  obtain ⟨rest, hrest⟩ := hstarts.2
  rw [List.append_assoc, List.append_assoc, List.singleton_append, List.singleton_append] at hrest
  have hnames : name = name' := by
    rw [← takeWhile_append_cut hsemi rest, hrest, takeWhile_append_cut hsemi']
  rw [← String.toList_inj, hname, hname', hnames]

private theorem replaceAfter_append (h : '&' ∉ front) (rest : List Char) :
    replaceAfter ('&' :: old) new 0 (front ++ rest) =
      front ++ replaceAfter ('&' :: old) new 0 rest := by
  induction front with
  | nil => rfl
  | cons c front ih =>
    have hne : ¬ '&' :: old <+: c :: (front ++ rest) := fun hstarts =>
      h ((List.cons_prefix_cons.mp hstarts).1 ▸ List.mem_cons_self)
    rw [List.cons_append, replaceAfter_cons hne, ih (List.not_mem_of_not_mem_cons h)]
    rfl

private theorem IsEntity.replaceAfter_other {e' : String} (h : IsEntity e) (h' : IsEntity e')
    (hne : e ≠ e') (rest : List Char) :
    replaceAfter e.toList new 0 (e'.toList ++ rest) =
      e'.toList ++ replaceAfter e.toList new 0 rest := by
  have hno : ¬e.toList <+: e'.toList ++ rest := fun hstarts => hne (h.eq_of_prefix h' hstarts)
  obtain ⟨name, hname, -, -⟩ := h
  obtain ⟨name', hname', hamp', -⟩ := h'
  have hfront : '&' ∉ name' ++ [';'] := by simpa using hamp'
  rw [hname'] at hno ⊢
  rw [List.cons_append] at hno ⊢
  rw [replaceAfter_cons hno, hname, replaceAfter_append hfront]
  rfl

/-- Replacing the first entity of a table leaves a text that reads the same with the others, if no
other one has its character. -/
theorem Reads.replace (h : Reads ((e, d) :: table) text out)
    (hentities : ∀ p ∈ (e, d) :: table, IsEntity p.1)
    (hothers : ∀ p ∈ table, e ≠ p.1 ∧ d ∉ p.1.toList) :
    Reads table (replaceAfter e.toList [d] 0 text) out := by
  have he : IsEntity e := hentities (e, d) List.mem_cons_self
  induction h with
  | nil => exact .nil
  | @entity e' c text out hentity hrest ih =>
    rcases List.mem_cons.mp hentity with heq | hmem
    · obtain ⟨rfl, rfl⟩ := Prod.mk.inj heq
      have hreplaced : replaceAfter e'.toList [c] 0 (e'.toList ++ text) =
          c :: replaceAfter e'.toList [c] 0 text := by
        obtain ⟨name, hname, -, -⟩ := he
        rw [hname]
        exact replaceAfter_match _ _ _
      rw [hreplaced]
      refine .plain (fun p hp hstarts => ?_) ih
      obtain ⟨name, hname, -, -⟩ := hentities p (List.mem_cons_of_mem _ hp)
      rw [hname, List.cons_prefix_cons] at hstarts
      exact (hothers p hp).2 (hname ▸ hstarts.1 ▸ List.mem_cons_self)
    · have he' : IsEntity e' := hentities (e', c) hentity
      rw [he.replaceAfter_other he' (hothers (e', c) hmem).1]
      exact .entity hmem ih
  | @plain c text out hplain hrest ih =>
    have hreplaced : replaceAfter e.toList [d] 0 (c :: text) =
        c :: replaceAfter e.toList [d] 0 text :=
      replaceAfter_cons (hplain (e, d) List.mem_cons_self)
    rw [hreplaced]
    refine .plain (fun p hp hstarts => ?_) ih
    rw [← hreplaced] at hstarts
    exact hplain p (List.mem_cons_of_mem _ hp)
      (prefix_of_prefix_replaceAfter (hothers p hp).2 hstarts)

private theorem Reads.eq_of_nil (h : Reads [] text out) : text = out := by
  induction h with
  | nil => rfl
  | entity hentity => cases hentity
  | plain hplain hrest ih => rw [ih]

/-- Replacing the entities of a table one after the other reads the table, if none has the character
of one before it. -/
theorem Reads.foldl_replace (h : Reads table text out) (hentities : ∀ p ∈ table, IsEntity p.1)
    (hothers : table.Pairwise fun p q => p.1 ≠ q.1 ∧ p.2 ∉ q.1.toList) :
    table.foldl (fun text p => replaceAfter p.1.toList [p.2] 0 text) text = out := by
  induction table generalizing text with
  | nil => exact h.eq_of_nil
  | cons p table ih =>
    obtain ⟨hfirst, hrest⟩ := List.pairwise_cons.mp hothers
    exact ih (h.replace hentities hfirst) (fun q hq => hentities q (List.mem_cons_of_mem _ hq)) hrest

/-! ## The entities of a listing -/

/-- The entities of a listing with their characters, in the order in which they are replaced. -/
def entities : List (String × Char) :=
  [("&lt;", '<'), ("&gt;", '>'), ("&quot;", '"'), ("&apos;", '\x27'), ("&amp;", '&')]

private theorem isEntity_entities : ∀ p ∈ entities, IsEntity p.1 := by
  have hshape : ∀ p ∈ entities, ∃ name ∈ [p.1.toList.tail.dropLast],
      p.1.toList = '&' :: (name ++ [';']) ∧ '&' ∉ name ∧ ';' ∉ name := by decide
  intro p hp
  obtain ⟨name, -, hname⟩ := hshape p hp
  exact ⟨name, hname⟩

/-- Five replacements read a text once: what an entity leaves behind is never part of another. -/
theorem Reads.unescape (h : Reads entities text out) : Listing.unescape text = out := by
  have hunescape : Listing.unescape text =
      entities.foldl (fun text p => replaceAfter p.1.toList [p.2] 0 text) text := rfl
  rw [hunescape]
  exact h.foldl_replace isEntity_entities (by decide)

/-- A text read once from left to right. Where one of the five entities starts, it is passed over and
its character put out, and any other character is copied. -/
def scan : List Char → List Char
  | [] => []
  | '&' :: 'l' :: 't' :: ';' :: rest => '<' :: scan rest
  | '&' :: 'g' :: 't' :: ';' :: rest => '>' :: scan rest
  | '&' :: 'q' :: 'u' :: 'o' :: 't' :: ';' :: rest => '"' :: scan rest
  | '&' :: 'a' :: 'p' :: 'o' :: 's' :: ';' :: rest => '\x27' :: scan rest
  | '&' :: 'a' :: 'm' :: 'p' :: ';' :: rest => '&' :: scan rest
  | c :: rest => c :: scan rest

private theorem reads_scan (text : List Char) : Reads entities text (scan text) := by
  fun_induction scan text with
  | case1 => exact .nil
  | case2 rest ih => exact .entity (e := "&lt;") (by decide) ih
  | case3 rest ih => exact .entity (e := "&gt;") (by decide) ih
  | case4 rest ih => exact .entity (e := "&quot;") (by decide) ih
  | case5 rest ih => exact .entity (e := "&apos;") (by decide) ih
  | case6 rest ih => exact .entity (e := "&amp;") (by decide) ih
  | case7 c rest hlt hgt hquot hapos hamp ih =>
    refine .plain (fun p hp hstarts => ?_) ih
    obtain ⟨behind, hbehind⟩ := hstarts
    simp only [entities, List.mem_cons, List.not_mem_nil, or_false] at hp
    rcases hp with rfl | rfl | rfl | rfl | rfl <;>
      obtain ⟨hfirst, hnext⟩ := List.cons.inj hbehind
    · exact hlt behind hfirst.symm hnext.symm
    · exact hgt behind hfirst.symm hnext.symm
    · exact hquot behind hfirst.symm hnext.symm
    · exact hapos behind hfirst.symm hnext.symm
    · exact hamp behind hfirst.symm hnext.symm

/-- For every text, well-formed or not: replacing the five entities everywhere, one after the other,
gives what a single scan gives. -/
theorem unescape_eq_scan (text : List Char) : unescape text = scan text := (reads_scan text).unescape

example : scan "&amp;lt;&lt&&gt;&amp".toList = "&lt;&lt&>&amp".toList := by decide +kernel

/-- What a renderer may write for a text. The ampersand and the less-than sign must be written as
entities, and any of the other three may. -/
inductive Escapes : List Char → List Char → Prop
  | nil : Escapes [] []
  | entity {e : String} {c : Char} {key text : List Char} (hentity : (e, c) ∈ entities)
      (hrest : Escapes key text) : Escapes (c :: key) (e.toList ++ text)
  | plain {c : Char} {key text : List Char} (hamp : c ≠ '&') (hless : c ≠ '<')
      (hrest : Escapes key text) : Escapes (c :: key) (c :: text)

theorem exists_escapes (key : List Char) : ∃ text, Escapes key text := by
  induction key with
  | nil => exact ⟨[], .nil⟩
  | cons c key ih =>
    obtain ⟨text, htext⟩ := ih
    by_cases hamp : c = '&'
    · exact ⟨_, .entity (e := "&amp;") (by rw [hamp]; decide) htext⟩
    by_cases hless : c = '<'
    · exact ⟨_, .entity (e := "&lt;") (by rw [hless]; decide) htext⟩
    · exact ⟨_, .plain hamp hless htext⟩

namespace Escapes

variable {key : List Char}

theorem plains (front : List Char) (h : ∀ c ∈ front, c ≠ '&' ∧ c ≠ '<')
    (hrest : Escapes key text) : Escapes (front ++ key) (front ++ text) := by
  induction front with
  | nil => exact hrest
  | cons c front ih =>
    obtain ⟨hamp, hless⟩ := h c List.mem_cons_self
    exact .plain hamp hless (ih fun d hd => h d (List.mem_cons_of_mem _ hd))

theorem reads (h : Escapes key text) : Reads entities text key := by
  induction h with
  | nil => exact .nil
  | entity hentity hrest ih => exact .entity hentity ih
  | plain hamp hless hrest ih =>
    refine .plain (fun p hp hstarts => ?_) ih
    obtain ⟨name, hname, -, -⟩ := isEntity_entities p hp
    rw [hname, List.cons_prefix_cons] at hstarts
    exact hamp hstarts.1.symm

theorem less_not_mem (h : Escapes key text) : '<' ∉ text := by
  induction h with
  | nil => exact List.not_mem_nil
  | entity hentity hrest ih =>
    have hfree : ∀ p ∈ entities, '<' ∉ p.1.toList := by decide
    exact List.not_mem_append (hfree _ hentity) ih
  | plain hamp hless hrest ih => exact List.not_mem_cons_of_ne_of_not_mem hless.symm ih

end Escapes

end EngineClient.Listing
