import Mathlib
import EngineClient.Repository
import EngineClient.Proofs.Version.Precedence

/-!
# Selections

A repository selects one of the keys that it lists: of the highest version, and of these the first.
Where keys are listed in order, the first is the least, so that the selection depends on nothing but
which keys are listed.
-/

namespace EngineClient.Repository

/-- What should be selected among some keys: nothing if none has a version, or else the least of
those of the highest version. -/
inductive Selects (among : String → Prop) : Option Asset → Prop
  | nothing (hnone : ∀ key, among key → Version.ofFileName? (keyName key) = none) :
      Selects among none
  | best {a : Asset} (hkey : among a.location)
      (hversion : Version.ofFileName? (keyName a.location) = some a.version)
      (hbest : ∀ key v, among key → Version.ofFileName? (keyName key) = some v →
        ¬a.version < v ∧ (¬v < a.version → a.location ≤ key)) : Selects among (some a)

variable {among among' : String → Prop} {keys : List String} {a : Asset}
variable {found found' : Option Asset}

private theorem candidate?_eq_some {key : String} (h : candidate? key = some a) :
    key = a.location ∧ Version.ofFileName? (keyName key) = some a.version := by
  obtain ⟨v, hv, rfl⟩ := Option.map_eq_some_iff.mp h
  exact ⟨rfl, hv⟩

private theorem candidate?_of_version {key : String} {v : Version}
    (h : Version.ofFileName? (keyName key) = some v) : candidate? key = some ⟨v, key⟩ := by
  rw [candidate?, h]
  rfl

theorem latest?_of_listKeys {r : Repository} {fs : FileSystem} {p : Platform}
    (h : r.listKeys fs p.folder = .ok keys) : r.latest? fs p = .ok (select keys) := by
  rw [latest?, h]
  rfl

theorem latest?_eq_ok {r : Repository} {fs : FileSystem} {p : Platform}
    (h : r.latest? fs p = .ok found) :
    ∃ keys, r.listKeys fs p.folder = .ok keys ∧ found = select keys := by
  rw [latest?] at h
  cases hkeys : r.listKeys fs p.folder with
  | error e =>
    rw [hkeys] at h
    cases h
  | ok keys =>
    rw [hkeys] at h
    exact ⟨keys, rfl, (Except.ok.inj h).symm⟩

/-! ## The first key of the highest version -/

/-- What is selected from a list of keys: nothing if none has a version, or else a key that exceeds
each before it and that no later one exceeds. -/
inductive SelectsFirst (keys : List String) : Option Asset → Prop
  | nothing (hnone : ∀ key ∈ keys, Version.ofFileName? (keyName key) = none) :
      SelectsFirst keys none
  | best {a : Asset} {before after : List String} (hkeys : keys = before ++ a.location :: after)
      (hversion : Version.ofFileName? (keyName a.location) = some a.version)
      (hbefore : ∀ key ∈ before, ∀ v, Version.ofFileName? (keyName key) = some v → v < a.version)
      (hafter : ∀ key ∈ after, ∀ v, Version.ofFileName? (keyName key) = some v → ¬a.version < v) :
      SelectsFirst keys (some a)

theorem select_selectsFirst (keys : List String) : SelectsFirst keys (select keys) := by
  cases hselect : select keys with
  | none =>
    refine .nothing fun key hkey => ?_
    have hnil : keys.filterMap candidate? = [] := highest_eq_none_iff.mp hselect
    have hnone := List.filterMap_eq_nil_iff.mp hnil key hkey
    exact Option.map_eq_none_iff.mp hnone
  | some a =>
    obtain ⟨before, after, hsplit, hbefore, hafter⟩ := highest_eq_some hselect
    obtain ⟨front, back, rfl, rfl, hback⟩ := List.filterMap_eq_append_iff.mp hsplit
    obtain ⟨idle, key, rest, rfl, hidle, hcandidate, rfl⟩ := List.filterMap_eq_cons_iff.mp hback
    obtain ⟨rfl, hversion⟩ := candidate?_eq_some hcandidate
    have hkeys : front ++ (idle ++ a.location :: rest) = (front ++ idle) ++ a.location :: rest :=
      (List.append_assoc _ _ _).symm
    refine .best hkeys hversion (fun key hkey v hv => ?_) fun key hkey v hv => ?_
    · have hcandidate := candidate?_of_version hv
      rcases List.mem_append.mp hkey with hkey | hkey
      · exact hbefore _ (List.mem_filterMap.mpr ⟨key, hkey, hcandidate⟩)
      · rw [hidle key hkey] at hcandidate
        cases hcandidate
    · exact hafter _ (List.mem_filterMap.mpr ⟨key, hkey, candidate?_of_version hv⟩)

/-- Among keys in order, the first of the highest version is the least. -/
theorem select_selects (hsorted : keys.Pairwise (· ≤ ·)) : Selects (· ∈ keys) (select keys) := by
  have hfirst := select_selectsFirst keys
  generalize select keys = found at hfirst ⊢
  cases hfirst with
  | nothing hnone => exact .nothing hnone
  | @best a before after hkeys hversion hbefore hafter =>
    subst hkeys
    obtain ⟨-, hsorted, -⟩ := List.pairwise_append.mp hsorted
    refine .best (List.mem_append_right _ List.mem_cons_self) hversion fun key v hkey hv => ?_
    rcases List.mem_append.mp hkey with hkey | hkey
    · have hlt := hbefore key hkey v hv
      exact ⟨fun hgt => Version.lt_irrefl _ (Version.lt_trans hgt hlt), fun hnot => absurd hlt hnot⟩
    rcases List.mem_cons.mp hkey with rfl | hkey
    · obtain rfl := Option.some.inj (hversion.symm.trans hv)
      exact ⟨Version.lt_irrefl _, fun _ => le_refl _⟩
    · exact ⟨hafter key hkey v hv, fun _ => (List.pairwise_cons.mp hsorted).1 key hkey⟩

namespace Selects

theorem mem (h : Selects among (some a)) : among a.location := by
  cases h with
  | best hkey => exact hkey

theorem unique (h : Selects among found) (h' : Selects among found') : found = found' := by
  cases h with
  | nothing hnone =>
    cases h' with
    | nothing => rfl
    | best hkey hversion =>
      rw [hnone _ hkey] at hversion
      cases hversion
  | @best a hkey hversion hbest =>
    cases h' with
    | nothing hnone =>
      rw [hnone _ hkey] at hversion
      cases hversion
    | @best b hkey' hversion' hbest' =>
      obtain ⟨hle, hfirst⟩ := hbest _ _ hkey' hversion'
      obtain ⟨hle', hfirst'⟩ := hbest' _ _ hkey hversion
      have hlocation : a.location = b.location := le_antisymm (hfirst hle') (hfirst' hle)
      rw [hlocation, hversion'] at hversion
      obtain ⟨v, location⟩ := a
      obtain ⟨w, location'⟩ := b
      obtain rfl : location = location' := hlocation
      obtain rfl : w = v := Option.some.inj hversion
      rfl

theorem restrict (h : Selects among found) (hsub : ∀ key, among' key → among key)
    (hfound : ∀ a ∈ found, among' a.location) : Selects among' found := by
  cases h with
  | nothing hnone => exact .nothing fun key hkey => hnone key (hsub key hkey)
  | best hkey hversion hbest =>
    exact .best (hfound _ rfl) hversion fun key v hkey hv => hbest key v (hsub key hkey) hv

theorem congr (h : Selects among found)
    (hiff : ∀ key v, Version.ofFileName? (keyName key) = some v → (among key ↔ among' key)) :
    Selects among' found := by
  cases h with
  | nothing hnone =>
    refine .nothing fun key hkey => ?_
    cases hversion : Version.ofFileName? (keyName key) with
    | none => rfl
    | some v =>
      rw [hnone key ((hiff key v hversion).mpr hkey)] at hversion
      cases hversion
  | best hkey hversion hbest =>
    exact .best ((hiff _ _ hversion).mp hkey) hversion fun key v hkey hv =>
      hbest key v ((hiff key v hv).mpr hkey) hv

end Selects

end EngineClient.Repository
