import Mathlib
import EngineClient.FileSystem

/-!
# Entries of a file system

What stands at a location after an entry has been put there, changed or removed, and when two such
changes make the same tree. The names of a directory are those of the locations right below it.
-/

namespace EngineClient.FileSystem

private theorem lookup_filter {α : Type} (keep : Location → Bool) (entries : List (Location × α))
    (loc : Location) : (entries.filter fun e => keep e.1).lookup loc =
      if keep loc then entries.lookup loc else none := by
  induction entries with
  | nil => simp
  | cons e entries ih =>
    obtain ⟨key, value⟩ := e
    rw [List.filter_cons]
    by_cases hloc : loc = key
    · subst hloc
      cases hk : keep loc <;> simp [hk, ih]
    · have hne : (loc == key) = false := beq_eq_false_iff_ne.mpr hloc
      cases hk : keep key <;> simp [List.lookup_cons, hne, ih]

private theorem lookup_modify {α : Type} (place : Location) (change : α → α)
    (entries : List (Location × α)) (loc : Location) :
    (entries.map fun e => if e.1 = place then (e.1, change e.2) else e).lookup loc =
      if loc = place then (entries.lookup loc).map change else entries.lookup loc := by
  induction entries with
  | nil => simp
  | cons e entries ih =>
    obtain ⟨key, value⟩ := e
    rw [List.map_cons]
    by_cases hloc : loc = key
    · subst hloc
      by_cases hp : loc = place
      · subst hp
        simp
      · simp [hp]
    · have hne : (loc == key) = false := beq_eq_false_iff_ne.mpr hloc
      by_cases hp : key = place
      · subst hp
        simp only [if_true, List.lookup_cons, hne, ih]
      · simp only [hp, if_false, List.lookup_cons, hne, ih]

variable {fs : FileSystem} {loc place : Location} {entry : Entry}

/-! ## What stands where -/

@[simp] private theorem entry?_root (fs : FileSystem) : fs.entry? [] = some .dir := rfl

theorem ne_root_of_missing (h : fs.entry? loc = none) : loc ≠ [] := by
  rintro rfl
  cases h

private theorem entry?_of_ne (h : loc ≠ []) : fs.entry? loc = fs.entries.lookup loc := if_neg h

theorem mem_entries (hloc : loc ≠ []) (h : fs.entry? loc = some entry) :
    (loc, entry) ∈ fs.entries := by
  rw [entry?_of_ne hloc] at h
  obtain ⟨before, after, heq, -⟩ := List.lookup_eq_some_iff.mp h
  simp [heq]

theorem entry?_erase (h : place ≠ []) :
    FileSystem.entry? (fs.erase place) loc = if loc = place then none else fs.entry? loc := by
  by_cases hroot : loc = []
  · subst hroot
    rw [entry?_root, entry?_root, if_neg h.symm]
  · rw [entry?_of_ne hroot, entry?_of_ne hroot, erase, lookup_filter (· != place)]
    by_cases heq : loc = place <;> simp [heq]

theorem entry?_put (h : place ≠ []) :
    FileSystem.entry? (fs.put place entry) loc =
      if loc = place then some entry else fs.entry? loc := by
  by_cases hroot : loc = []
  · subst hroot
    rw [entry?_root, entry?_root, if_neg h.symm]
  · rw [entry?_of_ne hroot, entry?_of_ne hroot, put, List.lookup_cons,
      lookup_filter (· != place)]
    by_cases heq : loc = place
    · simp [heq]
    · have hne : (loc == place) = false := beq_eq_false_iff_ne.mpr heq
      simp [heq, hne]

theorem entry?_modify (h : place ≠ []) (change : Entry → Entry) :
    FileSystem.entry? (fs.modify place change) loc =
      if loc = place then (fs.entry? loc).map change else fs.entry? loc := by
  by_cases hroot : loc = []
  · subst hroot
    rw [entry?_root, entry?_root, if_neg h.symm]
  · rw [entry?_of_ne hroot, entry?_of_ne hroot, modify, lookup_modify]

theorem of_entry?_erase (h : FileSystem.entry? (fs.erase place) loc = some entry) :
    fs.entry? loc = some entry := by
  by_cases hroot : place = []
  · by_cases hloc : loc = []
    · rw [hloc] at h ⊢
      exact h
    · rw [entry?_of_ne hloc, erase, lookup_filter (· != place)] at h
      rw [entry?_of_ne hloc]
      split at h
      · exact h
      · cases h
  · rw [entry?_erase hroot] at h
    split at h
    · cases h
    · exact h

theorem of_entry?_eraseTree (h : FileSystem.entry? (fs.eraseTree place) loc = some entry) :
    fs.entry? loc = some entry := by
  by_cases hloc : loc = []
  · rw [hloc] at h ⊢
    exact h
  · rw [entry?_of_ne hloc, eraseTree, lookup_filter fun l => !place.isPrefixOf l] at h
    rw [entry?_of_ne hloc]
    split at h
    · exact h
    · cases h

theorem mem_names {dir : Location} {name : Name} :
    name ∈ fs.names dir ↔ fs.entry? (dir ++ [name]) ≠ none := by
  rw [entry?_of_ne (by simp), Ne, List.lookup_eq_none_iff, names, List.mem_filterMap]
  constructor
  · rintro ⟨e, he, hname⟩ hnone
    split at hname
    · next hdir =>
      have heq : e.1 = dir ++ [name] := by
        rw [← hdir]
        exact (List.dropLast_append_getLast? name hname).symm
      simpa [heq] using hnone e he
    · cases hname
  · intro hsome
    push Not at hsome
    obtain ⟨e, he, hkey⟩ := hsome
    have heq : dir ++ [name] = e.1 := by simpa using hkey
    exact ⟨e, he, by simp [← heq]⟩

/-! ## Trees that are the same -/

theorem erase_of_missing (h : fs.entry? loc = none) : fs.erase loc = fs := by
  have hne := ne_root_of_missing h
  rw [entry?_of_ne hne, List.lookup_eq_none_iff] at h
  have hentries : fs.entries.filter (·.1 != loc) = fs.entries := by
    rw [List.filter_eq_self]
    intro e he
    have hne : loc ≠ e.1 := by simpa using h e he
    simpa using hne.symm
  simp only [erase, hentries]

theorem put_erase (fs : FileSystem) (loc : Location) (entry : Entry) :
    (fs.put loc entry).erase loc = fs.erase loc := by
  simp [put, erase]

private theorem map_filter_ne (entries : List (Location × Entry)) (loc : Location)
    (change : Entry → Entry) : (entries.filter (·.1 != loc)).map
      (fun e => if e.1 = loc then (e.1, change e.2) else e) = entries.filter (·.1 != loc) := by
  rw [List.map_congr_left, List.map_id]
  intro e he
  have hne : e.1 ≠ loc := by simpa using (List.mem_filter.mp he).2
  exact if_neg hne

theorem modify_erase (fs : FileSystem) (loc : Location) (change : Entry → Entry) :
    (fs.modify loc change).erase loc = fs.erase loc := by
  have hkeys : ((fun e : Location × Entry => e.1 != loc) ∘
      fun e => if e.1 = loc then (e.1, change e.2) else e) = fun e => e.1 != loc := by
    funext e
    simp only [Function.comp_apply]
    split <;> rfl
  simp only [modify, erase, List.filter_map, hkeys, map_filter_ne]

theorem modify_put (fs : FileSystem) (loc : Location) (entry : Entry) (change : Entry → Entry) :
    (fs.put loc entry).modify loc change = fs.put loc (change entry) := by
  simp only [put, modify, List.map_cons, if_true, map_filter_ne]

theorem modify_of_missing (h : fs.entry? loc = none) (change : Entry → Entry) :
    fs.modify loc change = fs := by
  have hne := ne_root_of_missing h
  rw [entry?_of_ne hne, List.lookup_eq_none_iff] at h
  have hentries : fs.entries.map (fun e => if e.1 = loc then (e.1, change e.2) else e) =
      fs.entries := by
    rw [List.map_congr_left, List.map_id]
    intro e he
    have hne : loc ≠ e.1 := by simpa using h e he
    exact if_neg hne.symm
  simp only [modify, hentries]

theorem modify_modify (fs : FileSystem) (loc : Location) (first second : Entry → Entry) :
    (fs.modify loc first).modify loc second = fs.modify loc (second ∘ first) := by
  simp only [modify, List.map_map, FileSystem.mk.injEq, and_true]
  apply List.map_congr_left
  intro e _
  by_cases h : e.1 = loc <;> simp [h]

theorem modify_comm (fs : FileSystem) {loc place : Location} (h : loc ≠ place)
    (first second : Entry → Entry) :
    (fs.modify loc first).modify place second = (fs.modify place second).modify loc first := by
  simp only [modify, List.map_map, FileSystem.mk.injEq, and_true]
  apply List.map_congr_left
  intro e _
  by_cases hloc : e.1 = loc
  · simp [hloc, h]
  · by_cases hplace : e.1 = place <;> simp [hloc, hplace, h.symm]

private theorem filter_map_modify (keep : Location → Bool) (entries : List (Location × Entry))
    (place : Location) (change : Entry → Entry) :
    (entries.map fun e => if e.1 = place then (e.1, change e.2) else e).filter (fun e => keep e.1) =
      (entries.filter fun e => keep e.1).map
        fun e => if e.1 = place then (e.1, change e.2) else e := by
  rw [List.filter_map]
  congr 1
  apply List.filter_congr
  intro e _
  simp only [Function.comp_apply]
  split <;> rfl

theorem erase_modify (fs : FileSystem) (loc place : Location) (change : Entry → Entry) :
    (fs.modify place change).erase loc = (fs.erase loc).modify place change := by
  simp only [modify, erase]
  rw [filter_map_modify (· != loc)]

theorem eraseTree_modify (fs : FileSystem) (loc place : Location) (change : Entry → Entry) :
    (fs.modify place change).eraseTree loc = (fs.eraseTree loc).modify place change := by
  simp only [modify, eraseTree]
  rw [filter_map_modify fun l => !loc.isPrefixOf l]

theorem put_modify (fs : FileSystem) {loc place : Location} (h : loc ≠ place) (entry : Entry)
    (change : Entry → Entry) :
    (fs.modify place change).put loc entry = (fs.put loc entry).modify place change := by
  simp only [modify, put, List.map_cons, if_neg h]
  rw [filter_map_modify (· != loc)]

theorem names_modify (fs : FileSystem) (place : Location) (change : Entry → Entry)
    (dir : Location) : (fs.modify place change).names dir = fs.names dir := by
  simp only [modify, names, List.filterMap_map]
  congr 1
  funext e
  simp only [Function.comp_apply]
  split <;> rfl

end EngineClient.FileSystem
