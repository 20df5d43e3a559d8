import Mathlib
import EngineClient.Store

/-!
# The steps of a path

A name is plain if it is the last part of itself: not empty, without a slash, and neither the
directory itself nor the one above. The path of a plain name in the directory of the binary goes one
step further than the path of that directory.
-/

namespace EngineClient

theorem not_mem_of_mem_splitOn {α : Type} [BEq α] [LawfulBEq α] {cut : α} {text part : List α}
    (h : part ∈ text.splitOn cut) : cut ∉ part := by
  induction text generalizing part with
  | nil =>
    have hnil : part = [] := by simpa using h
    simp [hnil]
  | cons b text ih =>
    rw [List.splitOn_cons_eq_if_modifyHead] at h
    split at h
    · rcases List.mem_cons.mp h with rfl | h
      · exact List.not_mem_nil
      · exact ih h
    · next hb =>
      cases hs : text.splitOn cut with
      | nil => simp [hs] at h
      | cons first others =>
        rw [hs, List.modifyHead_cons] at h
        rcases List.mem_cons.mp h with rfl | h
        · have hfirst := ih (hs ▸ List.mem_cons_self)
          simp only [List.mem_cons, not_or]
          exact ⟨fun heq => hb (beq_iff_eq.mpr heq.symm), hfirst⟩
        · exact ih (hs ▸ List.mem_cons_of_mem _ h)

namespace Path

/-- Whether a name can be that of a directory entry. -/
def IsPlain (name : Name) : Prop := name ≠ [] ∧ slash ∉ name ∧ name ≠ self ∧ name ≠ up

instance (name : Name) : Decidable (IsPlain name) :=
  inferInstanceAs (Decidable (name ≠ [] ∧ slash ∉ name ∧ name ≠ self ∧ name ≠ up))

theorem of_mem_segments {p : Path} {name : Name} (h : name ∈ segments p) :
    name ≠ [] ∧ slash ∉ name := by
  obtain ⟨hsplit, hne⟩ := List.mem_filter.mp h
  exact ⟨by simpa using hne, not_mem_of_mem_splitOn hsplit⟩

theorem of_mem_steps {p : Path} {name : Name} (h : name ∈ steps p) : name ≠ [] ∧ slash ∉ name := by
  rcases List.mem_append.mp h with h | h
  · exact of_mem_segments h
  · split at h
    · obtain rfl := List.mem_singleton.mp h
      decide
    · cases h

theorem endsOpen_append {p : Path} {name : Name} (hne : name ≠ []) (hslash : slash ∉ name) :
    endsOpen (p ++ name) = false := by
  rw [endsOpen, List.getLast?_append]
  cases hlast : name.getLast? with
  | none => exact absurd (List.getLast?_eq_none_iff.mp hlast) hne
  | some last =>
    have hneq : last ≠ slash := fun heq => hslash (heq ▸ List.mem_of_getLast? hlast)
    simpa using hneq

private theorem segments_append (p q : Path) :
    segments (p ++ slash :: q) = segments p ++ segments q := by
  simp only [segments, List.splitOn_append_cons_self, List.filter_append]

private theorem segments_eq_singleton {name : Name} (hne : name ≠ []) (hslash : slash ∉ name) :
    segments name = [name] := by
  simp [segments, List.splitOn_eq_singleton hslash, hne]

theorem join_eq {p : Path} {name : Name} (hp : p ≠ []) (hopen : endsOpen p = false)
    (h : slash ∉ name) : p.join name = p ++ slash :: name := by
  have hhead : name.head? ≠ some slash := fun heq => h (List.mem_of_head? heq)
  have hempty : p.isEmpty = false := by simp [hp]
  simp [join, hhead, hempty, hopen]

theorem prefix_join (p : Path) {name : Name} (h : slash ∉ name) : p <+: p.join name := by
  have hhead : name.head? ≠ some slash := fun heq => h (List.mem_of_head? heq)
  rw [join, if_neg (by simpa using hhead)]
  split <;> exact List.prefix_append _ _

theorem isAbsolute_join (p : Path) {name : Name} (h : slash ∉ name) :
    isAbsolute (p.join name) = isAbsolute p := by
  cases p with
  | nil =>
    have hhead : name.head? ≠ some slash := fun heq => h (List.mem_of_head? heq)
    simpa [join, isAbsolute] using hhead
  | cons b rest =>
    obtain ⟨more, hmore⟩ := prefix_join (b :: rest) h
    rw [← hmore]
    rfl

private theorem segments_join (p : Path) {name : Name} (hne : name ≠ []) (hslash : slash ∉ name) :
    segments (p.join name) = segments p ++ [name] := by
  have hhead : name.head? ≠ some slash := fun heq => hslash (List.mem_of_head? heq)
  by_cases hp : p = []
  · subst hp
    have hjoin : join [] name = name := by simp [join, hhead]
    rw [hjoin, segments_eq_singleton hne hslash]
    rfl
  by_cases hopen : endsOpen p = true
  · obtain ⟨front, rfl⟩ := List.getLast?_eq_some_iff.mp (beq_iff_eq.mp hopen)
    have hfront : segments (front ++ [slash]) = segments front := by
      rw [segments_append]
      exact List.append_nil _
    rw [join, if_neg (by simpa using hhead), if_pos (by simp [hopen]), hfront, List.append_assoc,
      List.singleton_append, segments_append, segments_eq_singleton hne hslash]
  · rw [join_eq hp (Bool.not_eq_true _ ▸ hopen) hslash, segments_append,
      segments_eq_singleton hne hslash]

/-- The path of a plain name has one part more. -/
theorem parts_join (p : Path) {name : Name} (h : IsPlain name) :
    parts (p.join name) = parts p ++ [name] := by
  obtain ⟨hne, hslash, hself, -⟩ := h
  have hkept : [name].filter (· != self) = [name] := by simp [hself]
  rw [parts, parts, segments_join p hne hslash, isAbsolute_join p hslash]
  cases segments p with
  | nil => simp [hself]
  | cons first rest =>
    simp only [List.cons_append]
    split
    · rw [List.filter_append, hkept, List.cons_append]
    · rw [← List.cons_append, List.filter_append, hkept]

theorem join_closed (p : Path) {name : Name} (hne : name ≠ []) (hslash : slash ∉ name) :
    p.join name ≠ [] ∧ endsOpen (p.join name) = false := by
  have hhead : name.head? ≠ some slash := fun heq => hslash (List.mem_of_head? heq)
  rw [join, if_neg (by simpa using hhead)]
  split
  · exact ⟨by simp [hne], endsOpen_append hne hslash⟩
  · refine ⟨by simp, ?_⟩
    rw [List.append_cons]
    exact endsOpen_append hne hslash

theorem mem_segments_of_mem_parts {p : Path} {name : Name} (h : name ∈ parts p) :
    name ∈ segments p := by
  unfold parts at h
  split at h
  · cases h
  · next first rest hs =>
    rw [hs]
    split at h
    · rcases List.mem_cons.mp h with rfl | h
      · exact List.mem_cons_self
      · exact List.mem_cons_of_mem _ (List.mem_of_mem_filter h)
    · exact List.mem_of_mem_filter h

private theorem isPlain_of_fileName? {p : Path} {name : Name} (h : fileName? p = some name) :
    IsPlain name := by
  unfold fileName? at h
  split at h
  · next last hlast =>
    split at h
    · cases h
    · next hnot =>
      obtain rfl := Option.some.inj h
      obtain ⟨hne, hslash⟩ :=
        of_mem_segments (mem_segments_of_mem_parts (List.mem_of_getLast? hlast))
      simp only [Bool.or_eq_true, beq_iff_eq, not_or] at hnot
      exact ⟨hne, hslash, hnot.1, hnot.2⟩
  · cases h

private theorem fileName?_of_isPlain {name : Name} (h : IsPlain name) :
    fileName? name = some name := by
  obtain ⟨hne, hslash, hself, hup⟩ := h
  simp [fileName?, parts, segments_eq_singleton hne hslash, hself, hup]

/-- The path of a plain name goes one step further. -/
theorem steps_join {p : Path} {name : Name} (hp : p ≠ []) (hopen : endsOpen p = false)
    (h : IsPlain name) : steps (p.join name) = steps p ++ [name] := by
  obtain ⟨hne, hslash, -, -⟩ := h
  rw [steps, (join_closed p hne hslash).2, join_eq hp hopen hslash, segments_append,
    segments_eq_singleton hne hslash, steps, hopen]
  simp

end Path

namespace Store

open EngineClient.Path

/-- A binary can be installed under exactly the plain names. -/
theorem accepts_iff {name : Name} : accepts name = true ↔ IsPlain name := by
  rw [accepts, beq_iff_eq]
  exact ⟨isPlain_of_fileName?, fileName?_of_isPlain⟩

private theorem binDir_closed (s : Store) : s.binDir ≠ [] ∧ endsOpen s.binDir = false :=
  join_closed s.mount (by decide) (by decide)

theorem binDir_ne_nil (s : Store) : s.binDir ≠ [] := s.binDir_closed.1

theorem endsOpen_binDir (s : Store) : endsOpen s.binDir = false := s.binDir_closed.2

theorem parts_binDir (s : Store) : parts s.binDir ≠ [] := by
  rw [binDir, parts_join s.mount (by decide)]
  exact List.concat_ne_nil _ _

theorem isAbsolute_pathOf (s : Store) {name : Name} (h : slash ∉ name) :
    isAbsolute (s.pathOf name) = isAbsolute s.binDir :=
  isAbsolute_join s.binDir h

theorem steps_pathOf (s : Store) {name : Name} (h : IsPlain name) :
    steps (s.pathOf name) = steps s.binDir ++ [name] :=
  steps_join s.binDir_ne_nil s.endsOpen_binDir h

end Store

end EngineClient
