import Mathlib
import EngineClient.Store

/-!
# Precedence

Versions are ordered by their three numbers, so any two of them can be compared, though different
ones may be of the same rank. A search keeps the first of the candidates that no other one exceeds.
-/

namespace EngineClient

namespace Version

variable {a b c : Version}

private theorem lt_iff : a < b ↔ a.major.toNat < b.major.toNat ∨ a.major.toNat = b.major.toNat ∧
    (a.minor.toNat < b.minor.toNat ∨ a.minor.toNat = b.minor.toNat ∧
      a.patch.toNat < b.patch.toNat) := by
  change lt a b ↔ _
  simp only [lt, UInt64.lt_iff_toNat_lt, ← UInt64.toNat_inj]

theorem lt_irrefl (a : Version) : ¬a < a := by
  rw [lt_iff]
  omega

theorem lt_trans (h : a < b) (h' : b < c) : a < c := by
  rw [lt_iff] at h h' ⊢
  omega

private theorem lt_of_not_lt_of_lt (h : ¬b < a) (h' : b < c) : a < c := by
  rw [lt_iff] at h h' ⊢
  omega

/-- The numbers that decide the order. -/
def precedence (v : Version) : UInt64 × UInt64 × UInt64 := (v.major, v.minor, v.patch)

theorem precedence_eq_iff : a.precedence = b.precedence ↔ ¬a < b ∧ ¬b < a := by
  simp only [precedence, Prod.mk.injEq, ← UInt64.toNat_inj, lt_iff]
  omega

theorem compare_eq_iff : compare a b = .eq ↔ a.precedence = b.precedence := by
  rw [precedence_eq_iff, compare]
  split
  · next h => simp [h]
  · next h =>
    split
    · next h' => simp [h']
    · next h' => simp [h, h']

end Version

/-! ## Searches -/

variable {candidates : List Asset} {found best : Asset}

private theorem highest_concat (candidates : List Asset) (last : Asset) :
    highest (candidates ++ [last]) = higher (highest candidates) last := by
  rw [highest, highest, List.foldl_append]
  rfl

private theorem higher_ne_none (found : Option Asset) (candidate : Asset) :
    higher found candidate ≠ none := by
  cases found with
  | none => nofun
  | some best =>
    rw [higher]
    split <;> nofun

theorem highest_eq_none_iff : highest candidates = none ↔ candidates = [] := by
  cases candidates using List.reverseRecOn with
  | nil => exact ⟨fun _ => rfl, fun _ => rfl⟩
  | append_singleton candidates last =>
    rw [highest_concat]
    simp [higher_ne_none]

/-- The result of a search exceeds every candidate before it, and no later one exceeds it. -/
theorem highest_eq_some (h : highest candidates = some found) :
    ∃ before after, candidates = before ++ found :: after ∧
      (∀ other ∈ before, other.version < found.version) ∧
      ∀ other ∈ after, ¬found.version < other.version := by
  induction candidates using List.reverseRecOn generalizing found with
  | nil => cases h
  | append_singleton candidates last ih =>
    rw [highest_concat] at h
    cases hbest : highest candidates with
    | none =>
      rw [hbest] at h
      cases h
      rw [highest_eq_none_iff.mp hbest]
      exact ⟨[], [], rfl, nofun, nofun⟩
    | some best =>
      obtain ⟨before, after, rfl, hbefore, hafter⟩ := ih hbest
      rw [hbest, higher] at h
      split at h
      · next hlast =>
        cases h
        refine ⟨before ++ best :: after, [], rfl, fun other hother => ?_, nofun⟩
        rcases List.mem_append.mp hother with hother | hother
        · exact Version.lt_trans (hbefore other hother) hlast
        · rcases List.mem_cons.mp hother with rfl | hother
          · exact hlast
          · exact Version.lt_of_not_lt_of_lt (hafter other hother) hlast
      · next hlast =>
        cases h
        refine ⟨before, after ++ [last], by simp, hbefore, fun other hother => ?_⟩
        rcases List.mem_append.mp hother with hother | hother
        · exact hafter other hother
        · obtain rfl := List.mem_singleton.mp hother
          exact hlast

theorem not_lt_of_highest (h : highest candidates = some found) {other : Asset}
    (hother : other ∈ candidates) : ¬found.version < other.version := by
  obtain ⟨before, after, rfl, hbefore, hafter⟩ := highest_eq_some h
  rcases List.mem_append.mp hother with hother | hother
  · exact fun hlt => Version.lt_irrefl _ (Version.lt_trans hlt (hbefore other hother))
  · rcases List.mem_cons.mp hother with rfl | hother
    · exact Version.lt_irrefl _
    · exact hafter other hother

theorem mem_of_highest (h : highest candidates = some found) : found ∈ candidates := by
  obtain ⟨before, after, rfl, -⟩ := highest_eq_some h
  simp

/-! ## Names with a version -/

private theorem Version.readNumber_isDigit {text rest : List Char} {n : UInt64}
    (h : readNumber text = some (n, rest)) : ∃ c more, text = c :: more ∧ c.isDigit = true := by
  cases text with
  | nil => cases h
  | cons c more =>
    refine ⟨c, more, rfl, ?_⟩
    by_contra hdigit
    simp [readNumber, hdigit] at h

theorem Version.ofFileName?_isDigit {name : String} {v : Version}
    (h : ofFileName? name = some v) : ∃ c more, name.toList = c :: more ∧ c.isDigit = true := by
  rw [ofFileName?, read?] at h
  obtain ⟨⟨n, rest⟩, hread, -⟩ := Option.bind_eq_some_iff.mp h
  obtain ⟨c, more, hname, hdigit⟩ := readNumber_isDigit hread
  cases hlist : name.toList with
  | nil =>
    rw [hlist] at hname
    cases hname
  | cons first others =>
    rw [hlist, List.takeWhile_cons] at hname
    split at hname
    · cases hname
      exact ⟨_, others, rfl, hdigit⟩
    · cases hname

end EngineClient
