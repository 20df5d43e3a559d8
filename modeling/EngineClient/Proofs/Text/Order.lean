import Mathlib
import EngineClient.Proofs.Text.Utf8

/-!
# The order of texts

Texts are ordered by their characters, and byte strings by their bytes. Both orders are the same: of
two different characters the one with the lower code point also has the lower bytes, and neither is
written as the start of the other.
-/

namespace EngineClient

namespace Utf8

variable {v w : Nat} {bytes bytes' : Bytes} {text text' : List Char}

private theorem Spells.append_lt (h : Spells v bytes) (h' : Spells w bytes') (hlt : v < w)
    (rest rest' : Bytes) : bytes ++ rest < bytes' ++ rest' := by
  by_cases hrest : rest < rest'
  all_goals
    cases h
    all_goals
      cases h'
      all_goals
        simp only [List.cons_append, List.nil_append, List.cons_lt_cons_iff,
          UInt8.lt_iff_toNat_lt, ← UInt8.toNat_inj, IsTail, hrest, and_true, and_false, or_false]
          at *
        omega

private theorem encode_cons (c : Char) (text : List Char) :
    encode (c :: text) = written c.toNat ++ encode text := List.flatMap_cons

private theorem written_ne_nil (v : Nat) : written v ≠ [] := by
  unfold written
  split_ifs <;> exact List.cons_ne_nil _ _

private theorem encode_lt_encode (h : text < text') : encode text < encode text' := by
  induction text generalizing text' with
  | nil =>
    cases text' with
    | nil => exact absurd h (List.lt_irrefl _)
    | cons d text' =>
      obtain ⟨b, bytes, hbytes⟩ := List.exists_cons_of_ne_nil (written_ne_nil d.toNat)
      rw [encode_cons, hbytes]
      exact List.nil_lt_cons _ _
  | cons c text ih =>
    cases text' with
    | nil => exact absurd h (List.not_lt_nil _)
    | cons d text' =>
      rw [encode_cons, encode_cons]
      rcases List.cons_lt_cons_iff.mp h with hlt | ⟨rfl, hrest⟩
      · exact (spells_written c.valid).append_lt (spells_written d.valid) hlt _ _
      · exact List.append_left_lt (ih hrest)

end Utf8

/-- Strings are ordered as their bytes are. -/
theorem bytesOf_lt_bytesOf {s s' : String} (h : s < s') : bytesOf s < bytesOf s' :=
  Utf8.encode_lt_encode (String.lt_iff_toList_lt.mp h)

end EngineClient
