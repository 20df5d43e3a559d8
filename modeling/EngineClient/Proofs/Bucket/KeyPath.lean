import Mathlib
import EngineClient.Bucket.Percent
import EngineClient.Proofs.Text.Utf8

/-!
# Paths of object keys

The path of a key is written with characters that mean nothing in an address, and with triples. Its
segments are those of the key, each encoded for itself, and decoding gives back the bytes of the key.
So different keys have different paths.
-/

namespace EngineClient.Percent

variable {c : Char} {text rest key part : List Char} {n : Nat} {b : UInt8}

/-! ## Bytes -/

/-- A byte in a path: for itself, or as a triple, which a space is too. -/
def pathByte (b : UInt8) : List Char := if isPlain b then [Char.ofNat b.toNat] else triple b

/-- A hexadecimal digit in upper case. -/
def IsUpperHex (c : Char) : Prop := c.isDigit = true ∨ 'A' ≤ c ∧ c ≤ 'F'

instance (c : Char) : Decidable (IsUpperHex c) := inferInstanceAs (Decidable (_ ∨ _))

/-- A character that stands for itself in a path. -/
def IsSafe (c : Char) : Prop := c.isAlphanum = true ∨ c ∈ ['*', '-', '.', '_', '/']

instance (c : Char) : Decidable (IsSafe c) := inferInstanceAs (Decidable (_ ∨ _))

private theorem isUpperHex_hexDigit (h : n < 16) : IsUpperHex (hexDigit n) := by
  have hall : ∀ n < 16, IsUpperHex (hexDigit n) := by decide
  exact hall n h

private theorem hexValue?_hexDigit (h : n < 16) : hexValue? (hexDigit n) = some n := by
  have hall : ∀ n < 16, hexValue? (hexDigit n) = some n := by decide
  exact hall n h

private theorem isPlain_spec (h : isPlain b = true) :
    IsSafe (Char.ofNat b.toNat) ∧ Char.ofNat b.toNat ∉ ['%', '+', '/'] ∧
      Utf8.encode [Char.ofNat b.toNat] = [b] := by
  have hall : ∀ n < 256, isPlain (UInt8.ofNat n) = true →
      IsSafe (Char.ofNat n) ∧ Char.ofNat n ∉ ['%', '+', '/'] ∧
        Utf8.encode [Char.ofNat n] = [UInt8.ofNat n] := by
    decide +kernel
  have hb := hall b.toNat b.toNat_lt
  rw [UInt8.ofNat_toNat] at hb
  exact hb h

private theorem not_mem_triple (hmark : c ≠ '%') (hhex : ¬IsUpperHex c) (b : UInt8) :
    c ∉ triple b := by
  have hb := b.toNat_lt
  simp only [triple, List.mem_cons, List.not_mem_nil, or_false, not_or]
  refine ⟨hmark, ?_, ?_⟩
  · rintro rfl
    exact hhex (isUpperHex_hexDigit (by omega))
  · rintro rfl
    exact hhex (isUpperHex_hexDigit (by omega))

private theorem not_mem_pathByte (h : c = '+' ∨ c = '/') (b : UInt8) : c ∉ pathByte b := by
  rw [pathByte]
  split
  · next hplain =>
    rw [List.mem_singleton]
    rintro rfl
    exact (isPlain_spec hplain).2.1 (by simp [h])
  · rcases h with rfl | rfl <;> exact not_mem_triple (by decide) (by decide) b

private theorem flatMap_plus (h : '+' ∉ text) :
    text.flatMap (fun c => if c = '+' then ['%', '2', '0'] else [c]) = text := by
  have hsame : text.flatMap (fun c => if c = '+' then ['%', '2', '0'] else [c]) =
      text.flatMap fun c => [c] :=
    List.flatMap_congr fun c hc => if_neg fun (heq : c = '+') => h (heq ▸ hc)
  rw [hsame, List.flatMap_singleton']

private theorem flatMap_formByte (b : UInt8) :
    (formByte b).flatMap (fun c => if c = '+' then ['%', '2', '0'] else [c]) = pathByte b := by
  have hplus := not_mem_pathByte (.inl rfl) b
  rw [formByte]
  rw [pathByte] at hplus ⊢
  split
  · next hplain => exact flatMap_plus (by rwa [if_pos hplain] at hplus)
  · next hplain =>
    rw [if_neg hplain] at hplus
    split
    · next hspace => rw [hspace]; decide
    · exact flatMap_plus hplus

private theorem segment_eq (text : List Char) :
    segment text = (Utf8.encode text).flatMap pathByte := by
  rw [segment, form, List.flatMap_assoc]
  simp only [flatMap_formByte]

private theorem not_mem_segment (h : c = '+' ∨ c = '/') (text : List Char) : c ∉ segment text := by
  rw [segment_eq, List.mem_flatMap]
  rintro ⟨b, -, hb⟩
  exact not_mem_pathByte h b hb

/-! ## Texts of a path -/

/-- Texts that are made of characters that stand for themselves and of triples. -/
inductive IsPathText : List Char → Prop
  | nil : IsPathText []
  | safe {c : Char} {rest : List Char} (hsafe : IsSafe c) (hrest : IsPathText rest) :
      IsPathText (c :: rest)
  | triple {high low : Char} {rest : List Char} (hhigh : IsUpperHex high) (hlow : IsUpperHex low)
      (hrest : IsPathText rest) : IsPathText ('%' :: high :: low :: rest)

private theorem isPathText_pathByte (b : UInt8) (hrest : IsPathText rest) :
    IsPathText (pathByte b ++ rest) := by
  have hb := b.toNat_lt
  rw [pathByte]
  split
  · next hplain => exact .safe (isPlain_spec hplain).1 hrest
  · exact .triple (isUpperHex_hexDigit (by omega)) (isUpperHex_hexDigit (by omega)) hrest

private theorem isPathText_segment (text : List Char) (hrest : IsPathText rest) :
    IsPathText (segment text ++ rest) := by
  rw [segment_eq]
  induction Utf8.encode text with
  | nil => exact hrest
  | cons b bytes ih =>
    rw [List.flatMap_cons, List.append_assoc]
    exact isPathText_pathByte b ih

/-! ## Decoding -/

private theorem decode_cons (h : c ≠ '%') (rest : List Char) :
    decode (c :: rest) = Utf8.encode [c] ++ decode rest := by
  rw [decode]
  exact fun _ _ _ heq _ => h heq

private theorem decode_triple (b : UInt8) (rest : List Char) :
    decode (triple b ++ rest) = b :: decode rest := by
  have hb := b.toNat_lt
  have hvalue : b.toNat / 16 * 16 + b.toNat % 16 = b.toNat := by omega
  simp only [triple, List.cons_append, List.nil_append]
  rw [decode, hexValue?_hexDigit (by omega), hexValue?_hexDigit (by omega)]
  simp only [hvalue, UInt8.ofNat_toNat]

private theorem decode_pathByte (b : UInt8) (rest : List Char) :
    decode (pathByte b ++ rest) = b :: decode rest := by
  rw [pathByte]
  split
  · next hplain =>
    obtain ⟨-, hmarks, hbyte⟩ := isPlain_spec hplain
    rw [List.singleton_append, decode_cons fun heq => hmarks (heq ▸ List.mem_cons_self), hbyte]
    rfl
  · exact decode_triple b rest

private theorem decode_segment (text rest : List Char) :
    decode (segment text ++ rest) = Utf8.encode text ++ decode rest := by
  rw [segment_eq]
  induction Utf8.encode text with
  | nil => rfl
  | cons b bytes ih =>
    rw [List.flatMap_cons, List.append_assoc, decode_pathByte, ih]
    rfl

/-! ## Keys -/

private theorem keyPath_slash (key : List Char) : keyPath ('/' :: key) = '/' :: keyPath key := by
  have hne : (key.splitOn '/').map segment ≠ [] := by simp [List.splitOn_ne_nil]
  have hsplit : ('/' :: key).splitOn '/' = [] :: key.splitOn '/' := by
    rw [List.splitOn_cons_eq_if_modifyHead, if_pos (beq_self_eq_true _)]
  rw [keyPath, hsplit, List.map_cons, List.intercalate_cons_of_ne_nil hne]
  rfl

private theorem keyPath_cons (h : c ≠ '/') (key : List Char) :
    keyPath (c :: key) = segment [c] ++ keyPath key := by
  have hsegment : ∀ text, segment (c :: text) = segment [c] ++ segment text := by
    intro text
    rw [segment_eq, segment_eq, segment_eq, ← List.flatMap_append, ← Utf8.encode_append]
    rfl
  rw [keyPath, keyPath, List.splitOn_cons_eq_if_modifyHead, if_neg (by simpa using h)]
  cases hsplit : key.splitOn '/' with
  | nil => exact absurd hsplit (List.splitOn_ne_nil _ _)
  | cons first others =>
    rw [List.modifyHead_cons, List.map_cons, List.map_cons, hsegment]
    cases others with
    | nil => rw [List.map_nil, List.intercalate_singleton, List.intercalate_singleton]
    | cons second others =>
      rw [List.map_cons, List.intercalate_cons_cons, List.intercalate_cons_cons,
        List.append_assoc, List.append_assoc, List.append_assoc]

/-- What the path of a key is: safe to put in an address, cut into segments as the key is, and
decoded to the bytes of the key, as a whole and segment by segment. -/
structure IsPathOf (key path : List Char) : Prop where
  text : IsPathText path
  plus : '+' ∉ path
  slashes : path.count '/' = key.count '/'
  segments : path.splitOn '/' = (key.splitOn '/').map segment
  decoded : decode path = Utf8.encode key
  decodedSegments : (path.splitOn '/').map decode = (key.splitOn '/').map Utf8.encode

private theorem splitOn_keyPath (key : List Char) :
    (keyPath key).splitOn '/' = (key.splitOn '/').map segment := by
  rw [keyPath, List.splitOn_intercalate]
  · intro part hpart
    obtain ⟨text, -, rfl⟩ := List.mem_map.mp hpart
    exact not_mem_segment (.inr rfl) text
  · simp [List.splitOn_ne_nil]

private theorem isPathText_keyPath (key : List Char) : IsPathText (keyPath key) := by
  induction key with
  | nil => exact .nil
  | cons c key ih =>
    by_cases h : c = '/'
    · rw [h, keyPath_slash]
      exact .safe (by decide) ih
    · rw [keyPath_cons h]
      exact isPathText_segment [c] ih

private theorem decode_keyPath (key : List Char) : decode (keyPath key) = Utf8.encode key := by
  induction key with
  | nil => rfl
  | cons c key ih =>
    by_cases h : c = '/'
    · rw [h, keyPath_slash, decode_cons (by decide), ih]
      rfl
    · rw [keyPath_cons h, decode_segment, ih, ← Utf8.encode_append]
      rfl

private theorem count_keyPath (key : List Char) : (keyPath key).count '/' = key.count '/' := by
  induction key with
  | nil => rfl
  | cons c key ih =>
    by_cases h : c = '/'
    · rw [h, keyPath_slash, List.count_cons_self, List.count_cons_self, ih]
    · have hnone : (segment [c]).count '/' = 0 :=
        List.count_eq_zero.mpr (not_mem_segment (.inr rfl) [c])
      rw [keyPath_cons h, List.count_append, hnone, Nat.zero_add, ih, List.count_cons_of_ne h]

private theorem isPathText_plus (h : IsPathText text) : '+' ∉ text := by
  have hhex : ∀ {c : Char}, IsUpperHex c → '+' ≠ c := by
    rintro c hc rfl
    exact absurd hc (by decide)
  induction h with
  | nil => exact List.not_mem_nil
  | safe hsafe hrest ih =>
    refine List.not_mem_cons_of_ne_of_not_mem ?_ ih
    rintro rfl
    exact absurd hsafe (by decide)
  | triple hhigh hlow hrest ih =>
    simp only [List.mem_cons, not_or]
    exact ⟨by decide, hhex hhigh, hhex hlow, ih⟩

/-- The path of every key is safe and decodes to it, and different keys have different paths. -/
theorem keyPath_decodes : (∀ key, IsPathOf key (keyPath key)) ∧ Function.Injective keyPath := by
  refine ⟨fun key => ?_, fun key other h => ?_⟩
  · exact {
      text := isPathText_keyPath key
      plus := isPathText_plus (isPathText_keyPath key)
      slashes := count_keyPath key
      segments := splitOn_keyPath key
      decoded := decode_keyPath key
      decodedSegments := by
        rw [splitOn_keyPath, List.map_map]
        refine List.map_congr_left fun part _ => ?_
        have hpart := decode_segment part []
        rwa [List.append_nil, decode, List.append_nil] at hpart }
  · have hbytes : Utf8.encode key = Utf8.encode other := by
      rw [← decode_keyPath key, h, decode_keyPath]
    rw [← Utf8.lossy_encode key, hbytes, Utf8.lossy_encode]

example : keyPath "a b/0.0.5+b1/é%".toList = "a%20b/0.0.5%2Bb1/%C3%A9%25".toList := by
  decide +kernel

end EngineClient.Percent
