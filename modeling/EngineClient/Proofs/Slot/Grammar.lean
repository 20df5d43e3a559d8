import Mathlib
import EngineClient.Slot

/-!
# The grammar of slots

A buffer is read as a row of slots exactly when it is the row that its values are written as.
Reading goes slot by slot: a buffer that is not empty either starts with the slot of some value, and
then reading goes on behind it, or it is refused.
-/

namespace EngineClient.Slot

/-- Whether a value can be held by a slot. -/
def Holds (slot : Option Bytes) : Prop := ∀ value, slot = some value → value.length ≤ maxLength

/-- Whether all values of a row can be held by slots. -/
def Fits (values : List (Option Bytes)) : Prop := ∀ slot ∈ values, Holds slot

/-! ## Words -/

private theorem ofWord_lt (b₀ b₁ b₂ b₃ : UInt8) : ofWord b₀ b₁ b₂ b₃ < 4294967296 := by
  have := b₀.toNat_lt
  have := b₁.toNat_lt
  have := b₂.toNat_lt
  have := b₃.toNat_lt
  simp only [ofWord]
  omega

private theorem word_ofWord (b₀ b₁ b₂ b₃ : UInt8) :
    word (ofWord b₀ b₁ b₂ b₃) = [b₀, b₁, b₂, b₃] := by
  have := b₀.toNat_lt
  have := b₁.toNat_lt
  have := b₂.toNat_lt
  have := b₃.toNat_lt
  simp only [word, ofWord, List.cons.injEq, and_true, ← UInt8.toNat_inj, UInt8.toNat_ofNat']
  omega

theorem ofWord_word {n : Nat} (h : n < 4294967296) :
    ∃ b₀ b₁ b₂ b₃, word n = [b₀, b₁, b₂, b₃] ∧ ofWord b₀ b₁ b₂ b₃ = n := by
  refine ⟨_, _, _, _, rfl, ?_⟩
  simp only [ofWord, UInt8.toNat_ofNat']
  omega

@[simp] theorem length_word (n : Nat) : (word n).length = 4 := rfl

theorem signed_of_le {n : Nat} (h : n ≤ maxLength) : signed n = n := by
  simp only [signed, h, if_true]

private theorem ofWord_absent : ofWord 0xFF 0xFF 0xFF 0xFF = 4294967295 := by simp [ofWord]

private theorem signed_absent : signed (ofWord 0xFF 0xFF 0xFF 0xFF) = -1 := by
  simp [ofWord_absent, signed, maxLength]

private theorem signed_eq_neg_one {n : Nat} (h : n < 4294967296) (hs : signed n = -1) :
    n = ofWord 0xFF 0xFF 0xFF 0xFF := by
  rw [ofWord_absent]
  unfold signed at hs
  split at hs <;> omega

private theorem le_of_signed_nonneg {n : Nat} (h : n < 4294967296) (hs : ¬signed n < 0) :
    n ≤ maxLength := by
  by_contra hn
  simp only [signed, hn, if_false] at hs
  omega

/-! ## One slot -/

private theorem decodeOnto_absent (found : List (Option Bytes)) (offset : Nat) (rest : Bytes) :
    decodeOnto found offset (wireSlot none ++ rest) =
      decodeOnto (none :: found) (offset + 4) rest := by
  simp only [wireSlot, List.cons_append, List.nil_append]
  rw [decodeOnto, if_pos signed_absent]

private theorem decodeOnto_present (found : List (Option Bytes)) (offset : Nat) (value rest : Bytes)
    (h : value.length ≤ maxLength) :
    decodeOnto found offset (wireSlot (some value) ++ rest) =
      decodeOnto (some value :: found) (offset + 4 + value.length) rest := by
  have hlt : value.length < 4294967296 := by
    simp only [maxLength] at h
    omega
  obtain ⟨b₀, b₁, b₂, b₃, hw, hn⟩ := ofWord_word hlt
  simp only [wireSlot, hw, List.cons_append, List.nil_append]
  rw [decodeOnto, hn, signed_of_le h]
  have hne : ¬(value.length : Int) = -1 := by omega
  have hpos : ¬(value.length : Int) < 0 := by omega
  simp only [hne, hpos, if_false, Int.toNat_natCast, List.take_left, List.drop_left,
    lt_self_iff_false]

private theorem decodeOnto_slot (found : List (Option Bytes)) (offset : Nat) (slot : Option Bytes)
    (rest : Bytes) (h : Holds slot) :
    decodeOnto found offset (wireSlot slot ++ rest) =
      decodeOnto (slot :: found) (offset + (wireSlot slot).length) rest := by
  cases slot with
  | none => exact decodeOnto_absent found offset rest
  | some value =>
    rw [decodeOnto_present found offset value rest (h value rfl)]
    simp only [wireSlot, List.length_append, length_word, Nat.add_assoc]

private theorem present_slot {n : Nat} {b₀ b₁ b₂ b₃ : UInt8} {rest : Bytes} (hle : n ≤ maxLength)
    (hword : word n = [b₀, b₁, b₂, b₃]) (hn : ¬(rest.take n).length < n) :
    Holds (some (rest.take n)) ∧
      b₀ :: b₁ :: b₂ :: b₃ :: rest = wireSlot (some (rest.take n)) ++ rest.drop n := by
  have hlen : (rest.take n).length = n := by
    have := List.length_take_le n rest
    omega
  constructor
  · intro value hvalue
    obtain rfl := Option.some.inj hvalue
    rw [hlen]
    exact hle
  · simp only [wireSlot, hlen, hword, List.take_append_drop, List.cons_append, List.nil_append]

/-! ## Buffers that do not start with a slot -/

/-- The length that is declared at the start of a buffer. -/
def declared : Bytes → Int
  | b₀ :: b₁ :: b₂ :: b₃ :: _ => signed (ofWord b₀ b₁ b₂ b₃)
  | _ => 0

/-- A buffer does not start with a slot: it is too short for a length, or it declares one that there
cannot be, or more bytes than follow. -/
def Faulty (buffer : Bytes) : Prop :=
  buffer.length < 4 ∨ declared buffer < -1 ∨ (buffer.length : Int) < 4 + declared buffer

/-- What such a buffer that stands at `offset` is refused with. -/
def fault (offset : Nat) (buffer : Bytes) : DecodeError :=
  if buffer.length < 4 then .truncatedHeader offset buffer.length
  else if declared buffer < -1 then .invalidLength (declared buffer) offset
  else .overrun offset (declared buffer).toNat (buffer.length - 4)

theorem decodeOnto_faulty (found : List (Option Bytes)) (offset : Nat) {buffer : Bytes}
    (h : buffer ≠ []) (hfaulty : Faulty buffer) :
    decodeOnto found offset buffer = .error (.decode (fault offset buffer)) := by
  match buffer with
  | b₀ :: b₁ :: b₂ :: b₃ :: rest =>
    simp only [Faulty, declared, List.length_cons] at hfaulty
    rw [decodeOnto, fault, declared]
    simp only [List.length_cons]
    generalize signed (ofWord b₀ b₁ b₂ b₃) = length at hfaulty ⊢
    have hpresent : ¬length = -1 := by omega
    have hheader : ¬rest.length + 1 + 1 + 1 + 1 < 4 := by omega
    rw [if_neg hpresent, if_neg hheader]
    by_cases hneg : length < 0
    · have hlow : length < -1 := by omega
      rw [if_pos hneg, if_pos hlow]
    · have hlow : ¬length < -1 := by omega
      have hshort : (rest.take length.toNat).length < length.toNat := by
        rw [List.length_take]
        omega
      rw [if_neg hneg, if_neg hlow, if_pos hshort]
      rfl
  | [_, _, _] | [_, _] | [_] => simp [decodeOnto, fault]

private theorem slot_or_faulty (buffer : Bytes) :
    (∃ slot rest, Holds slot ∧ buffer = wireSlot slot ++ rest) ∨ Faulty buffer := by
  match buffer with
  | b₀ :: b₁ :: b₂ :: b₃ :: rest =>
    have hlt := ofWord_lt b₀ b₁ b₂ b₃
    have hword := word_ofWord b₀ b₁ b₂ b₃
    simp only [Faulty, declared, List.length_cons]
    generalize ofWord b₀ b₁ b₂ b₃ = n at hlt hword ⊢
    by_cases habsent : signed n = -1
    · left
      rw [signed_eq_neg_one hlt habsent, word_ofWord] at hword
      refine ⟨none, rest, by simp [Holds], ?_⟩
      change [b₀, b₁, b₂, b₃] ++ rest = [0xFF, 0xFF, 0xFF, 0xFF] ++ rest
      rw [hword]
    · by_cases hneg : signed n < 0
      · right
        omega
      · have hle := le_of_signed_nonneg hlt hneg
        rw [signed_of_le hle]
        by_cases hshort : rest.length < n
        · right
          omega
        · left
          refine ⟨_, _, present_slot hle hword ?_⟩
          rw [List.length_take]
          omega
  | [_, _, _] | [_, _] | [_] | [] => exact Or.inr (Or.inl (by simp))

/-! ## Rows -/

@[simp] theorem wire_nil : wire [] = [] := rfl

@[simp] theorem wire_cons (slot : Option Bytes) (values : List (Option Bytes)) :
    wire (slot :: values) = wireSlot slot ++ wire values := rfl

theorem wireSlot_ne_nil (slot : Option Bytes) : wireSlot slot ≠ [] := by
  cases slot <;> simp [wireSlot, word]

private theorem fits_nil : Fits [] := by simp [Fits]

private theorem fits_cons {slot : Option Bytes} {values : List (Option Bytes)} :
    Fits (slot :: values) ↔ Holds slot ∧ Fits values := List.forall_mem_cons

theorem decodeOnto_wire (found : List (Option Bytes)) (offset : Nat)
    (values : List (Option Bytes)) (rest : Bytes) (h : Fits values) :
    decodeOnto found offset (wire values ++ rest) =
      decodeOnto (values.reverse ++ found) (offset + (wire values).length) rest := by
  induction values generalizing found offset with
  | nil => rfl
  | cons slot values ih =>
    obtain ⟨hslot, hvalues⟩ := fits_cons.mp h
    rw [wire_cons, List.append_assoc, decodeOnto_slot found offset slot _ hslot,
      ih (slot :: found) _ hvalues, List.reverse_cons, List.append_assoc, List.length_append,
      Nat.add_assoc]
    rfl

/-- A buffer is a row of values that fit, up to its end or up to a place where it is faulty. -/
theorem exists_row (buffer : Bytes) : ∃ values rest, Fits values ∧ buffer = wire values ++ rest ∧
    (rest = [] ∨ rest ≠ [] ∧ Faulty rest) := by
  -- A slot takes some bytes away, so what follows it is a shorter buffer.
  induction hsize : buffer.length using Nat.strong_induction_on generalizing buffer with
  | _ size ih =>
    by_cases hnil : buffer = []
    · exact ⟨[], [], fits_nil, hnil, Or.inl rfl⟩
    · rcases slot_or_faulty buffer with ⟨slot, more, hslot, rfl⟩ | hfaulty
      · have hshorter : more.length < size := by
          have := List.length_pos_iff.mpr (wireSlot_ne_nil slot)
          rw [List.length_append] at hsize
          omega
        obtain ⟨values, rest, hvalues, rfl, hrest⟩ := ih _ hshorter more rfl
        exact ⟨slot :: values, rest, fits_cons.mpr ⟨hslot, hvalues⟩, by simp, hrest⟩
      · exact ⟨[], buffer, fits_nil, rfl, Or.inr ⟨hnil, hfaulty⟩⟩

/-- A buffer is the row of some values that fit, or it is refused. -/
theorem row_or_refused (found : List (Option Bytes)) (offset : Nat) (buffer : Bytes) :
    (∃ values, Fits values ∧ buffer = wire values) ∨
      ∃ cause, decodeOnto found offset buffer = .error (.decode cause) := by
  obtain ⟨values, rest, hvalues, rfl, rfl | ⟨hne, hfaulty⟩⟩ := exists_row buffer
  · exact Or.inl ⟨values, hvalues, List.append_nil _⟩
  · right
    rw [decodeOnto_wire found offset values rest hvalues]
    exact ⟨_, decodeOnto_faulty _ _ hne hfaulty⟩

theorem decode_wire {values : List (Option Bytes)} (h : Fits values) :
    decode (wire values) = .ok values := by
  have hrow := decodeOnto_wire [] 0 values [] h
  rw [List.append_nil, decodeOnto] at hrow
  rw [decode, hrow, Except.map, List.append_nil, List.reverse_reverse]

theorem decode_eq_ok {buffer : Bytes} {values : List (Option Bytes)}
    (h : decode buffer = .ok values) : Fits values ∧ buffer = wire values := by
  rcases row_or_refused [] 0 buffer with ⟨row, hrow, rfl⟩ | ⟨cause, hcause⟩
  · rw [decode_wire hrow] at h
    obtain rfl := Except.ok.inj h
    exact ⟨hrow, rfl⟩
  · rw [decode, hcause] at h
    cases h

private theorem decode_eq_ok_iff {buffer : Bytes} {values : List (Option Bytes)} :
    decode buffer = .ok values ↔ Fits values ∧ buffer = wire values :=
  ⟨decode_eq_ok, fun ⟨hfits, hrow⟩ => hrow ▸ decode_wire hfits⟩

private theorem decode_refused {buffer : Bytes}
    (h : ¬∃ values, Fits values ∧ buffer = wire values) :
    ∃ cause, decode buffer = .error (.decode cause) := by
  rcases row_or_refused [] 0 buffer with hrow | ⟨cause, hcause⟩
  · exact absurd hrow h
  · exact ⟨cause, by rw [decode, hcause]; rfl⟩

theorem length_le_wire {item : Bytes} {values : List (Option Bytes)} (h : some item ∈ values) :
    item.length ≤ (wire values).length := by
  induction values with
  | nil => cases h
  | cons slot values ih =>
    rw [wire_cons, List.length_append]
    rcases List.mem_cons.mp h with rfl | hmem
    · simp only [wireSlot, List.length_append]
      omega
    · have := ih hmem
      omega

theorem fits_of_length {values : List (Option Bytes)} (h : (wire values).length ≤ maxLength) :
    Fits values := by
  intro slot hslot value hvalue
  subst hvalue
  exact (length_le_wire hslot).trans h

theorem decode_eq_ok_iff_wire {buffer : Bytes} {values : List (Option Bytes)}
    (h : buffer.length ≤ maxLength) : decode buffer = .ok values ↔ buffer = wire values := by
  rw [decode_eq_ok_iff]
  refine and_iff_right_of_imp ?_
  rintro rfl
  exact fits_of_length h

private theorem wire_injective {values others : List (Option Bytes)} (hv : Fits values)
    (ho : Fits others) (h : wire values = wire others) : values = others := by
  have hrow := decode_wire hv
  rw [h, decode_wire ho] at hrow
  exact (Except.ok.inj hrow).symm

/-! ## Writing -/

theorem fits_present {items : List Bytes} :
    Fits (items.map some) ↔ ∀ item ∈ items, item.length ≤ maxLength := by
  simp [Fits, Holds]

theorem encode_eq_wire {items : List Bytes} (h : ∀ item ∈ items, item.length ≤ maxLength) :
    encode items = .ok (wire (items.map some)) := by
  induction items with
  | nil => rfl
  | cons item rest ih =>
    obtain ⟨hitem, hrest⟩ := List.forall_mem_cons.mp h
    simp only [encode, Nat.not_lt.mpr hitem, if_false, ih hrest, List.map_cons, wire_cons, wireSlot,
      List.append_assoc]

theorem encode_eq_ok {items : List Bytes} {row : Bytes} (h : encode items = .ok row) :
    row = wire (items.map some) := by
  induction items generalizing row with
  | nil => exact (Except.ok.inj h).symm
  | cons item rest ih =>
    rw [encode] at h
    split at h
    · cases h
    · cases hrest : encode rest with
      | error e =>
        rw [hrest] at h
        cases h
      | ok more =>
        rw [hrest] at h
        rw [← Except.ok.inj h, ih hrest, ← List.append_assoc]
        rfl

private theorem encode_injective {items others : List Bytes}
    (hi : ∀ item ∈ items, item.length ≤ maxLength) (ho : ∀ item ∈ others, item.length ≤ maxLength)
    (h : encode items = encode others) : items = others := by
  rw [encode_eq_wire hi, encode_eq_wire ho] at h
  have hmap := wire_injective (fits_present.mpr hi) (fits_present.mpr ho) (Except.ok.inj h)
  exact List.map_injective_iff.mpr (Option.some_injective Bytes) hmap

/-! ## The codec -/

/-- Slots are a bijection between the rows of values that fit and the buffers that are read. A
buffer is read as the one row it is, and refused as malformed if it is none; items are written as
their row, and so read back; what has been read is written back byte for byte. -/
theorem codec_bijection :
    (∀ buffer values, Fits values → (decode buffer = .ok values ↔ buffer = wire values)) ∧
    (∀ buffer, (¬∃ values, Fits values ∧ buffer = wire values) →
      ∃ cause, decode buffer = .error (.decode cause)) ∧
    (∀ items : List Bytes, (∀ item ∈ items, item.length ≤ maxLength) →
      encode items = .ok (wire (items.map some)) ∧
        (encode items).bind decode = .ok (items.map some)) ∧
    (∀ values others, Fits values → Fits others → wire values = wire others → values = others) ∧
    (∀ items others : List Bytes, (∀ item ∈ items, item.length ≤ maxLength) →
      (∀ item ∈ others, item.length ≤ maxLength) → encode items = encode others → items = others) ∧
    (∀ buffer values, decode buffer = .ok values → Fits values ∧ wire values = buffer) ∧
    (∀ buffer items, decode buffer = .ok (items.map some) → encode items = .ok buffer) := by
  refine ⟨?_, fun _ => decode_refused, ?_, fun _ _ => wire_injective, fun _ _ => encode_injective,
    ?_, ?_⟩
  · intro buffer values hfits
    rw [decode_eq_ok_iff]
    exact and_iff_right hfits
  · intro items hitems
    have hwrite := encode_eq_wire hitems
    refine ⟨hwrite, ?_⟩
    rw [hwrite]
    exact decode_wire (fits_present.mpr hitems)
  · intro buffer values hread
    obtain ⟨hfits, hrow⟩ := decode_eq_ok hread
    exact ⟨hfits, hrow.symm⟩
  · intro buffer items hread
    obtain ⟨hfits, hrow⟩ := decode_eq_ok hread
    rw [hrow]
    exact encode_eq_wire (fits_present.mp hfits)

theorem codec_bijection_three_slots :
    decode [0xFF, 0xFF, 0xFF, 0xFF, 0, 0, 0, 0, 1, 0, 0, 0, 7] = .ok [none, some [], some [7]] :=
  (codec_bijection.1 _ _ (by simp [Fits, Holds, maxLength])).mpr rfl

end EngineClient.Slot
