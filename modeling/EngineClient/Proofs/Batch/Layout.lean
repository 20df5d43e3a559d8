import Mathlib
import EngineClient.Proofs.Batch.Alignment
import EngineClient.Proofs.Batch.Texts

/-!
# The layout of a batch

The number of a slot tells its pair: divided by the number of fields it gives the key, and what
remains gives the field. The two rows that a batch is sent as are read back as its keys, byte keys
before the bytes of text keys, and as its field names.
-/

namespace EngineClient

/-! ## Items written as slots -/

namespace Slot

variable {items front : List Bytes} {item row : Bytes}

/-- An item is the first of some items that does not fit into a slot. -/
structure FirstTooLong (items : List Bytes) (item : Bytes) : Prop where
  split : ∃ front back, items = front ++ item :: back ∧
    ∀ earlier ∈ front, earlier.length ≤ maxLength
  long : maxLength < item.length

/-- What becomes of items that are written as slots. -/
structure Writes (items : List Bytes) (written : Except Error Bytes) : Prop where
  /-- There is a row if and only if every item fits into a slot, -/
  fits : (∃ row, written = .ok row) ↔ ∀ item ∈ items, item.length ≤ maxLength
  /-- and the row is read back as the items. -/
  row : ∀ row, written = .ok row → decode row = .ok (items.map some)
  /-- Otherwise the first item that does not fit is refused by its length. -/
  refused : ∀ e, written = .error e →
    ∃ item, FirstTooLong items item ∧ e = .engineCall (.itemTooLong item.length)

private theorem fits_or_firstTooLong (items : List Bytes) :
    (∀ item ∈ items, item.length ≤ maxLength) ∨ ∃ item, FirstTooLong items item := by
  induction items with
  | nil =>
    left
    simp
  | cons item rest ih =>
    by_cases hitem : item.length ≤ maxLength
    · cases ih with
      | inl hrest =>
        left
        exact List.forall_mem_cons.mpr ⟨hitem, hrest⟩
      | inr hrest =>
        right
        obtain ⟨long, ⟨front, back, hsplit, hfront⟩, hlong⟩ := hrest
        refine ⟨long, ⟨item :: front, back, ?_, List.forall_mem_cons.mpr ⟨hitem, hfront⟩⟩, hlong⟩
        rw [hsplit, List.cons_append]
    · right
      exact ⟨item, ⟨[], rest, rfl, by simp⟩, Nat.not_le.mp hitem⟩

private theorem encode_tooLong (back : List Bytes)
    (hfront : ∀ earlier ∈ front, earlier.length ≤ maxLength) (hlong : maxLength < item.length) :
    encode (front ++ item :: back) = .error (.engineCall (.itemTooLong item.length)) := by
  induction front with
  | nil => simp [encode, hlong]
  | cons earlier front ih =>
    obtain ⟨hearlier, hrest⟩ := List.forall_mem_cons.mp hfront
    simp [encode, Nat.not_lt.mpr hearlier, ih hrest]

private theorem FirstTooLong.encode (h : FirstTooLong items item) :
    encode items = .error (.engineCall (.itemTooLong item.length)) := by
  obtain ⟨⟨front, back, rfl, hfront⟩, hlong⟩ := h
  exact encode_tooLong back hfront hlong

private theorem writes_encode (items : List Bytes) : Writes items (encode items) := by
  cases fits_or_firstTooLong items with
  | inl hitems =>
    rw [encode_eq_wire hitems]
    constructor
    · exact iff_of_true ⟨_, rfl⟩ hitems
    · intro row hrow
      rw [← Except.ok.inj hrow]
      exact decode_wire (fits_present.mpr hitems)
    · intro e he
      cases he
  | inr hlong =>
    obtain ⟨item, hitem⟩ := hlong
    rw [hitem.encode]
    constructor
    · apply iff_of_false
      · intro h
        obtain ⟨row, hrow⟩ := h
        cases hrow
      · intro hitems
        obtain ⟨⟨front, back, rfl, -⟩, hlong⟩ := hitem
        exact absurd (hitems item (by simp)) (Nat.not_le.mpr hlong)
    · intro row hrow
      cases hrow
    · intro e he
      exact ⟨item, hitem, (Except.error.inj he).symm⟩

private theorem decodeTexts_of_decode {texts : List String}
    (h : decode row = .ok ((texts.map bytesOf).map some)) :
    decodeTexts row = .ok (texts.map some) := by
  have hvalues : (texts.map bytesOf).map some = ofTexts (texts.map some) := by
    simp [ofTexts]
  rw [decodeTexts, h, hvalues]
  exact texts_ofTexts _

end Slot

/-! ## The pairs by their numbers -/

namespace Batch

variable {b : Batch} {i : Nat}

private theorem isEmpty_iff_slots (b : Batch) : b.isEmpty = true ↔ b.slots = [] := by
  rw [← List.length_eq_zero_iff, length_slots]
  exact beq_iff_eq

private theorem div_lt_and_mod_lt (h : i < b.slotCount) :
    i / b.fields.length < b.keys.length ∧ i % b.fields.length < b.fields.length := by
  rw [slotCount] at h
  have hpos : 0 < b.fields.length := by
    apply Nat.pos_of_ne_zero
    intro hzero
    simp [hzero] at h
  exact ⟨(Nat.div_lt_iff_lt_mul hpos).mpr h, Nat.mod_lt i hpos⟩

private theorem getElem?_slots_div_mod (hkey : i / b.fields.length < b.keys.length)
    (hfield : i % b.fields.length < b.fields.length) :
    b.slots[i]? = some (b.keys[i / b.fields.length], b.fields[i % b.fields.length]) := by
  have hslot := getElem?_slots b hkey hfield
  rwa [Nat.div_add_mod'] at hslot

/-- A batch lays out its keys, fields and slots in one way. There is a slot for each pair of a key
and a field; the pair of every slot is the key that its number divided by the number of fields
gives and the field that the remainder gives; and a batch is empty if and only if it has no slots.
What it sends is read back as its keys, byte keys before the bytes of text keys, and as its field
names, unless one of them does not fit into a slot, which is then the error. -/
theorem ofKeys_layout (byteKeys : List Bytes) (textKeys fields : List String) :
    let b := ofKeys byteKeys textKeys fields
    b.slotCount = (byteKeys.length + textKeys.length) * fields.length ∧
    b.slots.length = b.slotCount ∧
    (∀ i < b.slotCount, ∃ (hkey : i / fields.length < (byteKeys ++ textKeys.map bytesOf).length)
      (hfield : i % fields.length < fields.length), b.slots[i]? =
        some ((byteKeys ++ textKeys.map bytesOf)[i / fields.length],
          fields[i % fields.length])) ∧
    (b.isEmpty = true ↔ b.slots = []) ∧
    Slot.Writes (byteKeys ++ textKeys.map bytesOf) b.encodeKeys ∧
    Slot.Writes (fields.map bytesOf) b.encodeFields ∧
    (∀ row, b.encodeKeys = .ok row →
      Slot.decode row = .ok (byteKeys.map some ++ textKeys.map fun key => some (bytesOf key))) ∧
    (∀ row, b.encodeFields = .ok row → Slot.decodeTexts row = .ok (fields.map some)) := by
  intro b
  have hkeys : Slot.Writes (byteKeys ++ textKeys.map bytesOf) b.encodeKeys :=
    Slot.writes_encode _
  have hfields : Slot.Writes (fields.map bytesOf) b.encodeFields := Slot.writes_encode _
  refine ⟨?_, length_slots b, ?_, isEmpty_iff_slots b, hkeys, hfields, ?_, ?_⟩
  · simp [b, slotCount, ofKeys]
  · intro i hi
    obtain ⟨hkey, hfield⟩ := div_lt_and_mod_lt hi
    exact ⟨hkey, hfield, getElem?_slots_div_mod hkey hfield⟩
  · intro row hrow
    rw [hkeys.row row hrow]
    simp
  · intro row hrow
    exact Slot.decodeTexts_of_decode (hfields.row row hrow)

theorem ofKeys_layout_last_slot :
    (ofKeys [[1]] ["k"] ["f", "g", "h"]).slots[5]? = some ([107], "h") ∧
    Slot.decode [1, 0, 0, 0, 1, 1, 0, 0, 0, 107] = .ok [some [1], some [107]] ∧
    Slot.decodeTexts [1, 0, 0, 0, 102, 1, 0, 0, 0, 103, 1, 0, 0, 0, 104] =
      .ok [some "f", some "g", some "h"] := by
  obtain ⟨-, -, hslots, -, -, -, hkeys, hfields⟩ := ofKeys_layout [[1]] ["k"] ["f", "g", "h"]
  obtain ⟨hkey, hfield, hslot⟩ := hslots 5 (by decide)
  exact ⟨hslot, hkeys _ (by decide), hfields _ (by decide)⟩

end Batch

end EngineClient
