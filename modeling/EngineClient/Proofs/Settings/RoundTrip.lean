import Mathlib
import EngineClient.Proofs.Settings.Fields
import EngineClient.Proofs.Settings.Overlay

/-!
# Encoded settings read back

The encoding of settings is the fields of their entries, and a message of fields is read by setting
the entries one by one. So settings are read back from their encoding but for the sign of a zero,
and a message of two encodings is read as the second settings laid over the first.
-/

namespace EngineClient

namespace Settings

/-- The settings as they are read back: without the signs of zeros. -/
def dropZeroSigns (s : Settings) : Settings :=
  { s with floats := s.floats.map Float32Bits.dropZeroSign }

private theorem entries_dropZeroSigns (s : Settings) :
    s.dropZeroSigns.entries = s.entries.map Entry.dropZeroSign := by
  simp only [entries, dropZeroSigns, Table.map, List.map_append, List.map_map]
  rfl

theorem dropZeroSigns_overlay (s above : Settings) :
    (s.overlay above).dropZeroSigns = s.dropZeroSigns.overlay above.dropZeroSigns := by
  simp only [overlay, dropZeroSigns, Table.map_overlay]

private theorem dropZeroSigns_set (s : Settings) (entry : Entry) :
    (s.set entry).dropZeroSigns = s.dropZeroSigns.set entry.dropZeroSign := by
  cases entry with
  | float key value => simp only [set, dropZeroSigns, Table.map_insert, Entry.dropZeroSign]
  | string | int | bytes | bool => rfl

theorem dropZeroSigns_ofList (list : List Entry) :
    (ofList list).dropZeroSigns = ofList (list.map Entry.dropZeroSign) := by
  rw [ofList, ofList, List.foldl_map]
  exact (List.foldl_hom dropZeroSigns fun s entry => (dropZeroSigns_set s entry).symm).symm

end Settings

namespace Wire

variable {s s' : Settings}

private theorem encode_eq (s : Settings) : encode s = s.entries.flatMap field := by
  simp only [encode, Settings.entries, List.flatMap_append, List.flatMap_map]
  rfl

private theorem length_field_le {entry : Settings.Entry} (h : entry ∈ s.entries) :
    (field entry).length ≤ (encode s).length := by
  obtain ⟨before, after, hsplit⟩ := List.append_of_mem h
  rw [encode_eq, hsplit, List.flatMap_append, List.flatMap_cons, List.length_append,
    List.length_append]
  omega

theorem length_string_le {key value : String} (h : s.strings.get? key = some value) :
    (bytesOf value).length ≤ (encode s).length := by
  have hmem : (key, value) ∈ s.strings.entries := s.strings.inOrder.lookup_eq_some_iff.mp h
  have hentry : .string key value ∈ s.entries := by
    simp only [Settings.entries, List.mem_append]
    exact .inl (.inl (.inl (.inl (List.mem_map.mpr ⟨_, hmem, rfl⟩))))
  have hwritten : (bytesOf value).length ≤ (optionalField text 2 value).length := by
    cases hdefault : text.isDefault value with
    | true =>
      obtain rfl : value = "" := eq_of_beq hdefault
      exact Nat.zero_le _
    | false =>
      rw [optionalField_written hdefault, List.length_append]
      exact Nat.le_add_left_of_le (length_le_block (bytesOf value))
  calc (bytesOf value).length
      ≤ (optionalField text 1 key ++ optionalField text 2 value).length := by
        rw [List.length_append]
        exact Nat.le_add_left_of_le hwritten
    _ ≤ (block (optionalField text 1 key ++ optionalField text 2 value)).length :=
        length_le_block _
    _ ≤ (field (.string key value)).length := by
        rw [field, entryField, List.length_append]
        exact Nat.le_add_left _ _
    _ ≤ (encode s).length := length_field_le hentry

private theorem readFields_of_readField {steps : Nat} {message rest : Bytes}
    (hread : readField s message = .ok (s', rest)) (hne : message ≠ []) :
    readFields (steps + 1) s message = readFields steps s' rest := by
  rw [readFields, hread]
  · rfl
  · exact hne

/-- A message of fields is read by setting what they hold one by one. -/
theorem readFields_flatMap (entries : List Settings.Entry) {steps : Nat} (s : Settings)
    (hsteps : (entries.flatMap field).length ≤ steps)
    (hsize : ∀ entry ∈ entries, (field entry).length < 2 ^ 64) :
    readFields steps s (entries.flatMap field) =
      .ok ((entries.map Settings.Entry.dropZeroSign).foldl Settings.set s) := by
  induction entries generalizing steps s with
  | nil => cases steps <;> rfl
  | cons entry entries ih =>
    obtain ⟨hentry, hentries⟩ := List.forall_mem_cons.mp hsize
    have hne := field_ne_nil entry
    have hlength := List.length_pos_iff.mpr hne
    rw [List.flatMap_cons, List.length_append] at hsteps
    obtain ⟨more, rfl⟩ : ∃ more, steps = more + 1 := Nat.exists_eq_add_one.mpr (by omega)
    rw [List.flatMap_cons, readFields_of_readField (readField_field s entry hentry _)
      (List.append_ne_nil_of_left_ne_nil hne _)]
    exact ih (s.set entry.dropZeroSign) (by omega) hentries

/-- The encodings of two settings, one after the other, are read as the second laid over the
first. -/
theorem decode_append (h : (encode s).length < 2 ^ 64) (h' : (encode s').length < 2 ^ 64) :
    decode (encode s ++ encode s') = .ok (s.overlay s').dropZeroSigns := by
  have hfields : encode s ++ encode s' = (s.entries ++ s'.entries).flatMap field := by
    rw [encode_eq, encode_eq, List.flatMap_append]
  have hsize : ∀ entry ∈ s.entries ++ s'.entries, (field entry).length < 2 ^ 64 := by
    intro entry hentry
    rcases List.mem_append.mp hentry with hentry | hentry
    · exact Nat.lt_of_le_of_lt (length_field_le hentry) h
    · exact Nat.lt_of_le_of_lt (length_field_le hentry) h'
  rw [decode, hfields, readFields_flatMap _ .empty (Nat.le_refl _) hsize, List.map_append,
    ← Settings.entries_dropZeroSigns, ← Settings.entries_dropZeroSigns, List.foldl_append,
    Settings.foldl_set_entries, Settings.foldl_set_entries, Settings.empty_overlay,
    Settings.dropZeroSigns_overlay]

theorem decode_encode (h : (encode s).length < 2 ^ 64) :
    decode (encode s) = .ok s.dropZeroSigns := by
  have hempty : (encode .empty).length < 2 ^ 64 := by decide
  have happend : decode (encode s ++ []) = .ok s.dropZeroSigns := decode_append h hempty
  rwa [List.append_nil] at happend

private theorem field_dropZeroSign (entry : Settings.Entry) :
    field entry.dropZeroSign = field entry := by
  cases entry with
  | float key value =>
    by_cases hzero : value.bits = 2147483648
    · have hdefault : float.isDefault value = true := by
        change value.bits.toNat % 2147483648 == 0
        rw [hzero]
        rfl
      have hread : value.dropZeroSign = ⟨0⟩ := if_pos hzero
      simp only [Settings.Entry.dropZeroSign, field, entryField, hread,
        optionalField_default hdefault, optionalField_default (rfl : float.isDefault ⟨0⟩ = true)]
    · simp only [Settings.Entry.dropZeroSign, Float32Bits.dropZeroSign, if_neg hzero]
  | string | int | bytes | bool => rfl

private theorem encode_dropZeroSigns (s : Settings) : encode s.dropZeroSigns = encode s := by
  rw [encode_eq, encode_eq, Settings.entries_dropZeroSigns, List.flatMap_map]
  simp only [field_dropZeroSign]

/-! ## Main results -/

/-- Settings are read back from their encoding with all names and values, floating-point numbers bit
for bit but for the sign of a zero; and settings that differ in anything else are encoded
differently. An encoding has fewer than `2 ^ 64` bytes, as anything in memory. -/
theorem settings_read_back (s : Settings) (h : (encode s).length < 2 ^ 64) :
    decode (encode s) = .ok s.dropZeroSigns ∧
      ∀ s', encode s' = encode s ↔ s'.dropZeroSigns = s.dropZeroSigns := by
  refine ⟨decode_encode h, fun s' => ⟨fun hsame => ?_, fun hsame => ?_⟩⟩
  · have hread := decode_encode (hsame ▸ h)
    rw [hsame, decode_encode h] at hread
    exact (Except.ok.inj hread).symm
  · rw [← encode_dropZeroSigns s', hsame, encode_dropZeroSigns]

theorem settings_read_back_defaults :
    let s := Settings.ofList [.string "" "", .int "n" (-1), .float "z" ⟨2147483648⟩,
      .float "nan" ⟨4290772992⟩, .bytes "b" [], .bool "" false]
    (encode s).length < 2 ^ 64 ∧ decode (encode s) = .ok s.dropZeroSigns := by
  intro s
  have hsize : (encode s).length < 2 ^ 64 := by decide +kernel
  exact ⟨hsize, (settings_read_back s hsize).1⟩

/-- Encodings that follow each other are read as the later settings laid over the earlier ones: in
each table a name has the later value, or the earlier one if the later settings do not have it. -/
theorem append_reads_as_overlay (a b : Settings) (ha : (encode a).length < 2 ^ 64)
    (hb : (encode b).length < 2 ^ 64) :
    decode (encode a ++ encode b) = .ok (a.overlay b).dropZeroSigns ∧
      Settings.Overlays b a (a.overlay b) :=
  ⟨decode_append ha hb, Settings.overlay_overlays a b⟩

theorem append_reads_as_overlay_default :
    let a := Settings.ofList [.int "n" 7, .string "n" "kept"]
    let b := Settings.ofList [.int "n" 0]
    decode (encode a ++ encode b) = .ok (a.overlay b).dropZeroSigns ∧
      (a.overlay b).ints.get? "n" = some 0 ∧ (a.overlay b).strings.get? "n" = some "kept" := by
  intro a b
  have ha : (encode a).length < 2 ^ 64 := by decide +kernel
  have hb : (encode b).length < 2 ^ 64 := by decide +kernel
  obtain ⟨hread, hmerged⟩ := append_reads_as_overlay a b ha hb
  exact ⟨hread, hmerged.ints "n", hmerged.strings "n"⟩

end Wire

end EngineClient
