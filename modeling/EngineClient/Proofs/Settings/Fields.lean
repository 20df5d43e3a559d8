import Mathlib
import EngineClient.Settings.Wire
import EngineClient.Proofs.Text.Utf8

/-!
# Fields of encoded settings

Every setting is read back from the field it is written as, whatever follows the field. A part that
has been left out because it is the default stands for that default when the field is read; of
floating-point numbers this costs a negative zero its sign.
-/

namespace EngineClient

/-- The number itself, or the positive zero for the negative one. -/
def Float32Bits.dropZeroSign (x : Float32Bits) : Float32Bits :=
  if x.bits = 2147483648 then ⟨0⟩ else x

/-- The setting as it is read back: without the sign of a zero. -/
def Settings.Entry.dropZeroSign : Entry → Entry
  | .float key value => .float key value.dropZeroSign
  | entry => entry

namespace Wire

variable {n tag after steps : Nat} {rest : Bytes} {α : Type} {layout : Layout α} {seen : α → α}

/-! ## Numbers and blocks -/

private theorem toNat_digit {n : Nat} (h : n < 256) : (UInt8.ofNat n).toNat = n := by
  rw [UInt8.toNat_ofNat']
  exact Nat.mod_eq_of_lt h

private theorem digit_lt_iff {n : Nat} (h : n < 256) : UInt8.ofNat n < 128 ↔ n < 128 := by
  rw [UInt8.lt_iff_toNat_lt, toNat_digit h]
  exact Iff.rfl

private theorem varint_ne_nil (n : Nat) : varint n ≠ [] := by
  rw [varint]
  split <;> simp

private theorem readVarintWithin_varint (places n : Nat) (rest : Bytes) (h : n < 2 * 128 ^ places) :
    readVarintWithin (places + 1) (varint n ++ rest) = .ok (n, rest) := by
  induction places generalizing n with
  | zero =>
    have hn : n = 0 ∨ n = 1 := by omega
    rw [varint, if_pos (by omega)]
    rcases hn with rfl | rfl <;> rfl
  | succ places ih =>
    rw [varint]
    split
    · next hsmall =>
      have hlast := (digit_lt_iff (by omega)).mpr hsmall
      rw [List.singleton_append, readVarintWithin, if_pos hlast, toNat_digit (by omega)]
      rfl
    · next hlarge =>
      have hdigit : n % 128 + 128 < 256 := by omega
      have hmore : ¬UInt8.ofNat (n % 128 + 128) < 128 := by
        rw [digit_lt_iff hdigit]
        omega
      have hhigh : n / 128 < 2 * 128 ^ places := by
        rw [Nat.pow_succ] at h
        omega
      rw [List.cons_append, readVarintWithin, if_neg hmore, ih _ hhigh, toNat_digit hdigit]
      simp only [Except.ok.injEq, Prod.mk.injEq, and_true]
      omega

private theorem readVarint_varint (h : n < 2 ^ 64) (rest : Bytes) :
    readVarint (varint n ++ rest) = .ok (n, rest) :=
  readVarintWithin_varint 9 n rest h

private theorem readExactly_append (value rest : Bytes) :
    readExactly value.length (value ++ rest) = .ok (value, rest) := by
  rw [readExactly, List.take_left, List.drop_left]
  exact if_neg (Nat.lt_irrefl _)

private theorem readBlock_block {value : Bytes} (h : value.length < 2 ^ 64) (rest : Bytes) :
    readBlock (block value ++ rest) = .ok (value, rest) := by
  rw [readBlock, block, List.append_assoc, readVarint_varint h]
  exact readExactly_append value rest

theorem length_le_block (value : Bytes) : value.length ≤ (block value).length := by
  rw [block, List.length_append]
  exact Nat.le_add_left _ _

/-! ## Keys of fields -/

private theorem fieldKey_ne_nil (tag : Nat) (wireType : WireType) : fieldKey tag wireType ≠ [] :=
  varint_ne_nil _

private theorem code_lt (wireType : WireType) : wireType.code < 8 := by
  cases wireType <;> decide

private theorem ofCode?_code (wireType : WireType) :
    WireType.ofCode? wireType.code = some wireType := by
  cases wireType <;> rfl

private theorem readKey_fieldKey (htag : tag ≠ 0) (h : tag < 2 ^ 29) (wireType : WireType)
    (rest : Bytes) :
    readKey (fieldKey tag wireType ++ rest) = .ok (tag, wireType, rest) := by
  have hcode := code_lt wireType
  have hmod : (tag * 8 + wireType.code) % 8 = wireType.code := by omega
  have hdiv : (tag * 8 + wireType.code) / 8 = tag := by omega
  rw [readKey, fieldKey, readVarint_varint (by omega)]
  change (if 4294967295 < tag * 8 + wireType.code then _ else _) = _
  simp only [hmod, hdiv, ofCode?_code, if_neg htag]
  rw [if_neg (by omega)]
  rfl

/-! ## Layouts -/

/-- How values of a layout are read back: a default, which is not written, is `seen` as the default
of the layout, and any other value is read as it is `seen` from what is written of it. -/
structure Layout.ReadsAs (layout : Layout α) (seen : α → α) : Prop where
  default : ∀ value, layout.isDefault value = true → layout.default = seen value
  written : ∀ value rest, layout.isDefault value = false → (layout.write value).length < 2 ^ 64 →
    layout.read (layout.write value ++ rest) = .ok (seen value, rest)

private theorem text_readsAs : text.ReadsAs id where
  default value h := (eq_of_beq h).symm
  written value rest _ h := by
    have hsize : (bytesOf value).length < 2 ^ 64 := Nat.lt_of_le_of_lt (length_le_block _) h
    simp only [text, readBlock_block hsize, bind, Except.bind,
      stringOf?_eq_some_iff.mpr (rfl : bytesOf value = bytesOf value)]
    rfl

private theorem int_readsAs : int.ReadsAs id where
  default value h := (eq_of_beq h).symm
  written value rest _ _ := by
    have hsize : value.toUInt64.toNat < 2 ^ 64 := value.toUInt64.toNat_lt
    simp only [int, readVarint_varint hsize, bind, Except.bind, UInt64.ofNat_toNat,
      Int64.toInt64_toUInt64]
    rfl

private theorem bytes_readsAs : bytes.ReadsAs id where
  default _ h := (List.isEmpty_iff.mp h).symm
  written value rest _ h := readBlock_block (Nat.lt_of_le_of_lt (length_le_block value) h) rest

private theorem bool_readsAs : bool.ReadsAs id where
  default value h := by
    cases value with
    | false => rfl
    | true => cases h
  written value rest _ _ := by
    have hsize : value.toNat < 2 ^ 64 := Nat.lt_of_le_of_lt value.toNat_le (by decide)
    simp only [bool, readVarint_varint hsize, bind, Except.bind]
    cases value <;> rfl

private theorem isZero_iff (x : Float32Bits) :
    x.isZero = true ↔ x.bits = 0 ∨ x.bits = 2147483648 := by
  have hlt := x.bits.toNat_lt
  rw [Float32Bits.isZero, beq_iff_eq, ← UInt32.toNat_inj, ← UInt32.toNat_inj]
  change x.bits.toNat % 2147483648 = 0 ↔ x.bits.toNat = 0 ∨ x.bits.toNat = 2147483648
  omega

private theorem ofNat_fourBytes (x : UInt32) :
    UInt32.ofNat (x.toUInt8.toNat + (x >>> 8).toUInt8.toNat * 256
      + (x >>> 16).toUInt8.toNat * 65536 + (x >>> 24).toUInt8.toNat * 16777216) = x := by
  have hlt := x.toNat_lt
  apply UInt32.toNat_inj.mp
  simp only [UInt32.toNat_ofNat', UInt32.toNat_toUInt8, UInt32.toNat_shiftRight,
    Nat.shiftRight_eq_div_pow, UInt32.reduceToNat, Nat.reduceMod, Nat.reducePow]
  omega

private theorem float_readsAs : float.ReadsAs Float32Bits.dropZeroSign where
  default value h := by
    rw [Float32Bits.dropZeroSign]
    rcases (isZero_iff value).mp h with hzero | hzero
    · obtain ⟨bits⟩ := value
      obtain rfl : bits = 0 := hzero
      rfl
    · rw [if_pos hzero]
      rfl
  written value rest h _ := by
    have hsigned : value.bits ≠ 2147483648 := by
      intro hzero
      have hdefault := (isZero_iff value).mpr (.inr hzero)
      rw [← Bool.not_eq_true] at h
      exact h hdefault
    rw [Float32Bits.dropZeroSign, if_neg hsigned]
    change Except.ok ((⟨UInt32.ofNat _⟩ : Float32Bits), rest) = _
    rw [ofNat_fourBytes]

/-! ## Entries -/

theorem optionalField_default {value : α} (h : layout.isDefault value = true) :
    optionalField layout tag value = [] := if_pos h

theorem optionalField_written {value : α} (h : layout.isDefault value = false) :
    optionalField layout tag value = fieldKey tag layout.wireType ++ layout.write value := by
  rw [optionalField, h]
  rfl

private theorem readEntryFields_name {entry : String × α}
    (hafter : after < (fieldKey 1 text.wireType ++ rest).length) :
    readEntryFields layout after (steps + 1) entry (fieldKey 1 text.wireType ++ rest) =
      (text.read rest).bind fun read =>
        readEntryFields layout after steps (read.1, entry.2) read.2 := by
  rw [readEntryFields, if_neg (Nat.lt_asymm hafter), if_neg (Nat.ne_of_gt hafter),
    readKey_fieldKey (by decide) (by decide)]
  rfl

private theorem readEntryFields_value {entry : String × α}
    (hafter : after < (fieldKey 2 layout.wireType ++ rest).length) :
    readEntryFields layout after (steps + 1) entry (fieldKey 2 layout.wireType ++ rest) =
      (layout.read rest).bind fun read =>
        readEntryFields layout after steps (entry.1, read.1) read.2 := by
  rw [readEntryFields, if_neg (Nat.lt_asymm hafter), if_neg (Nat.ne_of_gt hafter),
    readKey_fieldKey (by decide) (by decide)]
  simp only [bind, Except.bind, expect, if_true]

/-- A part of an entry is read, or it is the default and nothing stands for it. In either case there
are enough steps left for what follows. -/
theorem readEntryFields_optional {β : Type} {part : Layout β} {seen : β → β}
    (hpart : part.ReadsAs seen) (layout : Layout α) (after : Nat) (put : β → String × α) (value : β)
    (rest : Bytes) (hread : ∀ entry more rest, after < (fieldKey tag part.wireType ++ rest).length →
      readEntryFields layout after (more + 1) (put entry) (fieldKey tag part.wireType ++ rest) =
        (part.read rest).bind fun read => readEntryFields layout after more (put read.1) read.2)
    (hafter : after ≤ rest.length)
    (hsteps : (optionalField part tag value ++ rest).length < after + steps)
    (hsize : (optionalField part tag value).length < 2 ^ 64) :
    ∃ more, rest.length < after + more ∧
      readEntryFields layout after steps (put part.default) (optionalField part tag value ++ rest) =
        readEntryFields layout after more (put (seen value)) rest := by
  cases hdefault : part.isDefault value with
  | true =>
    rw [optionalField_default hdefault] at hsteps ⊢
    rw [hpart.default value hdefault]
    exact ⟨steps, hsteps, rfl⟩
  | false =>
    rw [optionalField_written hdefault] at hsteps hsize ⊢
    have hkey := List.length_pos_iff.mpr (fieldKey_ne_nil tag part.wireType)
    simp only [List.length_append] at hsteps hsize
    obtain ⟨more, rfl⟩ : ∃ more, steps = more + 1 := Nat.exists_eq_add_one.mpr (by omega)
    refine ⟨more, by omega, ?_⟩
    rw [List.append_assoc, hread _ _ _ (by simp only [List.length_append]; omega),
      hpart.written value rest hdefault (by omega)]
    rfl

private theorem readEntry_block (hlayout : layout.ReadsAs seen) (key : String) (value : α)
    (hsize : (optionalField text 1 key ++ optionalField layout 2 value).length < 2 ^ 64)
    (rest : Bytes) :
    readEntry layout
        (block (optionalField text 1 key ++ optionalField layout 2 value) ++ rest) =
      .ok ((key, seen value), rest) := by
  have hafter : (optionalField text 1 key ++ (optionalField layout 2 value ++ rest)).length -
      (optionalField text 1 key ++ optionalField layout 2 value).length = rest.length := by
    simp only [List.length_append]
    omega
  have hparts := hsize
  rw [List.length_append] at hparts
  rw [readEntry, block, List.append_assoc, readVarint_varint hsize]
  simp only [bind, Except.bind, List.append_assoc]
  rw [if_neg (by simp only [List.length_append]; omega), hafter]
  obtain ⟨more, hmore, hname⟩ := readEntryFields_optional text_readsAs layout rest.length
    (fun name => (name, layout.default)) key (optionalField layout 2 value ++ rest)
    (fun _ _ _ => readEntryFields_name) (by simp) (Nat.lt_add_left _ (Nat.lt_succ_self _))
    (by omega)
  obtain ⟨left, hleft, hvalue⟩ := readEntryFields_optional hlayout layout rest.length
    (fun v => (key, v)) value rest
    (fun _ _ _ => readEntryFields_value) (Nat.le_refl _) hmore (by omega)
  obtain ⟨last, rfl⟩ : ∃ last, left = last + 1 := Nat.exists_eq_add_one.mpr (by omega)
  refine hname.trans (hvalue.trans ?_)
  rw [readEntryFields, if_neg (Nat.lt_irrefl _), if_pos rfl]

/-! ## Settings -/

/-- The field that a setting is written as. -/
def field : Settings.Entry → Bytes
  | .string key value => entryField text 1 (key, value)
  | .int key value => entryField int 2 (key, value)
  | .float key value => entryField float 3 (key, value)
  | .bytes key value => entryField bytes 4 (key, value)
  | .bool key value => entryField bool 5 (key, value)

theorem field_ne_nil (entry : Settings.Entry) : field entry ≠ [] := by
  cases entry <;> exact List.append_ne_nil_of_left_ne_nil (fieldKey_ne_nil _ _) _

private theorem readEntry_field (hlayout : layout.ReadsAs seen) (key : String) (value : α)
    (hsize : (entryField layout tag (key, value)).length < 2 ^ 64) (htag : tag ≠ 0)
    (htag' : tag < 2 ^ 29) (rest : Bytes) :
    ∃ content, readKey (entryField layout tag (key, value) ++ rest) =
        .ok (tag, .lengthDelimited, content) ∧
      readEntry layout content = .ok ((key, seen value), rest) := by
  rw [entryField, List.length_append] at hsize
  have hcontent := length_le_block (optionalField text 1 key ++ optionalField layout 2 value)
  rw [entryField, List.append_assoc]
  refine ⟨_, readKey_fieldKey htag htag' _ _, readEntry_block hlayout key value ?_ rest⟩
  exact Nat.lt_of_le_of_lt (Nat.le_trans hcontent (Nat.le_add_left _ _)) hsize

/-- A setting is read back from its field, and set. -/
theorem readField_field (s : Settings) (entry : Settings.Entry)
    (hsize : (field entry).length < 2 ^ 64) (rest : Bytes) :
    readField s (field entry ++ rest) = .ok (s.set entry.dropZeroSign, rest) := by
  cases entry with
  | string key value =>
    obtain ⟨content, hkey, hread⟩ :=
      readEntry_field text_readsAs key value hsize (by decide) (by decide) rest
    simp only [readField, field, hkey, bind, Except.bind, Except.mapError, hread, inField]
    rfl
  | int key value =>
    obtain ⟨content, hkey, hread⟩ :=
      readEntry_field int_readsAs key value hsize (by decide) (by decide) rest
    simp only [readField, field, hkey, bind, Except.bind, Except.mapError, hread, inField]
    rfl
  | float key value =>
    obtain ⟨content, hkey, hread⟩ :=
      readEntry_field float_readsAs key value hsize (by decide) (by decide) rest
    simp only [readField, field, hkey, bind, Except.bind, Except.mapError, hread, inField]
    rfl
  | bytes key value =>
    obtain ⟨content, hkey, hread⟩ :=
      readEntry_field bytes_readsAs key value hsize (by decide) (by decide) rest
    simp only [readField, field, hkey, bind, Except.bind, Except.mapError, hread, inField]
    rfl
  | bool key value =>
    obtain ⟨content, hkey, hread⟩ :=
      readEntry_field bool_readsAs key value hsize (by decide) (by decide) rest
    simp only [readField, field, hkey, bind, Except.bind, Except.mapError, hread, inField]
    rfl

end Wire

end EngineClient
