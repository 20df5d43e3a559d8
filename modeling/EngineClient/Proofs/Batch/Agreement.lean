import Mathlib
import EngineClient.Proofs.Batch.Answers

/-!
# Single and batched lookups

An engine over a store answers a lookup of one field with the value that it holds, and a batch with
a slot for each pair. What is looked up alone and what is looked up together is then the same, but
for one thing: a value without bytes counts as absent when it is looked up alone. Nor does it matter
whether keys are looked up in one batch or in two.
-/

namespace EngineClient

variable {store : ValueStore} {batch part : Batch} {buffer : Buffer} {value : Bytes}

/-! ## Buffers of single values -/

/-- A value as a lookup of one field tells it: without bytes it counts as absent. -/
def dropEmpty (slot : Option Bytes) : Option Bytes := slot.filter (!·.isEmpty)

@[simp] private theorem dropEmpty_none : dropEmpty none = none := rfl

@[simp] private theorem dropEmpty_nil : dropEmpty (some []) = none := rfl

private theorem dropEmpty_of_ne_nil (h : value ≠ []) : dropEmpty (some value) = some value := by
  rw [dropEmpty, Option.filter_some, if_pos]
  simpa using h

private theorem dropEmpty_ne_iff {slot : Option Bytes} :
    dropEmpty slot ≠ slot ↔ slot = some [] := by
  cases slot with
  | none => simp
  | some value =>
    by_cases hnil : value = []
    · simp [hnil]
    · simp [dropEmpty_of_ne_nil hnil, hnil]

namespace Buffer

/-- A buffer declares the length of a value and points at its bytes. -/
def Carries (b : Buffer) (value : Bytes) : Prop :=
  b.length.toInt = value.length ∧ ∃ behind, b.memory = some (value ++ behind)

private theorem value?_of_isNull (h : buffer.isNull = true) : buffer.value? = none := by
  rw [value?, isEmpty, h]
  rfl

private theorem Carries.value? (h : buffer.Carries value) :
    buffer.value? = dropEmpty (some value) := by
  obtain ⟨hlength, behind, hmemory⟩ := h
  by_cases hnil : value = []
  · have hempty : buffer.isEmpty = true := by
      rw [isEmpty_iff, Int32.le_iff_toInt_le, hlength, hnil]
      exact .inr le_rfl
    rw [Buffer.value?, if_pos hempty, hnil, dropEmpty_nil]
  · have hpos : 0 < buffer.length := by
      have := List.length_pos_iff.mpr hnil
      rw [Int32.lt_iff_toInt_lt, hlength]
      simpa using this
    rw [Buffer.value?, if_neg (not_isEmpty hmemory hpos), contents_eq hmemory hpos, hlength,
      Int.toNat_natCast, List.take_left, dropEmpty_of_ne_nil hnil]

private theorem carries_ofBytes (h : value.length ≤ Handle.maxArgument) :
    (ofBytes value).Carries value := by
  refine ⟨?_, [], ?_⟩
  · apply Int32.toInt_ofNat_of_lt
    simp only [Handle.maxArgument] at h
    omega
  · rw [List.append_nil]
    rfl

end Buffer

/-! ## Engines over a store -/

/-- An engine answers from a store: a lookup of one field with the value, as long as its length can
be told, or with no buffer if there is none, and a batch with a slot for each pair. -/
structure Engine.Conforms (engine : Engine) (store : ValueStore) : Prop where
  absent : ∀ past token key field, store key field = none →
    (engine.get past token key field).isNull = true
  present : ∀ past token key field value, store key field = some value →
    value.length ≤ Handle.maxArgument → (engine.get past token key field).Carries value
  batches : engine.Serves store

private theorem Reference.conforms (r : Reference) (hget : r.fixedGet = none)
    (hmultiget : r.fixedMultiget = none) : r.engine.Conforms (ValueStore.ofList r.values) where
  absent past token key field hnone := by
    simp only [Reference.engine, hget, Option.getD_none, ValueStore.answer, hnone]
    rfl
  present past token key field value hsome hlength := by
    simp only [Reference.engine, hget, Option.getD_none, ValueStore.answer, hsome]
    exact Buffer.carries_ofBytes hlength
  batches := r.serves hmultiget

/-! ## Batches that fit -/

namespace Batch

/-- A batch can be asked and answered over a store: if it has slots, then its two rows and the row
of its answers have lengths that can be told. -/
def Fits (b : Batch) (store : ValueStore) : Prop :=
  b.slotCount ≠ 0 → b.Sendable ∧
    (Slot.wire (store.answers b.keys (b.fields.map bytesOf))).length ≤ Handle.maxArgument

private theorem Fits.of_sublist (h : batch.Fits store) (hkeys : part.keys.Sublist batch.keys)
    (hfields : part.fields = batch.fields) : part.Fits store := by
  intro hslots
  have hcount : part.slotCount ≤ batch.slotCount := by
    rw [slotCount, slotCount, hfields]
    exact Nat.mul_le_mul_right _ hkeys.length_le
  obtain ⟨⟨hkeyRow, hfieldRow⟩, hanswers⟩ := h (by omega)
  have hkeyLe : part.keyRow.length ≤ batch.keyRow.length :=
    ((hkeys.map some).flatMap Slot.wireSlot).length_le
  have hanswersLe : (Slot.wire (store.answers part.keys (part.fields.map bytesOf))).length ≤
      (Slot.wire (store.answers batch.keys (batch.fields.map bytesOf))).length := by
    rw [hfields]
    exact ((hkeys.flatMap _).flatMap Slot.wireSlot).length_le
  refine ⟨⟨hkeyLe.trans hkeyRow, ?_⟩, hanswersLe.trans hanswers⟩
  rwa [fieldRow, hfields]

private theorem ofKeys_slots_append (front back : List Bytes) (textKeys fields : List String) :
    (ofKeys (front ++ back) textKeys fields).slots =
      (ofKeys front [] fields).slots ++ (ofKeys back textKeys fields).slots := by
  simp [slots, ofKeys, List.flatMap_append]

end Batch

namespace Handle

variable {h : Handle} {key : Bytes} {field : String}

theorem multiget_of_fits (hserves : h.engine.Serves store) (hopen : h.isOpen = true)
    (hfits : batch.Fits store) :
    (h.multiget batch).1 = .ok (batch.slots.map fun slot => store slot.1 (bytesOf slot.2)) := by
  by_cases hslots : batch.slotCount = 0
  · have hnil : batch.slots = [] := by rw [← List.length_eq_zero_iff, Batch.length_slots, hslots]
    rw [multiget_of_no_slots h hslots, hnil]
    rfl
  · obtain ⟨⟨hkeys, hfields⟩, hanswers⟩ := hfits hslots
    exact multiget_eq_slots hserves hopen hkeys hfields hanswers

private theorem get_of_open {token : Int64} (htoken : h.token = some token)
    (hkey : key.length ≤ maxArgument) (hnul : 0 ∉ bytesOf field) :
    (h.get key field).1 = .ok (h.engine.get h.history token key (bytesOf field)).value? := by
  have hcontains : ¬(bytesOf field).contains 0 = true := by simpa using hnul
  rw [get, checkLength, if_pos hkey]
  simp only [if_neg hcontains, htoken]

private theorem get_of_conforms (hconforms : h.engine.Conforms store) (hopen : h.isOpen = true)
    (hkey : key.length ≤ maxArgument) (hnul : 0 ∉ bytesOf field)
    (hvalue : ∀ value, store key (bytesOf field) = some value → value.length ≤ maxArgument) :
    (h.get key field).1 = .ok (dropEmpty (store key (bytesOf field))) := by
  obtain ⟨token, htoken⟩ := Option.isSome_iff_exists.mp hopen
  rw [get_of_open htoken hkey hnul]
  cases hstore : store key (bytesOf field) with
  | none => rw [Buffer.value?_of_isNull (hconforms.absent _ _ _ _ hstore), dropEmpty_none]
  | some value => rw [(hconforms.present _ _ _ _ _ hstore (hvalue value hstore)).value?]

private theorem get_of_fits (hconforms : h.engine.Conforms store) (hopen : h.isOpen = true)
    (hfits : batch.Fits store) (hkey : key ∈ batch.keys) (hfield : field ∈ batch.fields)
    (hnul : 0 ∉ bytesOf field) :
    (h.get key field).1 = .ok (dropEmpty (store key (bytesOf field))) := by
  have hslots : batch.slotCount ≠ 0 :=
    Nat.mul_ne_zero (List.length_pos_of_mem hkey).ne' (List.length_pos_of_mem hfield).ne'
  obtain ⟨⟨hkeys, -⟩, hanswers⟩ := hfits hslots
  refine get_of_conforms hconforms hopen ?_ hnul fun value hvalue => ?_
  · exact (Slot.length_le_wire (List.mem_map_of_mem hkey)).trans hkeys
  · have hanswer : some value ∈ store.answers batch.keys (batch.fields.map bytesOf) := by
      rw [← hvalue]
      exact List.mem_flatMap.mpr ⟨key, hkey,
        List.mem_map.mpr ⟨_, List.mem_map_of_mem hfield, rfl⟩⟩
    exact (Slot.length_le_wire hanswer).trans hanswers

private theorem get_of_long (h : Handle) (field : String) (hkey : maxArgument < key.length) :
    h.get key field = (.error (.engineCall (.argumentTooLong "primary key" key.length)), h) := by
  rw [get, checkLength, if_neg (Nat.not_le.mpr hkey)]

/-! ## Agreement -/

/-- The values that a batch is answered with, and what they say of other lookups. -/
structure Agrees (h : Handle) (byteKeys : List Bytes) (textKeys fields : List String)
    (values : List (Option Bytes)) : Prop where
  batched : (h.multiget (Batch.ofKeys byteKeys textKeys fields)).1 = .ok values
  /-- The field of a key that is looked up alone is answered with the value at its place, except
  that a value without bytes counts as absent, and only then is the answer another. -/
  single : ∀ i j (hi : i < (byteKeys ++ textKeys.map bytesOf).length) (hj : j < fields.length),
    ∃ slot, values[i * fields.length + j]? = some slot ∧
      (h.get (byteKeys ++ textKeys.map bytesOf)[i] fields[j]).1 = .ok (dropEmpty slot) ∧
      ((h.get (byteKeys ++ textKeys.map bytesOf)[i] fields[j]).1 ≠ .ok slot ↔ slot = some [])
  /-- The values are those of the first byte keys, however many, and those of all other keys. -/
  split : ∀ front back, byteKeys = front ++ back → ∃ first second,
    (h.multiget (Batch.ofKeys front [] fields)).1 = .ok first ∧
    (h.multiget (Batch.ofKeys back textKeys fields)).1 = .ok second ∧ values = first ++ second

private theorem agrees_of_fits {byteKeys : List Bytes} {textKeys fields : List String}
    (hconforms : h.engine.Conforms store) (hopen : h.isOpen = true)
    (hnul : ∀ field ∈ fields, 0 ∉ bytesOf field)
    (hfits : (Batch.ofKeys byteKeys textKeys fields).Fits store) :
    Agrees h byteKeys textKeys fields ((Batch.ofKeys byteKeys textKeys fields).slots.map
      fun slot => store slot.1 (bytesOf slot.2)) where
  batched := multiget_of_fits hconforms.batches hopen hfits
  single i j hi hj := by
    have hslot := Batch.getElem?_slots (Batch.ofKeys byteKeys textKeys fields) hi hj
    have hget := get_of_fits hconforms hopen hfits (List.getElem_mem hi) (List.getElem_mem hj)
      (hnul _ (List.getElem_mem hj))
    refine ⟨_, ?_, hget, ?_⟩
    · change (Batch.slots _)[i * fields.length + j]? = _ at hslot
      rw [List.getElem?_map, hslot]
      rfl
    · rw [hget, ne_eq, Except.ok.injEq]
      exact dropEmpty_ne_iff
  split front back hsplit := by
    subst hsplit
    refine ⟨_, _, multiget_of_fits hconforms.batches hopen (hfits.of_sublist ?_ rfl),
      multiget_of_fits hconforms.batches hopen (hfits.of_sublist ?_ rfl), ?_⟩
    · simp [Batch.ofKeys, List.append_assoc]
    · simp [Batch.ofKeys, List.append_assoc]
    · rw [Batch.ofKeys_slots_append, List.map_append]

/-- Single and batched lookups agree. Over an engine that answers from a store, a batch is answered
with the same values on all open handles, and what is looked up alone, or in two batches, has these
values too. Only what is too long for an engine, a row of keys or fields or a single key, is refused,
in both kinds of lookups. -/
theorem lookups_agree (engine : Engine) (store : ValueStore) (hconforms : engine.Conforms store)
    (byteKeys : List Bytes) (textKeys fields : List String)
    (hnul : ∀ field ∈ fields, 0 ∉ bytesOf field) :
    ((Batch.ofKeys byteKeys textKeys fields).Fits store →
      ∃ values, values.length = (byteKeys.length + textKeys.length) * fields.length ∧
        ∀ h : Handle, h.engine = engine → h.isOpen = true →
          Agrees h byteKeys textKeys fields values) ∧
    ∀ h : Handle,
      ((Batch.ofKeys byteKeys textKeys fields).slotCount ≠ 0 →
        ¬(Batch.ofKeys byteKeys textKeys fields).Sendable →
          ∃ cause, h.multiget (Batch.ofKeys byteKeys textKeys fields) =
            (.error (.engineCall cause), h)) ∧
      ∀ key field, maxArgument < key.length → h.get key field =
        (.error (.engineCall (.argumentTooLong "primary key" key.length)), h) := by
  constructor
  · intro hfits
    refine ⟨(Batch.ofKeys byteKeys textKeys fields).slots.map
      fun slot => store slot.1 (bytesOf slot.2), ?_, ?_⟩
    · rw [List.length_map, Batch.length_slots]
      simp [Batch.slotCount, Batch.ofKeys]
    · rintro h rfl hopen
      exact agrees_of_fits hconforms hopen hnul hfits
  · intro h
    exact ⟨multiget_of_not_sendable h, fun key field => get_of_long h field⟩

theorem lookups_agree_empty_value :
    let h : Handle :=
      { engine := Reference.engine { values := [([1], [102], []), ([107], [102], [9])] },
        token := some 42 }
    (h.multiget (Batch.ofKeys [[1], [2]] ["k"] ["f"])).1 = .ok [some [], none, some [9]] ∧
      (h.get [1] "f").1 = .ok none ∧ (h.get [107] "f").1 = .ok (some [9]) := by
  intro h
  obtain ⟨values, -, hagree⟩ := (lookups_agree h.engine _ (Reference.conforms _ rfl rfl)
    [[1], [2]] ["k"] ["f"] (by decide)).1 fun _ => ⟨⟨by decide, by decide⟩, by decide⟩
  obtain ⟨hvalues, hsingle, -⟩ := hagree h rfl rfl
  have hbatch : (h.multiget (Batch.ofKeys [[1], [2]] ["k"] ["f"])).1 =
      .ok [some [], none, some [9]] := by decide +kernel
  obtain rfl := Except.ok.inj (hvalues.symm.trans hbatch)
  obtain ⟨slot, hslot, hempty, -⟩ := hsingle 0 0 (by decide) (by decide)
  obtain ⟨slot', hslot', hbyte, -⟩ := hsingle 2 0 (by decide) (by decide)
  cases hslot
  cases hslot'
  exact ⟨hbatch, hempty, hbyte⟩

end Handle

end EngineClient
