import Mathlib
import EngineClient.Engine.Reference
import EngineClient.Handle
import EngineClient.Proofs.Slot.Grammar

/-!
# The alignment of batched lookups

The answer to a batch names neither keys nor fields. Its slots stand for the pairs of a key and a
field, keys outside and fields inside, and this holds all the way from the two lists of a request to
the list of values that the client hands out.
-/

namespace EngineClient

/-! ## The pairs of a batch -/

namespace Batch

theorem length_slots (b : Batch) : b.slots.length = b.slotCount := by
  simp [slots, slotCount, List.length_flatMap]

theorem getElem?_pairs {α β : Type} (keys : List α) (fields : List β) (i j : Nat)
    (hi : i < keys.length) (hj : j < fields.length) :
    (keys.flatMap fun key => fields.map fun field => (key, field))[i * fields.length + j]? =
      some (keys[i], fields[j]) := by
  induction keys generalizing i with
  | nil => exact absurd hi (Nat.not_lt_zero i)
  | cons key keys ih =>
    rw [List.flatMap_cons]
    cases i with
    | zero =>
      rw [Nat.zero_mul, Nat.zero_add, List.getElem?_append_left (by simpa using hj)]
      simp [hj]
    | succ i =>
      have hskip : (i + 1) * fields.length + j - fields.length = i * fields.length + j := by
        rw [Nat.succ_mul]
        omega
      rw [List.getElem?_append_right (by rw [List.length_map, Nat.succ_mul]; omega),
        List.length_map, hskip, ih i (Nat.lt_of_succ_lt_succ hi)]
      rfl

/-- The pair of the `i`-th key and the `j`-th field stands at `i` times the number of fields, plus
`j`. -/
theorem getElem?_slots (b : Batch) {i j : Nat} (hi : i < b.keys.length) (hj : j < b.fields.length) :
    b.slots[i * b.fields.length + j]? = some (b.keys[i], b.fields[j]) :=
  getElem?_pairs b.keys b.fields i j hi hj

end Batch

/-! ## Engines that answer from a store -/

namespace ValueStore

/-- What a store holds for every pair of some keys and some fields, keys outside. -/
def answers (store : ValueStore) (keys fields : List Bytes) : List (Option Bytes) :=
  keys.flatMap fun key => fields.map fun field => store key field

private theorem answers_eq_slots (store : ValueStore) (b : Batch) :
    store.answers b.keys (b.fields.map bytesOf) =
      b.slots.map fun slot => store slot.1 (bytesOf slot.2) := by
  simp only [answers, Batch.slots, List.map_flatMap, List.map_map, Function.comp_def]

end ValueStore

/-- An engine serves batches from a store: it reads the two arguments as rows of slots, and the
buffer that it returns carries a slot for each pair, keys outside, as long as the length of the row
can be told. -/
def Engine.Serves (engine : Engine) (store : ValueStore) : Prop :=
  ∀ (past : List Call) (token : Int64) (keyRow fieldRow : Bytes) (keys fields : List Bytes),
    Slot.decode keyRow = .ok (keys.map some) → Slot.decode fieldRow = .ok (fields.map some) →
    (Slot.wire (store.answers keys fields)).length ≤ Handle.maxArgument →
    (engine.multiget past token keyRow fieldRow).contents = Slot.wire (store.answers keys fields)

private theorem Buffer.contents_ofBytes {data : Bytes} (h : data.length ≤ Handle.maxArgument) :
    (Buffer.ofBytes data).contents = data := by
  have hint : (Int32.ofNat data.length).toInt = data.length := by
    apply Int32.toInt_ofNat_of_lt
    simp only [Handle.maxArgument] at h
    omega
  by_cases hnil : data = []
  · simp [hnil, Buffer.contents, Buffer.ofBytes]
  · have hempty : (Buffer.ofBytes data).isEmpty = false := by
      simp [Buffer.isEmpty, Buffer.isNull, Buffer.ofBytes, Int32.le_iff_toInt_le, hint, hnil]
    simp only [Buffer.contents, hempty]
    simp [Buffer.ofBytes, hint]

/-- The engine over a store of values serves batches from it. -/
theorem Reference.serves (r : Reference) (h : r.fixedMultiget = none) :
    r.engine.Serves (ValueStore.ofList r.values) := by
  intro past token keyRow fieldRow keys fields hkeys hfields hlength
  have hvalues : ∀ {row : Bytes} {items : List Bytes},
      Slot.decode row = .ok (items.map some) → slotValues row = items := by
    intro row items hrow
    simp [slotValues, hrow, List.map_map, Function.comp_def]
  simp only [Reference.engine, h, Option.getD_none, ValueStore.batchAnswer, hvalues hkeys,
    hvalues hfields]
  exact Buffer.contents_ofBytes hlength

/-! ## The way of a batch -/

namespace Handle

theorem batchArguments_eq {batch : Batch}
    (hkeys : (Slot.wire (batch.keys.map some)).length ≤ maxArgument)
    (hfields : (Slot.wire ((batch.fields.map bytesOf).map some)).length ≤ maxArgument) :
    batchArguments batch =
      .ok (Slot.wire (batch.keys.map some), Slot.wire ((batch.fields.map bytesOf).map some)) := by
  have hkeyRow := Slot.encode_eq_wire (Slot.fits_present.mp (Slot.fits_of_length hkeys))
  have hfieldRow := Slot.encode_eq_wire (Slot.fits_present.mp (Slot.fits_of_length hfields))
  simp only [batchArguments, Batch.encodeKeys, Batch.encodeFields, hkeyRow, hfieldRow, checkLength,
    hkeys, hfields, if_true, bind, Except.bind, pure, Except.pure]

private theorem isEmpty_of_contents_nil {buffer : Buffer} (h : buffer.isEmpty = true) :
    buffer.contents = [] := by
  cases hmemory : buffer.memory <;> simp [Buffer.contents, hmemory, h]

private theorem batchValues_wire {count : Nat} {buffer : Buffer} {values : List (Option Bytes)}
    (hrow : buffer.contents = Slot.wire values) (hfits : Slot.Fits values)
    (hcount : values.length = count) (hpos : count ≠ 0) :
    batchValues count buffer = .ok values := by
  have hempty : ¬buffer.isEmpty = true := by
    intro h
    rw [isEmpty_of_contents_nil h] at hrow
    cases values with
    | nil => exact hpos hcount.symm
    | cons slot values =>
      rw [Slot.wire_cons] at hrow
      exact Slot.wireSlot_ne_nil slot (List.append_eq_nil_iff.mp hrow.symm).1
  rw [batchValues, if_neg hempty, hrow, Slot.decode_wire hfits]
  simp only [hcount, if_true]

/-- A batch over an engine that serves a store is answered by the values of its pairs. -/
theorem multiget_eq_slots {h : Handle} {store : ValueStore} {batch : Batch}
    (hserves : h.engine.Serves store) (hopen : h.isOpen = true)
    (hkeys : (Slot.wire (batch.keys.map some)).length ≤ maxArgument)
    (hfields : (Slot.wire ((batch.fields.map bytesOf).map some)).length ≤ maxArgument)
    (hanswers : (Slot.wire (store.answers batch.keys (batch.fields.map bytesOf))).length ≤
      maxArgument) :
    (h.multiget batch).1 = .ok (batch.slots.map fun slot => store slot.1 (bytesOf slot.2)) := by
  obtain ⟨token, htoken⟩ := Option.isSome_iff_exists.mp hopen
  by_cases hempty : batch.isEmpty = true
  · have hnil : batch.slots = [] := by
      rw [← List.length_eq_zero_iff, Batch.length_slots]
      exact beq_iff_eq.mp hempty
    rw [multiget, if_pos hempty, hnil]
    rfl
  · have hcontents := hserves h.history token _ _ batch.keys (batch.fields.map bytesOf)
      (Slot.decode_wire (Slot.fits_of_length hkeys))
      (Slot.decode_wire (Slot.fits_of_length hfields)) hanswers
    have hfits := Slot.fits_of_length hanswers
    rw [store.answers_eq_slots] at hcontents hfits
    rw [multiget, if_neg hempty, batchArguments_eq hkeys hfields]
    simp only [htoken]
    apply batchValues_wire hcontents hfits
    · rw [List.length_map, Batch.length_slots]
    · intro hzero
      exact hempty (beq_iff_eq.mpr hzero)

/-- Batched lookups are aligned from end to end. On an open handle over an engine that serves a
store, all lists of byte keys, text keys and fields whose rows fit are answered by one value for
each pair: the value of the `i`-th key, byte keys before text keys, and the `j`-th field stands in
the row of the `i`-th key at the place of the `j`-th field, and the values stand in the order of the
pairs of the batch. What the store holds is passed on as it is, an empty value as an empty value. -/
theorem multiget_aligned (h : Handle) (store : ValueStore) (hserves : h.engine.Serves store)
    (hopen : h.isOpen = true) (byteKeys : List Bytes) (textKeys fields : List String)
    (hkeys : (Slot.wire ((byteKeys ++ textKeys.map bytesOf).map some)).length ≤ maxArgument)
    (hfields : (Slot.wire ((fields.map bytesOf).map some)).length ≤ maxArgument)
    (hanswers : (Slot.wire
      (store.answers (byteKeys ++ textKeys.map bytesOf) (fields.map bytesOf))).length ≤
        maxArgument) :
    ∃ values, (h.multiget (Batch.ofKeys byteKeys textKeys fields)).1 = .ok values ∧
      values.length = (byteKeys.length + textKeys.length) * fields.length ∧
      (∀ i j (hi : i < (byteKeys ++ textKeys.map bytesOf).length) (hj : j < fields.length),
        values[i * fields.length + j]? =
          some (store (byteKeys ++ textKeys.map bytesOf)[i] (bytesOf fields[j]))) ∧
      values = (Batch.ofKeys byteKeys textKeys fields).slots.map
        fun slot => store slot.1 (bytesOf slot.2) := by
  have hvalues : (h.multiget (Batch.ofKeys byteKeys textKeys fields)).1 =
      .ok ((Batch.ofKeys byteKeys textKeys fields).slots.map
        fun slot => store slot.1 (bytesOf slot.2)) :=
    multiget_eq_slots hserves hopen hkeys hfields hanswers
  refine ⟨_, hvalues, ?_, ?_, rfl⟩
  · rw [List.length_map, Batch.length_slots]
    simp [Batch.slotCount, Batch.ofKeys]
  · intro i j hi hj
    have hpair := Batch.getElem?_slots (Batch.ofKeys byteKeys textKeys fields) hi hj
    change (Batch.slots _)[i * fields.length + j]? = _ at hpair
    rw [List.getElem?_map, hpair]
    rfl

theorem multiget_aligned_two_keys :
    (({ engine := Reference.engine { values := [([1], [102], []), ([107], [103], [9])] },
        token := some 42 } : Handle).multiget (Batch.ofKeys [[1]] ["k"] ["f", "g"])).1 =
      .ok [some [], none, none, some [9]] := by
  obtain ⟨values, hvalues, -, -, hslots⟩ := multiget_aligned
    { engine := Reference.engine { values := [([1], [102], []), ([107], [103], [9])] },
      token := some 42 }
    _ (Reference.serves _ rfl) rfl [[1]] ["k"] ["f", "g"] (by decide) (by decide) (by decide)
  rw [hvalues, hslots]
  decide

end Handle

end EngineClient
