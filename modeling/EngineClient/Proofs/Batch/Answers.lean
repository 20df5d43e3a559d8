import Mathlib
import EngineClient.Proofs.Batch.Alignment
import EngineClient.Proofs.Handle.Run

/-!
# Answers to batched lookups

An engine may answer a batch with any buffer. An absent one stands for no values. Any other is read
only if it is a row of slots, to the last byte, and has a slot for each pair of the batch. So values
are never passed on at the place of others, and there are never too few or too many.
-/

namespace EngineClient

variable {h : Handle} {batch : Batch} {buffer : Buffer} {bytes : Bytes} {count : Nat}
variable {values : List (Option Bytes)} {data : Bytes}

/-! ## Requests -/

namespace Batch

private theorem isEmpty_iff : batch.isEmpty = true ↔ batch.slotCount = 0 := beq_iff_eq

/-- The row of the keys. -/
def keyRow (b : Batch) : Bytes := Slot.wire (b.keys.map some)

/-- The row of the field names. -/
def fieldRow (b : Batch) : Bytes := Slot.wire ((b.fields.map bytesOf).map some)

/-- Whether both rows can be handed to an engine. -/
def Sendable (b : Batch) : Prop :=
  b.keyRow.length ≤ Handle.maxArgument ∧ b.fieldRow.length ≤ Handle.maxArgument

end Batch

/-! ## Buffers -/

namespace Buffer

theorem isEmpty_iff : buffer.isEmpty = true ↔ buffer.memory = none ∨ buffer.length ≤ 0 := by
  simp [isEmpty, isNull]

theorem not_isEmpty (hmemory : buffer.memory = some data) (hpos : 0 < buffer.length) :
    ¬buffer.isEmpty = true := by
  rw [isEmpty_iff, hmemory]
  simpa using hpos

theorem contents_eq (hmemory : buffer.memory = some data) (hpos : 0 < buffer.length) :
    buffer.contents = data.take buffer.length.toInt.toNat := by
  rw [contents, hmemory]
  exact if_neg (not_isEmpty hmemory hpos)

theorem length_take_le (buffer : Buffer) (data : Bytes) :
    (data.take buffer.length.toInt.toNat).length ≤ Slot.maxLength := by
  have hlt := buffer.length.toInt_lt
  have hle := List.length_take_le buffer.length.toInt.toNat data
  simp only [Slot.maxLength]
  omega

end Buffer

namespace Handle

/-! ## What is made of the bytes of an answer -/

/-- The result of a batch of `count` slots that is answered by some bytes: their values if they are
a row of so many slots, and else an error, which tells the two counts if they are another row. -/
structure Reads (count : Nat) (bytes : Bytes) (result : Except Error (List (Option Bytes))) :
    Prop where
  aligned : ∀ values, result = .ok values ↔ bytes = Slot.wire values ∧ values.length = count
  miscounted : ∀ values, bytes = Slot.wire values → values.length ≠ count →
    result = .error (.decode (.slotCount count values.length))
  refused : (∀ values, bytes = Slot.wire values → values.length ≠ count) →
    ∃ cause, result = .error (.decode cause)

/-- Passes on values if there are as many as expected. -/
def counted (count : Nat) (values : List (Option Bytes)) : Except Error (List (Option Bytes)) :=
  if values.length = count then .ok values
  else .error (.decode (.slotCount count values.length))

private theorem counted_eq_ok_iff {row : List (Option Bytes)} :
    counted count row = .ok values ↔ row = values ∧ values.length = count := by
  rw [counted]
  split
  · next hcount =>
    rw [Except.ok.injEq]
    refine (and_iff_left_of_imp ?_).symm
    rintro rfl
    exact hcount
  · next hcount =>
    refine iff_of_false nofun ?_
    rintro ⟨rfl, hlength⟩
    exact hcount hlength

private theorem reads_counted (h : bytes.length ≤ Slot.maxLength) :
    Reads count bytes ((Slot.decode bytes).bind (counted count)) where
  aligned values := by
    rw [← Slot.decode_eq_ok_iff_wire h]
    cases Slot.decode bytes with
    | error e => exact iff_of_false nofun fun hboth => nomatch hboth.1
    | ok row =>
      rw [Except.ok.injEq]
      exact counted_eq_ok_iff
  miscounted values hrow hcount := by
    rw [(Slot.decode_eq_ok_iff_wire h).mpr hrow]
    exact if_neg hcount
  refused hnone := by
    cases hread : Slot.decode bytes with
    | error e =>
      obtain ⟨cause, rfl⟩ := Slot.decode_fails bytes e hread
      exact ⟨cause, rfl⟩
    | ok row => exact ⟨_, if_neg (hnone row ((Slot.decode_eq_ok_iff_wire h).mp hread))⟩

private theorem batchValues_absent (habsent : buffer.memory = none ∨ buffer.length ≤ 0) :
    batchValues count buffer = .ok (List.replicate count none) :=
  if_pos (Buffer.isEmpty_iff.mpr habsent)

/-- A buffer that carries bytes is read as a row, and then the values are counted. -/
theorem batchValues_eq (hmemory : buffer.memory = some data) (hpos : 0 < buffer.length) :
    batchValues count buffer =
      (Slot.decode (data.take buffer.length.toInt.toNat)).bind (counted count) := by
  rw [batchValues, if_neg (Buffer.not_isEmpty hmemory hpos), Buffer.contents_eq hmemory hpos]
  cases Slot.decode (data.take buffer.length.toInt.toNat) <;> rfl

private theorem batchValues_reads (hmemory : buffer.memory = some data) (hpos : 0 < buffer.length) :
    Reads count (data.take buffer.length.toInt.toNat) (batchValues count buffer) := by
  rw [batchValues_eq hmemory hpos]
  exact reads_counted (buffer.length_take_le data)

private theorem batchValues_length (h : batchValues count buffer = .ok values) :
    values.length = count := by
  by_cases habsent : buffer.memory = none ∨ buffer.length ≤ 0
  · rw [batchValues_absent habsent] at h
    rw [← Except.ok.inj h, List.length_replicate]
  · rw [not_or, Int32.not_le] at habsent
    obtain ⟨data, hmemory⟩ := Option.ne_none_iff_exists'.mp habsent.1
    exact ((batchValues_reads hmemory habsent.2).aligned values |>.mp h).2

/-! ## Lookups -/

private theorem batchArguments_of_sendable (hsend : batch.Sendable) :
    batchArguments batch = .ok (batch.keyRow, batch.fieldRow) :=
  batchArguments_eq hsend.1 hsend.2

private theorem sendable_of_batchArguments {arguments : Bytes × Bytes}
    (h : batchArguments batch = .ok arguments) : batch.Sendable := by
  cases hkeys : batch.encodeKeys with
  | error e => simp [batchArguments, hkeys, bind, Except.bind] at h
  | ok keys =>
    cases hfields : batch.encodeFields with
    | error e => simp [batchArguments, hkeys, hfields, bind, Except.bind] at h
    | ok fields =>
      obtain rfl : keys = batch.keyRow := Slot.encode_eq_ok hkeys
      obtain rfl : fields = batch.fieldRow := Slot.encode_eq_ok hfields
      rw [batchArguments, hkeys, hfields] at h
      by_cases hkeyRow : batch.keyRow.length ≤ maxArgument
      · by_cases hfieldRow : batch.fieldRow.length ≤ maxArgument
        · exact ⟨hkeyRow, hfieldRow⟩
        · simp [bind, Except.bind, checkLength, hkeyRow, hfieldRow] at h
      · simp [bind, Except.bind, checkLength, hkeyRow] at h

private theorem batchArguments_of_not_sendable (hsend : ¬batch.Sendable) :
    ∃ cause, batchArguments batch = .error (.engineCall cause) := by
  cases harguments : batchArguments batch with
  | ok arguments => exact absurd (sendable_of_batchArguments harguments) hsend
  | error e =>
    obtain ⟨cause, rfl⟩ := batchArguments_fails batch e harguments
    exact ⟨cause, rfl⟩

theorem multiget_of_no_slots (h : Handle) (hnone : batch.slotCount = 0) :
    h.multiget batch = (.ok [], h) :=
  if_pos (Batch.isEmpty_iff.mpr hnone)

theorem multiget_of_not_sendable (h : Handle) (hslots : batch.slotCount ≠ 0)
    (hsend : ¬batch.Sendable) :
    ∃ cause, h.multiget batch = (.error (.engineCall cause), h) := by
  obtain ⟨cause, hcause⟩ := batchArguments_of_not_sendable hsend
  refine ⟨cause, ?_⟩
  rw [multiget, if_neg (mt Batch.isEmpty_iff.mp hslots), hcause]

private theorem multiget_of_closed (htoken : h.token = none) (hslots : batch.slotCount ≠ 0)
    (hsend : batch.Sendable) : h.multiget batch = (.error .engineClosed, h) := by
  rw [multiget, if_neg (mt Batch.isEmpty_iff.mp hslots), batchArguments_of_sendable hsend, htoken]

/-- The engine is asked once, and its buffer is read and handed back. -/
theorem multiget_of_open {token : Int64} (htoken : h.token = some token)
    (hslots : batch.slotCount ≠ 0) (hsend : batch.Sendable)
    (hbuffer : h.engine.multiget h.history token batch.keyRow batch.fieldRow = buffer) :
    h.multiget batch = (batchValues batch.slotCount buffer,
      (h.record (.multigot token batch.keyRow batch.fieldRow buffer)).release buffer) := by
  subst hbuffer
  rw [multiget, if_neg (mt Batch.isEmpty_iff.mp hslots), batchArguments_of_sendable hsend, htoken]

theorem multiget_length (hvalues : (h.multiget batch).1 = .ok values) :
    values.length = batch.slotCount := by
  by_cases hslots : batch.slotCount = 0
  · rw [multiget_of_no_slots h hslots] at hvalues
    rw [← Except.ok.inj hvalues, hslots]
    rfl
  · by_cases hsend : batch.Sendable
    · cases htoken : h.token with
      | none =>
        rw [multiget_of_closed htoken hslots hsend] at hvalues
        cases hvalues
      | some token =>
        rw [multiget_of_open htoken hslots hsend rfl] at hvalues
        exact batchValues_length hvalues
    · obtain ⟨cause, hcause⟩ := multiget_of_not_sendable h hslots hsend
      rw [hcause] at hvalues
      cases hvalues

/-- No answer of an engine makes a batched lookup hand out values at wrong places, or some of them.
A batch without slots is answered by no values, and nothing is asked of the engine, open or closed.
If the index is open, a batch with slots is refused before the engine is asked when a row is too
long for it, and else the engine is asked once. A buffer that points nowhere, or declares no bytes,
stands for an absent value in each slot. Any other is passed on as the values of which its bytes are
the row, if there is one for each slot, and refused as malformed in all other cases. So there are
never more or fewer values than slots. -/
theorem multiget_never_misaligned (h : Handle) (batch : Batch) :
    (batch.slotCount = 0 → h.multiget batch = (.ok [], h)) ∧
    (∀ token, h.token = some token → batch.slotCount ≠ 0 →
      (¬batch.Sendable → ∃ cause, h.multiget batch = (.error (.engineCall cause), h)) ∧
      (batch.Sendable → ∀ buffer,
        h.engine.multiget h.history token batch.keyRow batch.fieldRow = buffer →
          (h.multiget batch).2 =
            (h.record (.multigot token batch.keyRow batch.fieldRow buffer)).release buffer ∧
          (buffer.memory = none ∨ buffer.length ≤ 0 →
            (h.multiget batch).1 = .ok (List.replicate batch.slotCount none)) ∧
          (∀ data, buffer.memory = some data → 0 < buffer.length →
            Reads batch.slotCount (data.take buffer.length.toInt.toNat) (h.multiget batch).1))) ∧
    (∀ values, (h.multiget batch).1 = .ok values → values.length = batch.slotCount) := by
  refine ⟨multiget_of_no_slots h, ?_, fun _ => multiget_length⟩
  intro token htoken hslots
  refine ⟨multiget_of_not_sendable h hslots, fun hsend buffer hbuffer => ?_⟩
  rw [multiget_of_open htoken hslots hsend hbuffer]
  exact ⟨rfl, batchValues_absent, fun data => batchValues_reads⟩

theorem multiget_never_misaligned_three_slots :
    (({ engine := Reference.engine { fixedMultiget := some (.ofBytes (List.replicate 12 0xFF)) },
        token := some 42 } : Handle).multiget (Batch.ofKeys [[1]] [] ["f", "g"])).1 =
      .error (.decode (.slotCount 2 3)) := by
  have hreads := (multiget_never_misaligned
    { engine := Reference.engine { fixedMultiget := some (.ofBytes (List.replicate 12 0xFF)) },
      token := some 42 } (Batch.ofKeys [[1]] [] ["f", "g"])).2.1 42 rfl (by decide)
  have hanswer := (hreads.2 ⟨by decide, by decide⟩ _ rfl).2.2 _ rfl (by decide)
  exact hanswer.miscounted [none, none, none] (by decide) (by decide)

end Handle

end EngineClient
