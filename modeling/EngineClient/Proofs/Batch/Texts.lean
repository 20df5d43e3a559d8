import Mathlib
import EngineClient.Proofs.Batch.Answers
import EngineClient.Proofs.Slot.Faults
import EngineClient.Proofs.Text.Utf8

/-!
# Values read as texts

The text lookups ask for what the byte lookups ask for, and read the values as texts. A value that
is no text is refused, and of several the first. That comes last: a lookup that fails, a response
that is no row of slots and a row of another length are told as they are to those who want bytes.
-/

namespace EngineClient

variable {bytes value : Bytes} {defect : Utf8.Defect} {count : Nat}
variable {values : List (Option Bytes)} {ts : List (Option String)}

/-- Whether bytes are those of a text. -/
def IsText (bytes : Bytes) : Prop := ∃ s : String, bytes = bytesOf s

private theorem isText_bytesOf (s : String) : IsText (bytesOf s) := ⟨s, rfl⟩

private theorem decode_bytesOf (s : String) : Utf8.decode (bytesOf s) = .ok s.toList :=
  Utf8.decode_eq_ok_iff.mpr rfl

private theorem exists_defect (h : ¬IsText bytes) :
    ∃ defect, Utf8.decode bytes = .error defect := by
  cases hread : Utf8.decode bytes with
  | error defect => exact ⟨defect, rfl⟩
  | ok text =>
    refine absurd ⟨String.ofList text, ?_⟩ h
    rw [bytesOf, String.toList_ofList]
    exact Utf8.decode_eq_ok_iff.mp hread

/-! ## Rows of texts -/

namespace Slot

/-- The values of some texts. -/
def ofTexts (ts : List (Option String)) : List (Option Bytes) := ts.map (Option.map bytesOf)

private theorem isText_of_mem_ofTexts (h : some value ∈ ofTexts ts) : IsText value := by
  obtain ⟨t, -, ht⟩ := List.mem_map.mp h
  obtain ⟨s, -, rfl⟩ := Option.map_eq_some_iff.mp ht
  exact isText_bytesOf s

private theorem textsOnto_ofTexts (found : List (Option String)) (index : Nat)
    (ts : List (Option String)) (rest : List (Option Bytes)) :
    textsOnto found index (ofTexts ts ++ rest) =
      textsOnto (ts.reverse ++ found) (index + ts.length) rest := by
  induction ts generalizing found index with
  | nil => rfl
  | cons t ts ih =>
    have hstep : textsOnto found index (ofTexts (t :: ts) ++ rest) =
        textsOnto (t :: found) (index + 1) (ofTexts ts ++ rest) := by
      cases t with
      | none => rfl
      | some s =>
        change textsOnto found index (some (bytesOf s) :: (ofTexts ts ++ rest)) = _
        simp only [textsOnto, decode_bytesOf, String.ofList_toList]
    rw [hstep, ih, List.reverse_cons, List.append_assoc, List.length_cons, Nat.add_assoc,
      Nat.add_comm 1]
    rfl

theorem texts_ofTexts (ts : List (Option String)) : texts (ofTexts ts) = .ok ts := by
  have hread := textsOnto_ofTexts [] 0 ts []
  rw [List.append_nil, List.append_nil, textsOnto] at hread
  rw [texts, hread, Except.map, List.reverse_reverse]

private theorem texts_garbled (ts : List (Option String)) (rest : List (Option Bytes))
    (h : Utf8.decode value = .error defect) :
    texts (ofTexts ts ++ some value :: rest) =
      .error (.decode (.slotNotText ts.length defect)) := by
  rw [texts, textsOnto_ofTexts, textsOnto, h, Nat.zero_add]
  rfl

/-- Values are those of some texts, all of them or those before the first that is no text. -/
theorem texts_or_garbled (values : List (Option Bytes)) :
    (∃ ts, values = ofTexts ts) ∨
      ∃ ts value rest, values = ofTexts ts ++ some value :: rest ∧ ¬IsText value := by
  induction values with
  | nil => exact .inl ⟨[], rfl⟩
  | cons slot values ih =>
    have hmore : ∀ t : Option String, slot = t.map bytesOf →
        (∃ ts, slot :: values = ofTexts ts) ∨
          ∃ ts value rest, slot :: values = ofTexts ts ++ some value :: rest ∧ ¬IsText value := by
      rintro t rfl
      rcases ih with ⟨ts, rfl⟩ | ⟨ts, value, rest, rfl, hvalue⟩
      · exact .inl ⟨t :: ts, rfl⟩
      · exact .inr ⟨t :: ts, value, rest, rfl, hvalue⟩
    cases slot with
    | none => exact hmore none rfl
    | some value =>
      by_cases hvalue : IsText value
      · obtain ⟨s, rfl⟩ := hvalue
        exact hmore (some s) rfl
      · exact .inr ⟨[], value, values, rfl, hvalue⟩

private theorem texts_eq_ok_iff : texts values = .ok ts ↔ values = ofTexts ts := by
  constructor
  · intro h
    rcases texts_or_garbled values with ⟨us, rfl⟩ | ⟨us, value, rest, rfl, hvalue⟩
    · rw [texts_ofTexts] at h
      rw [Except.ok.inj h]
    · obtain ⟨defect, hdefect⟩ := exists_defect hvalue
      rw [texts_garbled us rest hdefect] at h
      cases h
  · rintro rfl
    exact texts_ofTexts ts

end Slot

namespace Handle

/-! ## Readings -/

/-- What a text lookup of a field makes of the result of the byte lookup. -/
structure ReadsValue (field : String) (result : Except Error (Option Bytes))
    (reading : Except Error (Option String)) : Prop where
  text : ∀ text, reading = .ok text ↔ result = .ok (text.map bytesOf)
  garbled : ∀ value, result = .ok (some value) → ¬IsText value →
    ∃ defect, Utf8.decode value = .error defect ∧
      reading = .error (.decode (.valueNotText field defect))
  failed : ∀ e, result = .error e → reading = .error e

/-- What a text lookup of a batch makes of the result of the byte lookup. -/
structure ReadsValues (result : Except Error (List (Option Bytes)))
    (reading : Except Error (List (Option String))) : Prop where
  /-- There are texts if and only if there are values and all that are present are texts. -/
  texts : ∀ ts, reading = .ok ts ↔ result = .ok (Slot.ofTexts ts)
  /-- Of the values that are no texts the first is refused, by its number. -/
  garbled : ∀ values, result = .ok values → (∃ value, some value ∈ values ∧ ¬IsText value) →
    ∃ front value rest defect, values = front ++ some value :: rest ∧
      (∀ earlier, some earlier ∈ front → IsText earlier) ∧ Utf8.decode value = .error defect ∧
        reading = .error (.decode (.slotNotText front.length defect))
  failed : ∀ e, result = .error e → reading = .error e

/-- What a text lookup makes of the bytes of a response when `count` slots are expected. -/
structure ReadsResponse (count : Nat) (bytes : Bytes)
    (reading : Except Error (List (Option String))) : Prop where
  /-- A row of that many slots is read as any buffer of texts is, with the same errors. -/
  counted : ∀ values, bytes = Slot.wire values → values.length = count →
    reading = Slot.decodeTexts bytes
  /-- Whether the values are texts makes no difference to a row of another length, -/
  miscounted : ∀ values, bytes = Slot.wire values → values.length ≠ count →
    reading = .error (.decode (.slotCount count values.length))
  /-- and the values before the place where the bytes cease to be a row make none. -/
  malformed : (∀ values, bytes ≠ Slot.wire values) →
    ∃ cause, Slot.decode bytes = .error (.decode cause) ∧ cause.offset?.isSome = true ∧
      reading = .error (.decode cause)

private theorem readsValue (field : String) (result : Except Error (Option Bytes)) :
    ReadsValue field result (result.bind (textValue field)) where
  text text := by
    rcases result with e | _ | value
    · exact iff_of_false nofun nofun
    · cases text <;> simp [Except.bind, textValue]
    · change textValue field (some value) = _ ↔ _
      by_cases hvalue : IsText value
      · obtain ⟨s, rfl⟩ := hvalue
        simp only [textValue, decode_bytesOf, String.ofList_toList, Except.ok.injEq]
        exact (Option.map_injective fun _ _ => bytesOf_injective).eq_iff.symm
      · obtain ⟨defect, hdefect⟩ := exists_defect hvalue
        simp only [textValue, hdefect]
        constructor
        · intro h
          cases h
        · intro h
          obtain ⟨s, -, rfl⟩ := Option.map_eq_some_iff.mp (Except.ok.inj h).symm
          exact absurd (isText_bytesOf s) hvalue
  garbled value hresult hvalue := by
    obtain ⟨defect, hdefect⟩ := exists_defect hvalue
    refine ⟨defect, hdefect, ?_⟩
    rw [hresult, Except.bind, textValue, hdefect]
  failed e hresult := by
    rw [hresult]
    rfl

private theorem readsValues (result : Except Error (List (Option Bytes))) :
    ReadsValues result (result.bind Slot.texts) where
  texts ts := by
    cases result with
    | error e => exact iff_of_false nofun nofun
    | ok values =>
      rw [Except.ok.injEq]
      exact Slot.texts_eq_ok_iff
  garbled values hresult hgarbled := by
    obtain ⟨other, hother, hnot⟩ := hgarbled
    rcases Slot.texts_or_garbled values with ⟨ts, rfl⟩ | ⟨ts, value, rest, rfl, hvalue⟩
    · exact absurd (Slot.isText_of_mem_ofTexts hother) hnot
    · obtain ⟨defect, hdefect⟩ := exists_defect hvalue
      refine ⟨Slot.ofTexts ts, value, rest, defect, rfl,
        fun _ => Slot.isText_of_mem_ofTexts, hdefect, ?_⟩
      rw [hresult, Slot.ofTexts, List.length_map]
      exact Slot.texts_garbled ts rest hdefect
  failed e hresult := by
    rw [hresult]
    rfl

private theorem readsResponse (h : bytes.length ≤ Slot.maxLength) :
    ReadsResponse count bytes (((Slot.decode bytes).bind (counted count)).bind Slot.texts) where
  counted values hrow hcount := by
    have hread := (Slot.decode_eq_ok_iff_wire h).mpr hrow
    rw [Slot.decodeTexts, hread, Except.bind, counted, if_pos hcount]
  miscounted values hrow hcount := by
    rw [(Slot.decode_eq_ok_iff_wire h).mpr hrow, Except.bind, counted, if_neg hcount]
    rfl
  malformed hnone := by
    cases hread : Slot.decode bytes with
    | ok values => exact absurd ((Slot.decode_eq_ok_iff_wire h).mp hread) (hnone values)
    | error e =>
      obtain ⟨front, back, -, -, -, -, rfl⟩ := Slot.decode_eq_error hread
      exact ⟨_, rfl, by rw [Slot.offset?_fault]; rfl, rfl⟩

/-! ## Lookups -/

private theorem getText_fst (h : Handle) (key : Bytes) (field : String) :
    (h.getText key field).1 = (h.get key field).1.bind (textValue field) := rfl

private theorem multigetTexts_fst (h : Handle) (batch : Batch) :
    (h.multigetTexts batch).1 = (h.multiget batch).1.bind Slot.texts := rfl

/-- The text lookups agree with the byte lookups, whatever the engine answers. They leave the handle
as the byte lookups do. The value of a field is read as its text, an absent one as none, or refused
as no text; the values of a batch are read slot by slot, or the first that is no text is refused; and
a lookup that fails fails in the same way. A response that carries bytes is read as they are read on
their own when they are a row of as many slots as expected. Otherwise the error is that of the byte
lookup, no matter which values are texts. -/
theorem texts_agree (h : Handle) :
    (∀ key field, (h.getText key field).2 = (h.get key field).2 ∧
      ReadsValue field (h.get key field).1 (h.getText key field).1) ∧
    ∀ batch, (h.multigetTexts batch).2 = (h.multiget batch).2 ∧
      ReadsValues (h.multiget batch).1 (h.multigetTexts batch).1 ∧
      ∀ token buffer data, h.token = some token → batch.slotCount ≠ 0 → batch.Sendable →
        h.engine.multiget h.history token batch.keyRow batch.fieldRow = buffer →
        buffer.memory = some data → 0 < buffer.length →
          ReadsResponse batch.slotCount (data.take buffer.length.toInt.toNat)
            (h.multigetTexts batch).1 := by
  refine ⟨fun key field => ⟨rfl, ?_⟩, fun batch => ⟨rfl, ?_, ?_⟩⟩
  · rw [getText_fst]
    exact readsValue field _
  · rw [multigetTexts_fst]
    exact readsValues _
  · intro token buffer data htoken hslots hsend hbuffer hmemory hpos
    rw [multigetTexts_fst, multiget_of_open htoken hslots hsend hbuffer,
      batchValues_eq hmemory hpos]
    exact readsResponse (buffer.length_take_le data)

/-- An empty value and two that are no texts. -/
def garbledRow : List (Option Bytes) := [some [], some [0xFF], some [0xC3]]

theorem texts_agree_second_slot :
    (({ engine := Reference.engine { fixedMultiget := some (.ofBytes (Slot.wire garbledRow)) },
        token := some 42 } : Handle).multigetTexts (Batch.ofKeys [[1]] [] ["f", "g", "h"])).1 =
      .error (.decode (.slotNotText 1 ⟨0, some 1⟩)) := by
  have hreads := ((texts_agree
    { engine := Reference.engine { fixedMultiget := some (.ofBytes (Slot.wire garbledRow)) },
      token := some 42 }).2 (Batch.ofKeys [[1]] [] ["f", "g", "h"])).2.2 42 _ _ rfl (by decide)
    ⟨by decide, by decide⟩ rfl rfl (by decide)
  rw [hreads.counted garbledRow (by decide) rfl]
  decide +kernel

end Handle

end EngineClient
