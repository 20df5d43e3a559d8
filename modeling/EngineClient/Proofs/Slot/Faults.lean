import Mathlib
import EngineClient.Proofs.Slot.Grammar

/-!
# Where a buffer is faulty

A buffer that is no row of slots is one up to some place, and what follows there does not start with
a slot. There is only one such place. The error names it and says what is wrong there, so it stays
the same, but for the place, when another row is put in front, and it tells the last slot before a
cut.
-/

namespace EngineClient

namespace DecodeError

/-- The place in the buffer that an error names. -/
def offset? : DecodeError → Option Nat
  | truncatedHeader offset _ => some offset
  | overrun offset _ _ => some offset
  | invalidLength _ offset => some offset
  | _ => none

/-- The error for a buffer that starts some bytes further on. -/
def later (bytes : Nat) : DecodeError → DecodeError
  | truncatedHeader offset remaining => truncatedHeader (offset + bytes) remaining
  | overrun offset declared remaining => overrun (offset + bytes) declared remaining
  | invalidLength length offset => invalidLength length (offset + bytes)
  | e => e

private theorem message_ne (offset size remaining left : Nat) (length : Int) :
    (truncatedHeader offset remaining).message ≠ (invalidLength length offset).message ∧
      (truncatedHeader offset remaining).message ≠ (overrun offset size left).message ∧
      (invalidLength length offset).message ≠ (overrun offset size left).message := by
  have htruncated : (truncatedHeader offset remaining).message.toList.head? = some 't' := by
    change (s!"truncated slot header at offset {offset}: {remaining} trailing byte(s)").toList.head?
      = some 't'
    simp only [String.toList_append, List.append_assoc, toString]
    rfl
  have hinvalid : (invalidLength length offset).message.toList.head? = some 'i' := by
    change (s!"invalid slot length {length} at offset {offset}").toList.head? = some 'i'
    simp only [String.toList_append, List.append_assoc, toString]
    rfl
  have hoverrun : (overrun offset size left).message.toList.head? = some 's' := by
    change (s!"slot at offset {offset} declares {size} bytes, {left} remaining").toList.head?
      = some 's'
    simp only [String.toList_append, List.append_assoc, toString]
    rfl
  refine ⟨fun h => ?_, fun h => ?_, fun h => ?_⟩
  · rw [h, hinvalid] at htruncated
    exact absurd htruncated (by decide)
  · rw [h, hoverrun] at htruncated
    exact absurd htruncated (by decide)
  · rw [h, hoverrun] at hinvalid
    exact absurd hinvalid (by decide)

end DecodeError

namespace Slot

variable {buffer front back rest : Bytes} {values : List (Option Bytes)} {offset k k' : Nat}
variable {e : Error} {cause : DecodeError}

/-! ## Errors -/

theorem offset?_fault (offset : Nat) (buffer : Bytes) :
    (fault offset buffer).offset? = some offset := by
  rw [fault]
  split
  · rfl
  · split <;> rfl

private theorem later_fault (bytes offset : Nat) (buffer : Bytes) :
    (fault offset buffer).later bytes = fault (offset + bytes) buffer := by
  rw [fault, fault]
  split
  · rfl
  · split <;> rfl

/-- What is wrong with a faulty buffer, and the error for it. -/
theorem fault_cases (offset : Nat) (h : Faulty buffer) :
    (buffer.length < 4 ∧ fault offset buffer = .truncatedHeader offset buffer.length) ∨
      (4 ≤ buffer.length ∧ declared buffer < -1 ∧
        fault offset buffer = .invalidLength (declared buffer) offset) ∨
      (4 ≤ buffer.length ∧ 0 < declared buffer ∧ (buffer.length : Int) - 4 < declared buffer ∧
        fault offset buffer =
          .overrun offset (declared buffer).toNat (buffer.length - 4)) := by
  rw [fault]
  by_cases hshort : buffer.length < 4
  · exact Or.inl ⟨hshort, if_pos hshort⟩
  · have hheader := Nat.le_of_not_lt hshort
    by_cases hlow : declared buffer < -1
    · exact Or.inr (Or.inl ⟨hheader, hlow, by rw [if_neg hshort, if_pos hlow]⟩)
    · rcases h with h | h | h
      · exact absurd h hshort
      · exact absurd h hlow
      · exact Or.inr (Or.inr ⟨hheader, by omega, by omega, by rw [if_neg hshort, if_neg hlow]⟩)

/-- An error tells what is wrong at a place `k` of a buffer where `rest` is left of it: which place
that is, and in words which of three things it is, with the numbers. -/
structure Tells (k : Nat) (rest : Bytes) (cause : DecodeError) : Prop where
  place : cause.offset? = some k
  truncated :
    cause.message = s!"truncated slot header at offset {k}: {rest.length} trailing byte(s)" ↔
      rest.length < 4
  invalid :
    cause.message = s!"invalid slot length {declared rest} at offset {k}" ↔
      4 ≤ rest.length ∧ declared rest < -1
  overrun :
    cause.message =
        s!"slot at offset {k} declares {(declared rest).toNat} bytes, {rest.length - 4} remaining" ↔
      4 ≤ rest.length ∧ 0 < declared rest ∧ (rest.length : Int) - 4 < declared rest

private theorem tells_fault (k : Nat) (h : Faulty rest) : Tells k rest (fault k rest) := by
  obtain ⟨hinvalid, hoverrun, hapart⟩ := DecodeError.message_ne k (declared rest).toNat rest.length
    (rest.length - 4) (declared rest)
  rcases fault_cases k h with ⟨hshort, hfault⟩ | ⟨hheader, hlow, hfault⟩ |
    ⟨hheader, hpos, hmore, hfault⟩
  · rw [hfault]
    exact ⟨rfl, iff_of_true rfl hshort, iff_of_false hinvalid (by omega),
      iff_of_false hoverrun (by omega)⟩
  · rw [hfault]
    exact ⟨rfl, iff_of_false hinvalid.symm (by omega), iff_of_true rfl ⟨hheader, hlow⟩,
      iff_of_false hapart (by omega)⟩
  · rw [hfault]
    exact ⟨rfl, iff_of_false hoverrun.symm (by omega), iff_of_false hapart.symm (by omega),
      iff_of_true rfl ⟨hheader, hpos, hmore⟩⟩

/-! ## The faulty place -/

/-- A buffer is a row of slots before a place in it, and no slot starts there. -/
structure StopsAt (buffer : Bytes) (k : Nat) : Prop where
  inside : k < buffer.length
  row : ∃ values, decode (buffer.take k) = .ok values
  faulty : Faulty (buffer.drop k)

private theorem decode_faulty (h : Fits values) (hrest : rest ≠ []) (hfaulty : Faulty rest) :
    decode (wire values ++ rest) = .error (.decode (fault (wire values).length rest)) := by
  rw [decode, decodeOnto_wire [] 0 values rest h, decodeOnto_faulty _ _ hrest hfaulty,
    Nat.zero_add]
  rfl

private theorem StopsAt.decode (h : StopsAt buffer k) :
    decode buffer = .error (.decode (fault k (buffer.drop k))) := by
  obtain ⟨values, hvalues⟩ := h.row
  obtain ⟨hfits, hrow⟩ := decode_eq_ok hvalues
  have hlength : (wire values).length = k := by
    rw [← hrow, List.length_take]
    exact Nat.min_eq_left h.inside.le
  have hrest : buffer.drop k ≠ [] := by
    have := h.inside
    rw [← List.length_pos_iff, List.length_drop]
    omega
  have hread := decode_faulty hfits hrest h.faulty
  rwa [← hrow, List.take_append_drop, hrow, hlength] at hread

private theorem StopsAt.of_row (h : Fits values) (hrest : rest ≠ []) (hfaulty : Faulty rest) :
    StopsAt (wire values ++ rest) (wire values).length where
  inside := by
    have := List.length_pos_iff.mpr hrest
    rw [List.length_append]
    omega
  row := ⟨values, by rw [List.take_left, decode_wire h]⟩
  faulty := by rwa [List.drop_left]

/-- A buffer that is refused is a row up to a faulty place. -/
theorem decode_eq_error (h : decode buffer = .error e) : ∃ values rest, Fits values ∧
    buffer = wire values ++ rest ∧ rest ≠ [] ∧ Faulty rest ∧
      e = .decode (fault (wire values).length rest) := by
  obtain ⟨values, rest, hvalues, rfl, rfl | ⟨hrest, hfaulty⟩⟩ := exists_row buffer
  · rw [List.append_nil, decode_wire hvalues] at h
    cases h
  · rw [decode_faulty hvalues hrest hfaulty] at h
    exact ⟨values, rest, hvalues, rfl, hrest, hfaulty, (Except.error.inj h).symm⟩

private theorem error_iff_stopsAt : (∃ e, decode buffer = .error e) ↔ ∃ k, StopsAt buffer k := by
  constructor
  · rintro ⟨e, he⟩
    obtain ⟨values, rest, hvalues, rfl, hrest, hfaulty, -⟩ := decode_eq_error he
    exact ⟨_, .of_row hvalues hrest hfaulty⟩
  · rintro ⟨k, hk⟩
    exact ⟨_, hk.decode⟩

private theorem StopsAt.unique (h : StopsAt buffer k) (h' : StopsAt buffer k') : k = k' := by
  have herror := h.decode.symm.trans h'.decode
  have hfault : fault k (buffer.drop k) = fault k' (buffer.drop k') := by simpa using herror
  have hoffset := congrArg DecodeError.offset? hfault
  rw [offset?_fault, offset?_fault] at hoffset
  exact Option.some.inj hoffset

/-! ## Rows side by side -/

private theorem wire_append (values more : List (Option Bytes)) :
    wire (values ++ more) = wire values ++ wire more := List.flatMap_append

private theorem decode_wire_append_ok {more : List (Option Bytes)} (h : Fits values)
    (hback : decode back = .ok more) : decode (wire values ++ back) = .ok (values ++ more) := by
  obtain ⟨hmore, rfl⟩ := decode_eq_ok hback
  rw [← wire_append]
  exact decode_wire (List.forall_mem_append.mpr ⟨h, hmore⟩)

private theorem decode_wire_append_error (h : Fits values)
    (hback : decode back = .error (.decode cause)) :
    decode (wire values ++ back) = .error (.decode (cause.later (wire values).length)) := by
  obtain ⟨more, rest, hmore, rfl, hrest, hfaulty, hcause⟩ := decode_eq_error hback
  obtain rfl : cause = _ := Error.decode.inj hcause
  have hboth : Fits (values ++ more) := List.forall_mem_append.mpr ⟨h, hmore⟩
  rw [← List.append_assoc, ← wire_append, decode_faulty hboth hrest hfaulty, later_fault,
    wire_append, List.length_append, Nat.add_comm]

/-! ## Cuts -/

/-- The place where the slots of the first `j` values end. -/
def boundary (values : List (Option Bytes)) (j : Nat) : Nat := (wire (values.take j)).length

private theorem boundary_succ (slot : Option Bytes) (values : List (Option Bytes)) (j : Nat) :
    boundary (slot :: values) (j + 1) = (wireSlot slot).length + boundary values j := by
  rw [boundary, List.take_succ_cons, wire_cons, List.length_append]
  rfl

/-- A place in a row is where a slot ends, or within the next slot. -/
theorem boundary_cases (values : List (Option Bytes)) {n : Nat} (hn : n < (wire values).length) :
    (∃ j ≤ values.length, n = boundary values j) ∨
      ∃ j < values.length, boundary values j < n ∧ n < boundary values (j + 1) := by
  induction values generalizing n with
  | nil => exact absurd hn (Nat.not_lt_zero n)
  | cons slot values ih =>
    rw [wire_cons, List.length_append] at hn
    have hstart : boundary (slot :: values) 0 = 0 := rfl
    have hfirst : boundary (slot :: values) 1 = (wireSlot slot).length :=
      boundary_succ slot values 0
    by_cases hzero : n = 0
    · exact Or.inl ⟨0, Nat.zero_le _, hzero⟩
    by_cases hwithin : n < (wireSlot slot).length
    · refine Or.inr ⟨0, Nat.succ_pos _, ?_, ?_⟩
      · rw [hstart]
        omega
      · rwa [Nat.zero_add, hfirst]
    · rcases ih (n := n - (wireSlot slot).length) (by omega) with
        ⟨j, hj, heq⟩ | ⟨j, hj, hlow, hhigh⟩
      · refine Or.inl ⟨j + 1, Nat.succ_le_succ hj, ?_⟩
        rw [boundary_succ]
        omega
      · refine Or.inr ⟨j + 1, Nat.succ_lt_succ hj, ?_, ?_⟩
        · rw [boundary_succ]
          omega
        · rw [boundary_succ]
          omega

private theorem take_boundary (values : List (Option Bytes)) (j : Nat) :
    (wire values).take (boundary values j) = wire (values.take j) := by
  conv_lhs => rw [← List.take_append_drop j values, wire_append]
  rw [boundary, List.take_append_drop]
  exact List.take_left

private theorem faulty_take {slot : Option Bytes} (h : Holds slot) {n : Nat}
    (hn : n < (wireSlot slot).length) : Faulty ((wireSlot slot).take n) := by
  by_cases hheader : n < 4
  · left
    rw [List.length_take]
    omega
  · cases slot with
    | none => exact absurd hn hheader
    | some value =>
      have hholds : value.length ≤ maxLength := h value rfl
      have hlt : value.length < 4294967296 := by
        simp only [maxLength] at hholds
        omega
      obtain ⟨b₀, b₁, b₂, b₃, hword, hnumber⟩ := ofWord_word hlt
      obtain ⟨n, rfl⟩ := Nat.exists_eq_add_of_le (Nat.le_of_not_lt hheader)
      have hcut : (wireSlot (some value)).take (4 + n) = b₀ :: b₁ :: b₂ :: b₃ :: value.take n := by
        rw [wireSlot, hword, Nat.add_comm]
        rfl
      rw [wireSlot, List.length_append, length_word] at hn
      refine Or.inr (Or.inr ?_)
      rw [hcut, declared, hnumber, signed_of_le hholds]
      simp only [List.length_cons, List.length_take]
      omega

private theorem stopsAt_cut (h : Fits values) {j n : Nat} (hj : j < values.length)
    (hlow : boundary values j < n) (hhigh : n < boundary values (j + 1)) :
    StopsAt ((wire values).take n) (boundary values j) := by
  have hfront : Fits (values.take j) := fun slot hslot => h slot (List.mem_of_mem_take hslot)
  have hslot : Holds values[j] := h _ (List.getElem_mem hj)
  have hnext : wire (values.take (j + 1)) = wire (values.take j) ++ wireSlot values[j] := by
    rw [List.take_succ_eq_append_getElem hj, wire_append, wire_cons, wire_nil, List.append_nil]
  have hpart : n - boundary values j < (wireSlot values[j]).length := by
    rw [boundary, hnext, List.length_append] at hhigh
    rw [boundary] at hlow ⊢
    omega
  have hcut : (wire values).take n =
      wire (values.take j) ++ (wireSlot values[j]).take (n - boundary values j) := by
    calc (wire values).take n = ((wire values).take (boundary values (j + 1))).take n := by
          rw [List.take_take, Nat.min_eq_left hhigh.le]
      _ = (wire (values.take j) ++ wireSlot values[j]).take n := by rw [take_boundary, hnext]
      _ = _ := by rw [List.take_append, List.take_of_length_le hlow.le]; rfl
  have hrest : (wireSlot values[j]).take (n - boundary values j) ≠ [] := by
    rw [← List.length_pos_iff, List.length_take]
    omega
  rw [hcut]
  exact .of_row hfront hrest (faulty_take hslot hpart)

/-- A buffer is refused exactly when it is a row up to some place inside it where no slot starts.
There is one such place at most, and the error names it and tells what is wrong there. A row in
front keeps its values, and puts the place of an error further on. So of a row that is cut where a
slot ends the slots before the cut are read, and any other cut is refused where the last slot before
it ends. -/
theorem decode_locates_fault :
    (∀ buffer, (∃ e, decode buffer = .error e) ↔ ∃ k, StopsAt buffer k) ∧
    (∀ buffer k k', StopsAt buffer k → StopsAt buffer k' → k = k') ∧
    (∀ buffer k, StopsAt buffer k →
      ∃ cause, decode buffer = .error (.decode cause) ∧ Tells k (buffer.drop k) cause) ∧
    (∀ front values, decode front = .ok values → ∀ back,
      (∀ more, decode back = .ok more → decode (front ++ back) = .ok (values ++ more)) ∧
      (∀ cause, decode back = .error (.decode cause) →
        decode (front ++ back) = .error (.decode (cause.later front.length)))) ∧
    (∀ buffer values, decode buffer = .ok values →
      (∀ j ≤ values.length, decode (buffer.take (boundary values j)) = .ok (values.take j)) ∧
      (∀ n < buffer.length, (∀ j ≤ values.length, n ≠ boundary values j) →
        ∃ j < values.length, boundary values j < n ∧ n < boundary values (j + 1) ∧
          ∃ cause, decode (buffer.take n) = .error (.decode cause) ∧
            cause.offset? = some (boundary values j))) := by
  refine ⟨fun _ => error_iff_stopsAt, fun _ _ _ => StopsAt.unique, ?_, ?_, ?_⟩
  · intro buffer k hk
    exact ⟨_, hk.decode, tells_fault k hk.faulty⟩
  · intro front values hfront back
    obtain ⟨hfits, rfl⟩ := decode_eq_ok hfront
    exact ⟨fun _ => decode_wire_append_ok hfits, fun _ => decode_wire_append_error hfits⟩
  · intro buffer values hread
    obtain ⟨hfits, rfl⟩ := decode_eq_ok hread
    constructor
    · intro j _
      rw [take_boundary]
      exact decode_wire fun slot hslot => hfits slot (List.mem_of_mem_take hslot)
    · intro n hn hbetween
      rcases boundary_cases values hn with ⟨j, hj, heq⟩ | ⟨j, hj, hlow, hhigh⟩
      · exact absurd heq (hbetween j hj)
      · exact ⟨j, hj, hlow, hhigh, _, (stopsAt_cut hfits hj hlow hhigh).decode,
          offset?_fault _ _⟩

theorem decode_locates_fault_overrun :
    StopsAt [0xFF, 0xFF, 0xFF, 0xFF, 2, 0, 0, 0, 7] 4 ∧
      ∃ cause, decode [0xFF, 0xFF, 0xFF, 0xFF, 2, 0, 0, 0, 7] = .error (.decode cause) ∧
        cause.offset? = some 4 ∧
        cause.message = s!"slot at offset {4} declares {2} bytes, {1} remaining" := by
  have hdeclared : declared [2, 0, 0, 0, 7] = 2 := by decide
  have hfaulty : Faulty [2, 0, 0, 0, 7] := by
    refine Or.inr (Or.inr ?_)
    rw [hdeclared]
    decide
  have hstops : StopsAt [0xFF, 0xFF, 0xFF, 0xFF, 2, 0, 0, 0, 7] 4 :=
    .of_row (show Fits [none] by simp [Fits, Holds]) (by decide) hfaulty
  obtain ⟨cause, hread, htells⟩ := decode_locates_fault.2.2.1 _ _ hstops
  have htells : Tells 4 [2, 0, 0, 0, 7] cause := htells
  have htext := htells.overrun
  rw [hdeclared] at htext
  exact ⟨hstops, cause, hread, htells.place, htext.mpr (by decide)⟩

end Slot

end EngineClient
