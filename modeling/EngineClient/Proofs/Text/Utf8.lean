import Mathlib
import EngineClient.Text.Utf8

/-!
# Text and its bytes

`Spells` tells the well-formed bytes of a code point. These are what a character is written as, and
what is read as a character. So reading undoes writing, and the bytes that can be read are those
that writing the text gives.
-/

namespace EngineClient

namespace Utf8

variable {b s : UInt8} {bytes rest : Bytes} {c : Char} {text : List Char} {v : Nat}

/-- Whether a byte goes on with a character. -/
def IsTail (b : UInt8) : Prop := 0x80 ≤ b.toNat ∧ b.toNat ≤ 0xBF

instance (b : UInt8) : Decidable (IsTail b) := inferInstanceAs (Decidable (_ ∧ _))

/-- The well-formed bytes of a code point. -/
inductive Spells : Nat → Bytes → Prop
  | one {b : UInt8} (hb : b.toNat < 0x80) : Spells b.toNat [b]
  | two {b s : UInt8} (hb : 0xC2 ≤ b.toNat ∧ b.toNat ≤ 0xDF) (hs : IsTail s) :
      Spells (b.toNat % 32 * 64 + s.toNat % 64) [b, s]
  | three {b s t : UInt8} (hb : 0xE0 ≤ b.toNat ∧ b.toNat ≤ 0xEF) (hs : IsTail s)
      (hlow : b.toNat = 0xE0 → 0xA0 ≤ s.toNat) (hhigh : b.toNat = 0xED → s.toNat ≤ 0x9F)
      (ht : IsTail t) :
      Spells ((b.toNat % 16 * 64 + s.toNat % 64) * 64 + t.toNat % 64) [b, s, t]
  | four {b s t u : UInt8} (hb : 0xF0 ≤ b.toNat ∧ b.toNat ≤ 0xF4) (hs : IsTail s)
      (hlow : b.toNat = 0xF0 → 0x90 ≤ s.toNat) (hhigh : b.toNat = 0xF4 → s.toNat ≤ 0x8F)
      (ht : IsTail t) (hu : IsTail u) :
      Spells (((b.toNat % 8 * 64 + s.toNat % 64) * 64 + t.toNat % 64) * 64 + u.toNat % 64)
        [b, s, t, u]

/-! ## Writing -/

private theorem toNat_ofNat_of_lt {n : Nat} (h : n < 256) : (UInt8.ofNat n).toNat = n := by
  rw [UInt8.toNat_ofNat']
  exact Nat.mod_eq_of_lt h

private theorem toNat_tail (n : Nat) : (UInt8.ofNat (n % 64 + 128)).toNat = n % 64 + 128 :=
  toNat_ofNat_of_lt (by omega)

private theorem isTail_tail (n : Nat) : IsTail (UInt8.ofNat (n % 64 + 128)) := by
  rw [IsTail, toNat_tail]
  omega

/-- The bytes that a code point is written as. -/
def written (v : Nat) : Bytes :=
  if v ≤ 0x7F then [UInt8.ofNat v]
  else if v ≤ 0x7FF then [UInt8.ofNat (v / 64 % 32 + 192), UInt8.ofNat (v % 64 + 128)]
  else if v ≤ 0xFFFF then
    [UInt8.ofNat (v / 4096 % 16 + 224), UInt8.ofNat (v / 64 % 64 + 128),
      UInt8.ofNat (v % 64 + 128)]
  else
    [UInt8.ofNat (v / 262144 % 8 + 240), UInt8.ofNat (v / 4096 % 64 + 128),
      UInt8.ofNat (v / 64 % 64 + 128), UInt8.ofNat (v % 64 + 128)]

private theorem encodeChar_eq_written (c : Char) : String.utf8EncodeChar c = written c.toNat := rfl

theorem spells_written (hv : v.isValidChar) : Spells v (written v) := by
  unfold written
  split
  · have hb : (UInt8.ofNat v).toNat = v := toNat_ofNat_of_lt (by omega)
    have hspells := Spells.one (b := UInt8.ofNat v) (by omega)
    rwa [hb] at hspells
  split
  · have hb : (UInt8.ofNat (v / 64 % 32 + 192)).toNat = v / 64 % 32 + 192 :=
      toNat_ofNat_of_lt (by omega)
    have hspells := Spells.two (b := UInt8.ofNat (v / 64 % 32 + 192)) (by omega) (isTail_tail v)
    rw [hb, toNat_tail] at hspells
    convert hspells using 1
    omega
  split
  · have hb : (UInt8.ofNat (v / 4096 % 16 + 224)).toNat = v / 4096 % 16 + 224 :=
      toNat_ofNat_of_lt (by omega)
    have hs := toNat_tail (v / 64)
    have hspells := Spells.three (b := UInt8.ofNat (v / 4096 % 16 + 224)) (by omega)
      (isTail_tail (v / 64)) (by omega) (by omega) (isTail_tail v)
    rw [hb, hs, toNat_tail] at hspells
    convert hspells using 1
    omega
  · have hb : (UInt8.ofNat (v / 262144 % 8 + 240)).toNat = v / 262144 % 8 + 240 :=
      toNat_ofNat_of_lt (by omega)
    have hs := toNat_tail (v / 4096)
    have hspells := Spells.four (b := UInt8.ofNat (v / 262144 % 8 + 240)) (by omega)
      (isTail_tail (v / 4096)) (by omega) (by omega) (isTail_tail (v / 64)) (isTail_tail v)
    rw [hb, hs, toNat_tail, toNat_tail] at hspells
    convert hspells using 1
    omega

private theorem ofNat_eq {n : Nat} (h : n = s.toNat) : UInt8.ofNat n = s := by
  rw [h, UInt8.ofNat_toNat]

private theorem Spells.isValidChar (h : Spells v bytes) : v.isValidChar := by
  unfold Nat.isValidChar
  cases h with
  | one => omega
  | two => omega
  | three hb hs hlow hhigh ht =>
    obtain ⟨hs, hs'⟩ := hs
    omega
  | four hb hs hlow hhigh ht hu =>
    obtain ⟨hs, hs'⟩ := hs
    omega

private theorem Spells.eq_written (h : Spells v bytes) : bytes = written v := by
  unfold written
  cases h with
  | @one b hb => rw [if_pos (by omega), UInt8.ofNat_toNat]
  | @two b s hb hs =>
    obtain ⟨hs, hs'⟩ := hs
    rw [if_neg (by omega), if_pos (by omega), ofNat_eq (s := b) (by omega),
      ofNat_eq (s := s) (by omega)]
  | @three b s t hb hs hlow hhigh ht =>
    obtain ⟨hs, hs'⟩ := hs
    obtain ⟨ht, ht'⟩ := ht
    rw [if_neg (by omega), if_neg (by omega), if_pos (by omega), ofNat_eq (s := b) (by omega),
      ofNat_eq (s := s) (by omega), ofNat_eq (s := t) (by omega)]
  | @four b s t u hb hs hlow hhigh ht hu =>
    obtain ⟨hs, hs'⟩ := hs
    obtain ⟨ht, ht'⟩ := ht
    obtain ⟨hu, hu'⟩ := hu
    rw [if_neg (by omega), if_neg (by omega), if_neg (by omega), ofNat_eq (s := b) (by omega),
      ofNat_eq (s := s) (by omega), ofNat_eq (s := t) (by omega), ofNat_eq (s := u) (by omega)]

/-! ## Reading -/

private theorem lead?_eq (b : UInt8) : lead? b =
    if 0xC2 ≤ b.toNat ∧ b.toNat ≤ 0xDF then some ⟨0, b.toNat % 32, 0x80, 0xBF⟩
    else if b.toNat = 0xE0 then some ⟨1, 0, 0xA0, 0xBF⟩
    else if b.toNat = 0xED then some ⟨1, 13, 0x80, 0x9F⟩
    else if 0xE1 ≤ b.toNat ∧ b.toNat ≤ 0xEF then some ⟨1, b.toNat % 16, 0x80, 0xBF⟩
    else if b.toNat = 0xF0 then some ⟨2, 0, 0x90, 0xBF⟩
    else if 0xF1 ≤ b.toNat ∧ b.toNat ≤ 0xF3 then some ⟨2, b.toNat % 8, 0x80, 0xBF⟩
    else if b.toNat = 0xF4 then some ⟨2, 4, 0x80, 0x8F⟩
    else none := by
  simp only [lead?, UInt8.le_iff_toNat_le, ← UInt8.toNat_inj, Bool.and_eq_true,
    decide_eq_true_eq, UInt8.reduceToNat]

/-- Whether a byte may come second after a lead byte. -/
def Lead.Allows (l : Lead) (s : UInt8) : Prop := l.low.toNat ≤ s.toNat ∧ s.toNat ≤ l.high.toNat

instance (l : Lead) (s : UInt8) : Decidable (l.Allows s) := inferInstanceAs (Decidable (_ ∧ _))

private theorem lead_two (hb : 0xC2 ≤ b.toNat ∧ b.toNat ≤ 0xDF) :
    ∃ l, lead? b = some l ∧ l.more = 0 ∧ l.bits = b.toNat % 32 ∧ ∀ s, l.Allows s ↔ IsTail s := by
  rw [lead?_eq, if_pos hb]
  exact ⟨_, rfl, rfl, rfl, fun s => Iff.rfl⟩

private theorem lead_three (hb : 0xE0 ≤ b.toNat ∧ b.toNat ≤ 0xEF) :
    ∃ l, lead? b = some l ∧ l.more = 1 ∧ l.bits = b.toNat % 16 ∧
      ∀ s, l.Allows s ↔ IsTail s ∧ (b.toNat = 0xE0 → 0xA0 ≤ s.toNat) ∧
        (b.toNat = 0xED → s.toNat ≤ 0x9F) := by
  rw [lead?_eq, if_neg (by omega)]
  simp only [Lead.Allows, IsTail]
  split
  · next hlead => exact ⟨_, rfl, rfl, by rw [hlead], fun s => by rw [hlead]; simp; omega⟩
  split
  · next hlead => exact ⟨_, rfl, rfl, by rw [hlead], fun s => by rw [hlead]; simp; omega⟩
  rw [if_pos (by omega)]
  exact ⟨_, rfl, rfl, rfl, fun s => by simp; omega⟩

private theorem lead_four (hb : 0xF0 ≤ b.toNat ∧ b.toNat ≤ 0xF4) :
    ∃ l, lead? b = some l ∧ l.more = 2 ∧ l.bits = b.toNat % 8 ∧
      ∀ s, l.Allows s ↔ IsTail s ∧ (b.toNat = 0xF0 → 0x90 ≤ s.toNat) ∧
        (b.toNat = 0xF4 → s.toNat ≤ 0x8F) := by
  rw [lead?_eq, if_neg (by omega), if_neg (by omega), if_neg (by omega), if_neg (by omega)]
  simp only [Lead.Allows, IsTail]
  split
  · next hlead => exact ⟨_, rfl, rfl, by rw [hlead], fun s => by rw [hlead]; simp; omega⟩
  split
  · exact ⟨_, rfl, rfl, rfl, fun s => by simp; omega⟩
  rw [if_pos (by omega)]
  have hlead : b.toNat = 0xF4 := by omega
  exact ⟨_, rfl, rfl, by rw [hlead], fun s => by rw [hlead]; simp; omega⟩

private theorem lead_none (hb : b.toNat < 0xC2 ∨ 0xF4 < b.toNat) : lead? b = none := by
  rw [lead?_eq, if_neg (by omega), if_neg (by omega), if_neg (by omega), if_neg (by omega),
    if_neg (by omega), if_neg (by omega), if_neg (by omega)]

private theorem finish_cons (more bits size : Nat) (s : UInt8) (rest : Bytes) :
    finish (more + 1) bits size (s :: rest) =
      if IsTail s then finish more (bits * 64 + s.toNat % 64) (size + 1) rest
      else .illFormed size (s :: rest) := by
  simp only [finish, UInt8.le_iff_toNat_le, Bool.and_eq_true, decide_eq_true_eq, UInt8.reduceToNat]
  rfl

private theorem head_lead {l : Lead} (hb : ¬b.toNat < 0x80) (hlead : lead? b = some l)
    (s : UInt8) (rest : Bytes) : head (b :: s :: rest) =
      if l.Allows s then finish l.more (l.bits * 64 + s.toNat % 64) 2 rest
      else .illFormed 1 (s :: rest) := by
  have hb' : ¬b < 0x80 := by simpa [UInt8.lt_iff_toNat_lt] using hb
  simp only [head, if_neg hb', hlead, UInt8.le_iff_toNat_le, Bool.and_eq_true, decide_eq_true_eq]
  rfl

private theorem Spells.head (h : Spells v bytes) (rest : Bytes) :
    head (bytes ++ rest) = .char (Char.ofNat v) rest := by
  cases h with
  | @one b hb =>
    have hb' : b < 0x80 := by simpa [UInt8.lt_iff_toNat_lt] using hb
    exact if_pos hb'
  | @two b s hb hs =>
    obtain ⟨l, hlead, hmore, hbits, hallows⟩ := lead_two hb
    have hread := head_lead (by omega) hlead s rest
    rwa [if_pos ((hallows s).mpr hs), hmore, hbits] at hread
  | @three b s t hb hs hlow hhigh ht =>
    obtain ⟨l, hlead, hmore, hbits, hallows⟩ := lead_three hb
    have hread := head_lead (by omega) hlead s (t :: rest)
    rwa [if_pos ((hallows s).mpr ⟨hs, hlow, hhigh⟩), hmore, hbits, finish_cons, if_pos ht] at hread
  | @four b s t u hb hs hlow hhigh ht hu =>
    obtain ⟨l, hlead, hmore, hbits, hallows⟩ := lead_four hb
    have hread := head_lead (by omega) hlead s (t :: u :: rest)
    rwa [if_pos ((hallows s).mpr ⟨hs, hlow, hhigh⟩), hmore, hbits, finish_cons, if_pos ht,
      finish_cons, if_pos hu] at hread

private theorem finish_succ_eq_char {more bits size : Nat}
    (h : finish (more + 1) bits size bytes = .char c rest) :
    ∃ s bytes', bytes = s :: bytes' ∧ IsTail s ∧
      finish more (bits * 64 + s.toNat % 64) (size + 1) bytes' = .char c rest := by
  cases bytes with
  | nil => cases h
  | cons s bytes' =>
    rw [finish_cons] at h
    split at h
    · next hs => exact ⟨s, bytes', rfl, hs, h⟩
    · cases h

private theorem head_lead_eq_char {l : Lead} (hb : ¬b.toNat < 0x80) (hlead : lead? b = some l)
    (h : Utf8.head (b :: bytes) = .char c rest) :
    ∃ s bytes', bytes = s :: bytes' ∧ l.Allows s ∧
      finish l.more (l.bits * 64 + s.toNat % 64) 2 bytes' = .char c rest := by
  cases bytes with
  | nil =>
    have hb' : ¬b < 0x80 := by simpa [UInt8.lt_iff_toNat_lt] using hb
    simp only [head, if_neg hb', hlead] at h
    cases h
  | cons s bytes' =>
    rw [head_lead hb hlead] at h
    split at h
    · next hs => exact ⟨s, bytes', rfl, hs, h⟩
    · cases h

private theorem spells_of_head (h : Utf8.head bytes = .char c rest) :
    ∃ v first, Spells v first ∧ bytes = first ++ rest ∧ c = Char.ofNat v := by
  cases bytes with
  | nil => cases h
  | cons b bytes =>
    by_cases hone : b.toNat < 0x80
    · have hb : b < 0x80 := by simpa [UInt8.lt_iff_toNat_lt] using hone
      simp only [head, if_pos hb] at h
      cases h
      exact ⟨_, _, .one hone, rfl, rfl⟩
    by_cases htwo : 0xC2 ≤ b.toNat ∧ b.toNat ≤ 0xDF
    · obtain ⟨l, hlead, hmore, hbits, hallows⟩ := lead_two htwo
      obtain ⟨s, r, rfl, hs, hrest⟩ := head_lead_eq_char hone hlead h
      rw [hmore, hbits] at hrest
      cases hrest
      exact ⟨_, _, .two htwo ((hallows s).mp hs), rfl, rfl⟩
    by_cases hthree : 0xE0 ≤ b.toNat ∧ b.toNat ≤ 0xEF
    · obtain ⟨l, hlead, hmore, hbits, hallows⟩ := lead_three hthree
      obtain ⟨s, r, rfl, hs, hrest⟩ := head_lead_eq_char hone hlead h
      rw [hmore, hbits] at hrest
      obtain ⟨t, r, rfl, ht, hrest⟩ := finish_succ_eq_char hrest
      cases hrest
      obtain ⟨hs, hlow, hhigh⟩ := (hallows s).mp hs
      exact ⟨_, _, .three hthree hs hlow hhigh ht, rfl, rfl⟩
    by_cases hfour : 0xF0 ≤ b.toNat ∧ b.toNat ≤ 0xF4
    · obtain ⟨l, hlead, hmore, hbits, hallows⟩ := lead_four hfour
      obtain ⟨s, r, rfl, hs, hrest⟩ := head_lead_eq_char hone hlead h
      rw [hmore, hbits] at hrest
      obtain ⟨t, r, rfl, ht, hrest⟩ := finish_succ_eq_char hrest
      obtain ⟨u, r, rfl, hu, hrest⟩ := finish_succ_eq_char hrest
      cases hrest
      obtain ⟨hs, hlow, hhigh⟩ := (hallows s).mp hs
      exact ⟨_, _, .four hfour hs hlow hhigh ht hu, rfl, rfl⟩
    · have hb : ¬b < 0x80 := by simpa [UInt8.lt_iff_toNat_lt] using hone
      simp only [head, if_neg hb, lead_none (b := b) (by omega)] at h
      cases h

/-- A character is read exactly where it is written. -/
theorem head_eq_char_iff : head bytes = .char c rest ↔ bytes = String.utf8EncodeChar c ++ rest := by
  constructor
  · intro h
    obtain ⟨v, first, hspells, rfl, rfl⟩ := spells_of_head h
    rw [encodeChar_eq_written, Char.toNat_ofNat, if_pos hspells.isValidChar,
      hspells.eq_written]
  · rintro rfl
    have hspells := spells_written (v := c.toNat) c.valid
    rw [encodeChar_eq_written, hspells.head, Char.ofNat_toNat]

/-! ## Texts -/

private theorem finish_ne_done (more bits size : Nat) (bytes : Bytes) :
    finish more bits size bytes ≠ .done := by
  fun_induction finish more bits size bytes <;> simp_all

private theorem eq_nil_of_head (h : head bytes = .done) : bytes = [] := by
  cases bytes with
  | nil => rfl
  | cons b bytes =>
    simp only [head] at h
    split at h
    · cases h
    split at h
    · cases h
    · cases h
    split at h
    · exact absurd h (finish_ne_done _ _ _ _)
    · cases h

private theorem piecesOnto_eq (found : List Piece) (bytes : Bytes) :
    piecesOnto found bytes = (pieces bytes).reverse ++ found := by
  rw [pieces, List.reverse_reverse]
  induction h : bytes.length using Nat.strong_induction_on generalizing found bytes with
  | _ size ih =>
    rw [piecesOnto, piecesOnto]
    split
    · rfl
    · next c rest hhead =>
      have hlt := h ▸ length_lt_of_head_char hhead
      rw [ih _ hlt _ _ rfl, ih _ hlt [_] _ rfl, List.append_assoc]
      rfl
    · next size rest hhead =>
      have hlt := h ▸ length_lt_of_head_illFormed hhead
      rw [ih _ hlt _ _ rfl, ih _ hlt [_] _ rfl, List.append_assoc]
      rfl
    · rfl

private theorem pieces_eq (bytes : Bytes) : pieces bytes =
    match head bytes with
    | .done => []
    | .char c rest => .char c :: pieces rest
    | .illFormed size rest => .illFormed size :: pieces rest
    | .cutOff => [.cutOff] := by
  rw [pieces, piecesOnto]
  split
  · next hhead => rw [hhead]; rfl
  · next c rest hhead => simp only [hhead, piecesOnto_eq [_] rest]; simp
  · next size rest hhead => simp only [hhead, piecesOnto_eq [_] rest]; simp
  · next hhead => rw [hhead]; rfl

private theorem pieces_encode (text : List Char) : pieces (encode text) = text.map .char := by
  induction text with
  | nil => rw [encode, List.flatMap_nil, pieces_eq]; rfl
  | cons c text ih =>
    have hhead : head (encode (c :: text)) = .char c (encode text) := head_eq_char_iff.mpr rfl
    rw [pieces_eq, hhead]
    exact congrArg _ ih

private theorem eq_encode_of_pieces (h : pieces bytes = text.map .char) : bytes = encode text := by
  induction text generalizing bytes with
  | nil =>
    rw [pieces_eq] at h
    cases hhead : head bytes with
    | done => rw [eq_nil_of_head hhead]; rfl
    | char c rest => simp [hhead] at h
    | illFormed size rest => simp [hhead] at h
    | cutOff => simp [hhead] at h
  | cons c text ih =>
    rw [pieces_eq] at h
    cases hhead : head bytes with
    | done => simp [hhead] at h
    | char c' rest =>
      simp only [hhead, List.map_cons, List.cons.injEq, Piece.char.injEq] at h
      obtain ⟨rfl, hrest⟩ := h
      rw [head_eq_char_iff.mp hhead, ih hrest]
      rfl
    | illFormed size rest => simp [hhead] at h
    | cutOff => simp [hhead] at h

private theorem collect_eq_ok (ps : List Piece) (found : List Char) (index : Nat) :
    collect found index ps = .ok text ↔
      ∃ more, ps = more.map .char ∧ text = found.reverse ++ more := by
  induction ps generalizing found index with
  | nil => simp [collect, eq_comm]
  | cons p ps ih =>
    cases p with
    | char c =>
      rw [collect, ih]
      constructor
      · rintro ⟨more, rfl, rfl⟩
        exact ⟨c :: more, rfl, by simp⟩
      · rintro ⟨more, hmore, rfl⟩
        cases more with
        | nil => cases hmore
        | cons d more =>
          simp only [List.map_cons, List.cons.injEq, Piece.char.injEq] at hmore
          obtain ⟨rfl, rfl⟩ := hmore
          exact ⟨more, rfl, by simp⟩
    | illFormed size =>
      simp only [collect, reduceCtorEq, false_iff, not_exists, not_and]
      rintro (_ | ⟨d, more⟩) hmore <;> cases hmore
    | cutOff =>
      simp only [collect, reduceCtorEq, false_iff, not_exists, not_and]
      rintro (_ | ⟨d, more⟩) hmore <;> cases hmore

/-- The bytes that can be read as a text are those that it is written as. -/
theorem decode_eq_ok_iff : decode bytes = .ok text ↔ bytes = encode text := by
  rw [decode, collect_eq_ok]
  simp only [List.reverse_nil, List.nil_append]
  constructor
  · rintro ⟨more, hpieces, rfl⟩
    exact eq_encode_of_pieces hpieces
  · rintro rfl
    exact ⟨text, pieces_encode text, rfl⟩

theorem lossy_encode (text : List Char) : lossy (encode text) = text := by
  rw [lossy, pieces_encode, List.map_map]
  exact List.map_id text

theorem encode_append (text more : List Char) :
    encode (text ++ more) = encode text ++ encode more :=
  List.flatMap_append

theorem encode_ascii (h : ∀ c ∈ text, c.toNat < 128) :
    encode text = text.map fun c => c.toNat.toUInt8 := by
  induction text with
  | nil => rfl
  | cons c rest ih =>
    have hc : String.utf8EncodeChar c = [c.toNat.toUInt8] :=
      if_pos (Nat.le_of_lt_succ (h c List.mem_cons_self))
    rw [encode, List.flatMap_cons, hc, List.map_cons]
    exact congrArg (List.cons _) (ih fun d hd => h d (List.mem_cons_of_mem _ hd))

end Utf8

open Utf8

theorem stringOf?_eq_some_iff {bytes : Bytes} {s : String} :
    stringOf? bytes = some s ↔ bytes = bytesOf s := by
  rw [stringOf?, bytesOf, ← decode_eq_ok_iff]
  cases decode bytes with
  | error e => simp
  | ok text =>
    simp only [Option.some.injEq, Except.ok.injEq]
    constructor
    · rintro rfl
      simp
    · rintro rfl
      simp

theorem bytesOf_append (s s' : String) : bytesOf (s ++ s') = bytesOf s ++ bytesOf s' := by
  rw [bytesOf, String.toList_append, encode_append]
  rfl

theorem lossyString_bytesOf (s : String) : lossyString (bytesOf s) = s := by
  rw [lossyString, bytesOf, lossy_encode, String.ofList_toList]

theorem bytesOf_injective {s s' : String} (h : bytesOf s = bytesOf s') : s = s' := by
  rw [← lossyString_bytesOf s, h, lossyString_bytesOf]

end EngineClient
