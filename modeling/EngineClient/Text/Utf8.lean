/-!
# UTF-8

Bytes are lists of octets and text is a list of characters. `encode` writes text, `pieces` cuts any
byte string into well-formed characters and maximal ill-formed parts, and the two readers build on
the pieces: `decode` stops at the first ill-formed part and says where it is, `lossy` puts U+FFFD in
the place of each.
-/

namespace EngineClient

/-- A string of octets. -/
abbrev Bytes := List UInt8

namespace Utf8

def encode (text : List Char) : Bytes :=
  text.flatMap String.utf8EncodeChar

/-- What stands at the start of a byte string. -/
inductive Head where
  | done
  | char (c : Char) (rest : Bytes)
  /-- The longest start of a well-formed character, of `size` bytes but at least one, that the next
  byte does not continue. -/
  | illFormed (size : Nat) (rest : Bytes)
  /-- The input ends inside a character that is well-formed so far. -/
  | cutOff
deriving Repr, DecidableEq

/-- What a lead byte announces: how many bytes follow the second one, its own share of the code
point, and the range of the second byte. The ranges leave out overlong forms, surrogates and values
past U+10FFFF. -/
structure Lead where
  more : Nat
  bits : Nat
  low : UInt8
  high : UInt8

/-- The lead bytes of characters of two, three and four bytes. -/
def lead? (b : UInt8) : Option Lead :=
  if 0xC2 ≤ b && b ≤ 0xDF then some ⟨0, b.toNat % 32, 0x80, 0xBF⟩
  else if b = 0xE0 then some ⟨1, 0, 0xA0, 0xBF⟩
  else if b = 0xED then some ⟨1, 13, 0x80, 0x9F⟩
  else if 0xE1 ≤ b && b ≤ 0xEF then some ⟨1, b.toNat % 16, 0x80, 0xBF⟩
  else if b = 0xF0 then some ⟨2, 0, 0x90, 0xBF⟩
  else if 0xF1 ≤ b && b ≤ 0xF3 then some ⟨2, b.toNat % 8, 0x80, 0xBF⟩
  else if b = 0xF4 then some ⟨2, 4, 0x80, 0x8F⟩
  else none

/-- Reads the last `more` bytes of a character whose `size` bytes so far hold `bits`. -/
def finish : (more bits size : Nat) → Bytes → Head
  | 0, bits, _, r => .char (Char.ofNat bits) r
  | _ + 1, _, _, [] => .cutOff
  | more + 1, bits, size, t :: r =>
    if 0x80 ≤ t && t ≤ 0xBF then finish more (bits * 64 + t.toNat % 64) (size + 1) r
    else .illFormed size (t :: r)

/-- The first piece of a byte string. -/
def head : Bytes → Head
  | [] => .done
  | b :: r =>
    if b < 0x80 then .char (Char.ofNat b.toNat) r
    else match lead? b, r with
      | none, _ => .illFormed 1 r
      | some _, [] => .cutOff
      | some l, s :: r₁ =>
        if l.low ≤ s && s ≤ l.high then finish l.more (l.bits * 64 + s.toNat % 64) 2 r₁
        else .illFormed 1 r

/-- The rest that a piece leaves, where it leaves one. -/
def Head.rest? : Head → Option Bytes
  | .char _ r => some r
  | .illFormed _ r => some r
  | _ => none

theorem length_le_of_finish {more bits size : Nat} {b r : Bytes}
    (h : (finish more bits size b).rest? = some r) : r.length ≤ b.length := by
  fun_induction finish more bits size b with
  | case1 => simp_all [Head.rest?]
  | case2 => simp [Head.rest?] at h
  | case3 more bits size t r' _ ih => exact Nat.le_succ_of_le (ih h)
  | case4 => simp_all [Head.rest?]

theorem length_lt_of_head {b r : Bytes} (h : (head b).rest? = some r) : r.length < b.length := by
  unfold head at h
  split at h
  · simp [Head.rest?] at h
  · split at h
    · simp_all [Head.rest?]
    · split at h
      · simp_all [Head.rest?]
      · simp [Head.rest?] at h
      · split at h
        · have := length_le_of_finish h
          simp only [List.length_cons]; omega
        · simp_all [Head.rest?]

theorem length_lt_of_head_char {b : Bytes} {c : Char} {r : Bytes} (h : head b = .char c r) :
    r.length < b.length := length_lt_of_head (by rw [h]; rfl)

theorem length_lt_of_head_illFormed {b : Bytes} {n : Nat} {r : Bytes}
    (h : head b = .illFormed n r) : r.length < b.length := length_lt_of_head (by rw [h]; rfl)

/-- A character, or a part that belongs to none. -/
inductive Piece where
  | char (c : Char)
  | illFormed (size : Nat)
  | cutOff
deriving Repr, DecidableEq

/-- Puts the pieces of a byte string, last first, in front of those found before. -/
def piecesOnto (found : List Piece) (b : Bytes) : List Piece :=
  match h : head b with
  | .done => found
  | .char c r =>
    have := length_lt_of_head_char h
    piecesOnto (.char c :: found) r
  | .illFormed n r =>
    have := length_lt_of_head_illFormed h
    piecesOnto (.illFormed n :: found) r
  | .cutOff => .cutOff :: found
termination_by b.length

def pieces (b : Bytes) : List Piece := (piecesOnto [] b).reverse

/-- The first ill-formed part: the length of the well-formed bytes before it, and its own length
unless the input ends inside it. -/
structure Defect where
  index : Nat
  size : Option Nat
deriving Repr, DecidableEq

def Defect.message (d : Defect) : String :=
  match d.size with
  | some n => s!"invalid utf-8 sequence of {n} bytes from index {d.index}"
  | none => s!"incomplete utf-8 byte sequence from index {d.index}"

/-- Collects characters, last first, up to the first defect. -/
def collect (found : List Char) (index : Nat) : List Piece → Except Defect (List Char)
  | [] => .ok found.reverse
  | .char c :: rest => collect (c :: found) (index + c.utf8Size) rest
  | .illFormed n :: _ => .error ⟨index, some n⟩
  | .cutOff :: _ => .error ⟨index, none⟩

/-- The text of a byte string, or its first defect. -/
def decode (b : Bytes) : Except Defect (List Char) := collect [] 0 (pieces b)

/-- The character that stands for a piece in a text that must not fail. -/
def Piece.shown : Piece → Char
  | .char c => c
  | _ => '\uFFFD'

def lossy (b : Bytes) : List Char := (pieces b).map Piece.shown

end Utf8

def bytesOf (s : String) : Bytes := Utf8.encode s.toList

def stringOf? (b : Bytes) : Option String :=
  match Utf8.decode b with
  | .ok text => some (String.ofList text)
  | .error _ => none

/-- A string for display: ill-formed parts appear as U+FFFD. -/
def lossyString (b : Bytes) : String := String.ofList (Utf8.lossy b)

end EngineClient
