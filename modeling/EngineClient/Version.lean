import EngineClient.Error
import EngineClient.Text.Word

/-!
# Versions

A version is `major.minor.patch`, optionally followed by `-prerelease` and `+build`. Only the three
numbers decide precedence; the tags are carried along. A binary is named `version-base`, and its
version is read from the part before the first dash.
-/

namespace EngineClient

/-- The version of an engine binary. -/
structure Version where
  major : UInt64
  minor : UInt64
  patch : UInt64
  prerelease : Option String := none
  build : Option String := none
deriving Repr, DecidableEq

namespace Version

/-- A character of a prerelease or build tag. -/
def isTagChar (c : Char) : Bool := Text.isWordChar c || c == '.'

/-- Reads a number below 2⁶⁴ from the start of a text. -/
def readNumber (text : List Char) : Option (UInt64 × List Char) :=
  let digits := text.takeWhile Char.isDigit
  let value := Nat.ofDigitChars 10 digits 0
  if digits.isEmpty || UInt64.size ≤ value then none
  else some (UInt64.ofNat value, text.dropWhile Char.isDigit)

def readChar (c : Char) : List Char → Option (List Char)
  | d :: rest => if d = c then some rest else none
  | [] => none

/-- Reads a tag if its mark stands at the start of the text. -/
def readTag (mark : Char) (text : List Char) : Option (Option String × List Char) :=
  match readChar mark text with
  | none => some (none, text)
  | some rest =>
    let tag := rest.takeWhile isTagChar
    if tag.isEmpty then none else some (some (String.ofList tag), rest.dropWhile isTagChar)

/-- The version that a whole text spells. -/
def read? (text : List Char) : Option Version := do
  let (major, text) ← readNumber text
  let text ← readChar '.' text
  let (minor, text) ← readNumber text
  let text ← readChar '.' text
  let (patch, text) ← readNumber text
  let (prerelease, text) ← readTag '-' text
  let (build, text) ← readTag '+' text
  if text.isEmpty then some { major, minor, patch, prerelease, build } else none

def parse (s : String) : Except Error Version :=
  match read? s.toList with
  | some v => .ok v
  | none => .error (.versionParse s)

/-- The version in a binary's file name: what its leading segment, up to the first dash, spells. -/
def ofFileName? (name : String) : Option Version :=
  read? (name.toList.takeWhile (· != '-'))

/-- A tag behind its mark. -/
def tagText (mark : String) : Option String → String
  | some tag => mark ++ tag
  | none => ""

def toString (v : Version) : String :=
  v.major.toNat.repr ++ "." ++ v.minor.toNat.repr ++ "." ++ v.patch.toNat.repr
    ++ tagText "-" v.prerelease ++ tagText "+" v.build

/-- Precedence: the first of the three numbers that differs decides. -/
def lt (a b : Version) : Prop :=
  a.major < b.major ∨ a.major = b.major ∧
    (a.minor < b.minor ∨ a.minor = b.minor ∧ a.patch < b.patch)

instance : LT Version := ⟨lt⟩

instance (a b : Version) : Decidable (a < b) := by
  unfold LT.lt instLT lt
  infer_instance

def compare (a b : Version) : Ordering :=
  if a < b then .lt else if b < a then .gt else .eq

instance : Ord Version := ⟨compare⟩

def sameRank (a b : Version) : Bool := compare a b == .eq

/-- The versions in order of precedence; equal ones keep their order. -/
def sorted (versions : List Version) : List Version :=
  versions.mergeSort fun a b => !decide (b < a)

end Version

end EngineClient
