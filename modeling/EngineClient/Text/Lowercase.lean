import EngineClient.Text.Ranges
import EngineClient.Text.CasedTable
import EngineClient.Text.CaseIgnorableTable
import EngineClient.Text.LowercaseTable

/-!
# Lower case

Full lower-casing of a text. Each character goes to its lower-case partner, with two exceptions: a
capital I with a dot becomes two characters, and a capital sigma that ends a word becomes a final
sigma.
-/

namespace EngineClient.Text

/-- A letter with case, or a modifier of one. -/
def isCased (c : Char) : Bool :=
  if c.toNat < 0x80 then c.isAlpha else casedTable.contains c

/-- A character that does not end the word it stands in. -/
def isCaseIgnorable (c : Char) : Bool :=
  if c.toNat < 0x80 then c ∈ [Char.ofNat 39, '.', ':', '^', Char.ofNat 96]
  else caseIgnorableTable.contains c

/-- Whether a run holds a code point. -/
def CaseRun.holds (run : CaseRun) (n : Nat) : Bool :=
  run.first ≤ n && n ≤ run.last && (n - run.first) % run.stride == 0

def lowerChar (c : Char) : List Char :=
  if c.toNat < 0x80 then [c.toLower]
  else if c = '\u0130' then ['i', '\u0307']
  else match lowercaseTable.find? (·.holds c.toNat) with
    | some run => [Char.ofNat (c.toNat + run.shift).toNat]
    | none => [c]

/-- Whether the first character that is not case-ignorable is cased. -/
def meetsCased (text : List Char) : Bool :=
  match text.dropWhile isCaseIgnorable with
  | c :: _ => isCased c
  | [] => false

/-- Lower-cases `text`, which follows the characters of `before`, nearest first. -/
def lowerAfter (before : List Char) : List Char → List Char
  | [] => []
  | c :: rest =>
    let here :=
      if c = 'Σ' then
        if meetsCased before && !meetsCased rest then ['ς'] else ['σ']
      else lowerChar c
    here ++ lowerAfter (c :: before) rest

def lowercase (s : String) : String := String.ofList (lowerAfter [] s.toList)

end EngineClient.Text
