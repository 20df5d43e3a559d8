import EngineClient.Text.Blank

/-!
# Listings

A bucket answers a list request with an XML document. Three things are read off it as text: the keys
in it, whether it is one page of several, and the token that continues it. Texts inside the document
have five characters written as entities.
-/

namespace EngineClient.Listing

/-- Replaces each occurrence of a text, found from left to right, in what is left after `skip`
characters. -/
def replaceAfter (old new : List Char) : (skip : Nat) → List Char → List Char
  | _, [] => []
  | skip + 1, _ :: rest => replaceAfter old new skip rest
  | 0, c :: rest =>
    if old.isPrefixOf (c :: rest) then new ++ replaceAfter old new (old.length - 1) rest
    else c :: replaceAfter old new 0 rest

def replaceAll (old new : String) (text : List Char) : List Char :=
  replaceAfter old.toList new.toList 0 text

/-- A text with its entities resolved. The ampersand comes last, so that none it leaves behind is
taken for the start of another entity. -/
def unescape (text : List Char) : List Char :=
  replaceAll "&amp;" "&"
    (replaceAll "&apos;" "'"
      (replaceAll "&quot;" "\""
        (replaceAll "&gt;" ">"
          (replaceAll "&lt;" "<" text))))

/-- What is left of a text after a given start. -/
def after? (start : String) (text : List Char) : Option (List Char) :=
  if start.toList.isPrefixOf text then some (text.drop start.toList.length) else none

/-- The content of an element at the start of a text, and the number of characters the element
takes. The content holds no other element. -/
def elementAt? (name : String) (text : List Char) : Option (List Char × Nat) := do
  let inside ← after? ("<" ++ name ++ ">") text
  let content := inside.takeWhile (· != '<')
  let rest ← after? ("</" ++ name ++ ">") (inside.dropWhile (· != '<'))
  return (content, text.length - rest.length)

/-- The contents of the elements in what is left after `skip` characters. -/
def elementsAfter (name : String) : (skip : Nat) → List Char → List (List Char)
  | _, [] => []
  | skip + 1, _ :: rest => elementsAfter name skip rest
  | 0, c :: rest =>
    match elementAt? name (c :: rest) with
    | some (content, size) => content :: elementsAfter name (size - 1) rest
    | none => elementsAfter name 0 rest

/-- The contents of the elements of a name, in order. -/
def elements (name : String) (text : List Char) : List (List Char) := elementsAfter name 0 text

def keys (body : List Char) : List String :=
  (((elements "Key" body).map unescape).filter (!·.isEmpty)).map String.ofList

/-- Whether a text starts by saying that the listing goes on. -/
def startsTruncated (text : List Char) : Bool :=
  match after? "<IsTruncated>" text with
  | none => false
  | some inside =>
    match after? "true" (inside.dropWhile Text.isSpace) with
    | none => false
    | some rest => (after? "</IsTruncated>" (rest.dropWhile Text.isSpace)).isSome

def isTruncated : List Char → Bool
  | [] => false
  | c :: rest => startsTruncated (c :: rest) || isTruncated rest

def nextToken? (body : List Char) : Option String :=
  (elements "NextContinuationToken" body).head?.map fun token => String.ofList (unescape token)

end EngineClient.Listing
