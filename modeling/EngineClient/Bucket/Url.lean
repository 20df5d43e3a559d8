import EngineClient.Bucket.Percent

/-!
# Addresses

The address of a request as it is sent. A text is read as an address by the rules for web addresses:
the host is in lower case, the segments `.` and `..` are resolved, and characters that cannot stand
in an address are percent-encoded.
-/

namespace EngineClient

/-- An address to send a request to. -/
structure Url where
  scheme : String
  authority : String
  path : String
  query : Option String := none
  fragment : Option String := none
deriving Repr, DecidableEq

namespace Url

/-- The part of an address that a request names. -/
def target (u : Url) : String :=
  match u.query with
  | some query => u.path ++ "?" ++ query
  | none => u.path

def toString (u : Url) : String :=
  let fragment := match u.fragment with
    | some fragment => "#" ++ fragment
    | none => ""
  u.scheme ++ "://" ++ u.authority ++ u.target ++ fragment

def addQuery (u : Url) (pairs : List (String × String)) : Url :=
  let part (s : String) := String.ofList (Percent.form s.toList)
  let added := "&".intercalate (pairs.map fun p => part p.1 ++ "=" ++ part p.2)
  match u.query with
  | some query => { u with query := some (if query.isEmpty then added else query ++ "&" ++ added) }
  | none => { u with query := some added }

/-- Whether requests can be sent to an address. -/
def isHttp (u : Url) : Bool := u.scheme == "http" || u.scheme == "https"

/-- Why a text is not the address of a host. -/
inductive Unusable where
  | noAddress
  /-- It is an address of another kind. -/
  | hostless (text : String)
deriving Repr, DecidableEq

def isSelf (segment : List Char) : Bool :=
  (segment.map Char.toLower) ∈ ["." , "%2e"].map String.toList

def isUp (segment : List Char) : Bool :=
  (segment.map Char.toLower) ∈ ["..", ".%2e", "%2e.", "%2e%2e"].map String.toList

/-- The segments of a path, last first, with those that stand for directories resolved. -/
def resolveOnto (done : List (List Char)) : List (List Char) → List (List Char)
  | [] => done
  | [last] =>
    if isUp last then [] :: done.tail else if isSelf last then [] :: done else last :: done
  | segment :: rest =>
    resolveOnto
      (if isUp segment then done.tail else if isSelf segment then done else segment :: done) rest

/-- Percent-encodes the characters of a text that are not ASCII, are no printable character, or are
among those given. -/
def escape (special : List Char) (text : List Char) : List Char :=
  text.flatMap fun c =>
    if c.toNat ≤ 32 || 127 ≤ c.toNat || c ∈ special then (Utf8.encode [c]).flatMap Percent.triple
    else [c]

def readPath (text : List Char) : String :=
  let segments := ((text.map fun c => if c = '\\' then '/' else c).drop 1).splitOn '/'
  let resolved := (resolveOnto [] segments).reverse
  let special := ['"', '#', '<', '>', '?', Char.ofNat 96, '\x7b', '\x7d']
  String.ofList ('/' :: ['/'].intercalate (resolved.map (escape special)))

def readQuery (text : List Char) : String :=
  String.ofList (escape ['"', '#', '<', '>', Char.ofNat 39] text)

def readFragment (text : List Char) : String :=
  String.ofList (escape ['"', '<', '>', Char.ofNat 96] text)

def forbiddenInHost : List Char :=
  [' ', '#', '/', ':', '<', '>', '?', '@', '[', '\\', ']', '^', '|', '%']

/-- The number that may stand behind a host, without the one that the scheme implies. -/
def readSocket (scheme : String) (text : List Char) : Option String :=
  let value := Nat.ofDigitChars 10 text 0
  if !text.all Char.isDigit || 65535 < value then none
  else if text.isEmpty || value == (if scheme == "https" then 443 else 80) then some ""
  else some (":" ++ value.repr)

/-- A host in the spelling of addresses: in lower case, for the schemes that say how a host is
written. -/
def hostCase (scheme : String) (host : List Char) : List Char :=
  if ["http", "https", "ftp", "ws", "wss"].contains scheme then host.map Char.toLower else host

/-- The host that a text spells, with the number behind it. -/
def readAuthority (scheme : String) (text : List Char) : Option String :=
  let host := text.takeWhile (· != ':')
  let behind := (text.dropWhile (· != ':')).drop 1
  if host.isEmpty || host.any (fun c => c.toNat < 33 || 127 ≤ c.toNat || c ∈ forbiddenInHost) then
    none
  else (readSocket scheme behind).map fun socket => String.ofList (hostCase scheme host) ++ socket

def isSchemeChar (c : Char) : Bool := c.isAlphanum || c == '+' || c == '-' || c == '.'

/-- Reads the parts behind the scheme and its slashes. -/
def readParts (scheme : String) (text : List Char) : Option Url :=
  let isEnd (c : Char) := c == '/' || c == '\\' || c == '?' || c == '#'
  (readAuthority scheme (text.takeWhile (!isEnd ·))).map fun authority =>
    let rest := text.dropWhile (!isEnd ·)
    let pathText := rest.takeWhile fun c => c != '?' && c != '#'
    let rest := rest.dropWhile fun c => c != '?' && c != '#'
    let queryText := rest.takeWhile (· != '#')
    let fragmentText := rest.dropWhile (· != '#')
    { scheme, authority
      path := readPath pathText
      query := if queryText.isEmpty then none else some (readQuery (queryText.drop 1))
      fragment := if fragmentText.isEmpty then none else some (readFragment (fragmentText.drop 1)) }

/-- The host that a text names behind the scheme, and what follows it. How many slashes there are
does not matter for HTTP. -/
def behindSlashes (scheme : String) (text : List Char) : Option (List Char) :=
  if scheme == "http" || scheme == "https" then
    some (text.dropWhile fun c => c == '/' || c == '\\')
  else match text with
    | '/' :: '/' :: rest => some rest
    | _ => none

/-- The address that a text spells, if it names a host. -/
def parse (s : String) : Except Unusable Url :=
  let isEdge (c : Char) := decide (c.toNat ≤ 32)
  let text := ((s.toList.dropWhile isEdge).reverse.dropWhile isEdge).reverse
  let text := text.filter fun c => c != '\t' && c != '\n' && c != '\r'
  let scheme := String.ofList ((text.takeWhile isSchemeChar).map Char.toLower)
  match text.dropWhile isSchemeChar with
  | ':' :: rest =>
    if !(text.take 1).all Char.isAlpha then .error .noAddress
    else match (behindSlashes scheme rest).bind (readParts scheme) with
      | some url => .ok url
      | none =>
        if scheme == "http" || scheme == "https" then .error .noAddress
        else .error (.hostless (scheme ++ ":" ++ String.ofList rest))
  | _ => .error .noAddress

end Url

end EngineClient
