import EngineClient.Bucket.Listing
import EngineClient.Bucket.Url
import EngineClient.Repository

/-!
# Buckets

A bucket publishes its objects over HTTP. It lists them page by page, each page naming the token
that asks for the next, and serves each under its key. The network is given by its reply to each
request after the requests before it.
-/

namespace EngineClient

/-- The reply to a request, given the requests before it, latest first. -/
abbrev Network := List Url → Url → Http.Reply

/-- A bucket by the address it is reached at, without slashes at its end. -/
structure Bucket where
  endpoint : String
deriving Repr, DecidableEq

namespace Bucket

/-- The bucket that holds the published binaries unless another is named. -/
def defaultName : String := "ikv-binaries"

def defaultRegion : String := "us-west-2"

def atEndpoint (address : String) : Bucket := ⟨Repository.trimFolder address⟩

def named (name region : String) : Bucket :=
  atEndpoint ("https://" ++ name ++ ".s3." ++ region ++ ".amazonaws.com")

/-- Sends a request, and answers with the requests made so far. -/
def send (net : Network) (address : Except Url.Unusable Url) (past : List Url) :
    Except Http.Failure Http.Response × List Url :=
  match address with
  | .error .noAddress => (.error .invalidAddress, past)
  | .error (.hostless text) => (.error (.unsupportedAddress text), past)
  | .ok url =>
    if url.isHttp then
      match net past url with
      | .dropped => (.error (.unanswered url.toString), url :: past)
      | .response r =>
        if Http.isInterim r.status then (.error (.unanswered url.toString), url :: past)
        else (.ok r, url :: past)
    else (.error (.unsupportedAddress url.toString), past)

/-- The address of a page of the listing of a folder. -/
def pageAddress (b : Bucket) (folder : String) (token : Option String) :
    Except Url.Unusable Url :=
  (Url.parse (b.endpoint ++ "/")).map fun url =>
    let continuation := match token with
      | some token => [("continuation-token", token)]
      | none => []
    url.addQuery (("list-type", "2") :: ("prefix", folder) :: continuation)

/-- The mark that may stand at the start of a text to tell its encoding. -/
def byteOrderMark : Bytes := [0xEF, 0xBB, 0xBF]

def bodyText (body : Bytes) : List Char :=
  Utf8.lossy (if byteOrderMark.isPrefixOf body then body.drop byteOrderMark.length else body)

def pageText (folder : String) (reply : Except Http.Failure Http.Response) :
    Except Error (List Char) :=
  match reply with
  | .error e => .error (.fetch (.cannotList folder e))
  | .ok r =>
    if !Http.isSuccess r.status then .error (.fetch (.refusedListing folder r.status))
    else if r.isTruncated then .error (.fetch (.cannotReadListing folder .truncatedBody))
    else .ok (bodyText r.received)

/-- The token of the page that follows, if there is one. -/
def nextPage? (body : List Char) : Option String :=
  if Listing.isTruncated body then Listing.nextToken? body else none

/-- Requests pages, from that of a token on, as long as each names another, and adds their keys to
those `found`. Nothing is answered if there are more than `pages`. -/
def listPages (net : Network) (b : Bucket) (folder : String) :
    (pages : Nat) → (token : Option String) → (found : List String) → (past : List Url) →
      Option (Except Error (List String)) × List Url
  | 0, _, _, past => (none, past)
  | pages + 1, token, found, past =>
    let (reply, past) := send net (b.pageAddress folder token) past
    match pageText folder reply with
    | .error e => (some (.error e), past)
    | .ok body =>
      let found := found ++ Listing.keys body
      match nextPage? body with
      | some token => listPages net b folder pages (some token) found past
      | none => (some (.ok found), past)

def objectAddress (b : Bucket) (key : String) : Except Url.Unusable Url :=
  Url.parse (b.endpoint ++ "/" ++ String.ofList (Percent.keyPath key.toList))

def bodySource (r : Http.Response) : Source :=
  (if r.received.isEmpty then [] else [.data r.received])
    ++ if r.isTruncated then [.fail Http.truncatedStreamText] else []

def fetch (net : Network) (b : Bucket) (key : String) (past : List Url) :
    Except Error Source × List Url :=
  let (reply, past) := send net (b.objectAddress key) past
  match reply with
  | .error e => (.error (.fetch (.cannotFetch key e)), past)
  | .ok r =>
    if Http.isSuccess r.status then (.ok (bodySource r), past)
    else (.error (.fetch (.refusedFetch key r.status)), past)

/-- The bucket as a repository on a network whose replies do not depend on the requests before. A
listing is given up after a number of pages. -/
def repository (net : Network) (b : Bucket) (pages : Nat) : Repository where
  listKeys _ folder :=
    match (listPages net b folder pages none [] []).1 with
    | some result => result
    | none => .error (.fetch (.other s!"listing of {folder} does not end"))
  fetch _ key := (fetch net b key []).1

end Bucket

end EngineClient
