/-!
# HTTP answers

A request is answered with a status and a body, or not at all. The body may be shorter than the
length announced for it.
-/

namespace EngineClient.Http

/-- A status line with its body. `announced` is the length the server promised for the body. -/
structure Response where
  status : Nat := 200
  body : List UInt8
  announced : Nat
deriving Repr, DecidableEq

/-- What a server does with a request. -/
inductive Reply where
  /-- The connection is closed, or never made, without a response. -/
  | dropped
  | response (r : Response)
deriving Repr, DecidableEq

/-- Why no complete response was received. -/
inductive Failure where
  | invalidAddress
  /-- The address cannot be reached with HTTP. -/
  | unsupportedAddress (url : String)
  | unanswered (url : String)
  /-- The body of a listing ended early. -/
  | truncatedBody
deriving Repr, DecidableEq

def Failure.message : Failure → String
  | invalidAddress => "builder error"
  | unsupportedAddress url => s!"builder error for url ({url})"
  | unanswered url => s!"error sending request for url ({url})"
  | truncatedBody => "error decoding response body"

/-- The error of a stream whose body ended early. -/
def truncatedStreamText : String := "request or response body error"

def reasonPhrases : List (Nat × String) :=
  [(100, "Continue"), (101, "Switching Protocols"), (102, "Processing"), (200, "OK"),
   (201, "Created"), (202, "Accepted"), (203, "Non Authoritative Information"),
   (204, "No Content"), (205, "Reset Content"), (206, "Partial Content"), (207, "Multi-Status"),
   (208, "Already Reported"), (226, "IM Used"), (300, "Multiple Choices"),
   (301, "Moved Permanently"), (302, "Found"), (303, "See Other"), (304, "Not Modified"),
   (305, "Use Proxy"), (307, "Temporary Redirect"), (308, "Permanent Redirect"),
   (400, "Bad Request"), (401, "Unauthorized"), (402, "Payment Required"), (403, "Forbidden"),
   (404, "Not Found"), (405, "Method Not Allowed"), (406, "Not Acceptable"),
   (407, "Proxy Authentication Required"), (408, "Request Timeout"), (409, "Conflict"),
   (410, "Gone"), (411, "Length Required"), (412, "Precondition Failed"),
   (413, "Payload Too Large"), (414, "URI Too Long"), (415, "Unsupported Media Type"),
   (416, "Range Not Satisfiable"), (417, "Expectation Failed"), (418, "I'm a teapot"),
   (421, "Misdirected Request"), (422, "Unprocessable Entity"), (423, "Locked"),
   (424, "Failed Dependency"), (425, "Too Early"), (426, "Upgrade Required"),
   (428, "Precondition Required"), (429, "Too Many Requests"),
   (431, "Request Header Fields Too Large"), (451, "Unavailable For Legal Reasons"),
   (500, "Internal Server Error"), (501, "Not Implemented"), (502, "Bad Gateway"),
   (503, "Service Unavailable"), (504, "Gateway Timeout"), (505, "HTTP Version Not Supported"),
   (506, "Variant Also Negotiates"), (507, "Insufficient Storage"), (508, "Loop Detected"),
   (510, "Not Extended"), (511, "Network Authentication Required")]

def statusText (status : Nat) : String :=
  match reasonPhrases.lookup status with
  | some reason => s!"{status} {reason}"
  | none => s!"{status} <unknown status code>"

def isSuccess (status : Nat) : Bool := 200 ≤ status && status ≤ 299

/-- Whether a response with this status has no body, whatever length it announces. -/
def isBodiless (status : Nat) : Bool := status == 204 || status == 304

/-- Whether a status only tells that the real response is still to come. -/
def isInterim (status : Nat) : Bool := 100 ≤ status && status ≤ 199 && status != 101

/-- The part of the body that a client receives. -/
def Response.received (r : Response) : List UInt8 :=
  if isBodiless r.status then [] else r.body.take r.announced

/-- Whether the body ends before its announced length. -/
def Response.isTruncated (r : Response) : Bool :=
  !isBodiless r.status && r.body.length < r.announced

end EngineClient.Http
