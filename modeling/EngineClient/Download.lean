import EngineClient.FileSystem

/-!
# Downloads

A published binary arrives as a stream. A stream is told as the list of what happens on it: data
arrives, a read is interrupted or fails, the user cancels, or another process changes the file
system meanwhile. `receive` follows a stream into an open file, reading at most a chunk at a time,
and looks at the cancellation flag before each read.
-/

namespace EngineClient

/-- Something that happens while a stream is read. -/
inductive Event where
  /-- Bytes arrive; no bytes mean the end of the stream. -/
  | data (bytes : Bytes)
  | interrupted
  /-- A read fails for good. -/
  | fail (reason : String)
  | cancel
  /-- Another process acts on the file system; if it reports a failure, the read fails. -/
  | outside (act : FileSystem → FileSystem × Option String)

/-- A stream: what happens on it, in order. -/
abbrev Source := List Event

/-- The bytes of a stream that nobody disturbs, or the failure of a read. -/
def Source.contents : Source → Except String Bytes
  | [] => .ok []
  | .data bytes :: rest => if bytes.isEmpty then .ok [] else (Source.contents rest).map (bytes ++ ·)
  | .fail reason :: _ => .error reason
  | _ :: rest => Source.contents rest

/-- How the reading of a stream ended. -/
inductive Ending where
  | complete
  | cancelled
  | failed (reason : String)
deriving Repr, DecidableEq

/-- What a download has done so far: the file system it has reached, whether the user has cancelled,
the bytes received and the reads begun. A journal, if one is kept, holds the file systems it passed
through, latest first. -/
structure Transfer where
  fs : FileSystem
  journal : Option (List FileSystem) := none
  cancelled : Bool := false
  received : Nat := 0
  reads : Nat := 0

namespace Transfer

def advance (t : Transfer) (fs : FileSystem) : Transfer :=
  { t with fs := fs, journal := t.journal.map (t.fs :: ·) }

/-- Counts bytes and reads afresh. -/
def restart (t : Transfer) : Transfer := { t with received := 0, reads := 0 }

def beginRead (t : Transfer) : Transfer := { t with reads := t.reads + 1 }

/-- Writes received bytes to the open file. -/
def write (file : Location) (t : Transfer) (bytes : Bytes) : Transfer :=
  let t := t.advance (t.fs.append file bytes)
  { t with received := t.received + bytes.length }

end Transfer

/-- Cuts bytes into chunks of at most `size + 1`. -/
def chunks (size : Nat) (bytes : Bytes) : List Bytes :=
  if bytes.isEmpty then [] else bytes.take (size + 1) :: chunks size (bytes.drop (size + 1))
termination_by bytes.length
decreasing_by
  have : bytes ≠ [] := by simpa using ‹¬bytes.isEmpty = true›
  have := List.length_pos_iff.2 this
  simp only [List.length_drop]
  omega

/-- Follows a stream, of which a read has begun, into an open file. The end of each read but the
last is the moment at which a cancellation shows. -/
def receive (file : Location) (chunkSize : Nat) : Source → Transfer → Ending × Transfer
  | [], t => (.complete, t)
  | .data bytes :: rest, t =>
    match chunks (chunkSize - 1) bytes with
    | [] => (.complete, t)
    | first :: others =>
      let t := t.write file first
      if t.cancelled then (.cancelled, t)
      else
        let t := others.foldl (fun t chunk => t.beginRead.write file chunk) t
        receive file chunkSize rest t.beginRead
  | .interrupted :: rest, t =>
    if t.cancelled then (.cancelled, t) else receive file chunkSize rest t.beginRead
  | .fail reason :: _, t => (.failed reason, t)
  | .cancel :: rest, t => receive file chunkSize rest { t with cancelled := true }
  | .outside act :: rest, t =>
    match act t.fs with
    | (fs, none) => receive file chunkSize rest (t.advance fs)
    | (fs, some reason) => (.failed reason, t.advance fs)

/-- Downloads a stream into an open file. Nothing is read if the user has cancelled before. -/
def download (file : Location) (chunkSize : Nat) (source : Source) (t : Transfer) :
    Ending × Transfer :=
  if t.cancelled then (.cancelled, t) else receive file chunkSize source t.beginRead

end EngineClient
