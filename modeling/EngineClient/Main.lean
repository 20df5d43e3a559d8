import EngineClient.CommandLine
import EngineClient.Loader.EchoImage

/-!
# The program

Runs the command line on a tree of files that is read from standard input: a file on each line, its
path and its content with a tab between them. There is no network, and the only libraries are images
of the echo engine.
-/

namespace EngineClient.CommandLine

/-- Adds the file that a line describes to a tree. A line without a tab describes an empty file. -/
def addFile (fs : FileSystem) (text : String) : FileSystem :=
  let path := Path.ofString (String.ofList (text.toList.takeWhile (· != '\t')))
  let content := String.ofList ((text.toList.dropWhile (· != '\t')).drop 1)
  let parent := Path.ofParts path.isAbsolute path.parts.dropLast
  let fs := (fs.makeDirs parent).2
  match fs.writeFile path ⟨bytesOf content, 0⟩ with
  | .ok fs => fs
  | .error _ => fs

/-- Reads the lines of a stream to its end, after those read before, latest first. -/
partial def readLines (input : IO.FS.Stream) (before : List String) : IO (List String) := do
  let text ← input.getLine
  if text.isEmpty then return before.reverse
  else readLines input (String.ofList (text.toList.takeWhile (· != '\n')) :: before)

/-- Reads the tree, runs a command on it, and prints what has come of it. -/
def perform (invocation : Invocation) : IO UInt32 := do
  let fs := (← readLines (← IO.getStdin) []).foldl addFile {}
  let outcome := invocation.run { fs, images := Echo.image? }
  IO.print outcome.printed
  match outcome.error with
  | some e => IO.eprintln e.message
  | none => pure ()
  return UInt32.ofNat outcome.status

end EngineClient.CommandLine

/-- Understands the arguments and performs the command. -/
def main (arguments : List String) : IO UInt32 := do
  match EngineClient.CommandLine.Invocation.read (arguments.map EngineClient.bytesOf) with
  | .ok invocation => EngineClient.CommandLine.perform invocation
  | .error refusal =>
    IO.print refusal.answer.2
    return UInt32.ofNat refusal.answer.1
