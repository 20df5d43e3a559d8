import EngineClient.Bucket
import EngineClient.CommandLine.Grammar

/-!
# Invocations

What the program can be asked to do: a command, and the options for all commands before it. The
arguments of each command have a grammar of their own.
-/

namespace EngineClient.CommandLine

/-- A command with its arguments. -/
inductive Command where
  | platform
  | resolve
  | healthCheck (library : Path) (probe : String)
  | get (key field : String)
  | multiget (keys fields : List String)
deriving Repr, DecidableEq

/-- A command with the options for all commands. -/
structure Invocation where
  mountDirectory : Path
  bucket : String
  region : String
  endpoint : Option String
  /-- The directory that takes the place of the bucket. -/
  directory : Option Path
  storeName : Option String
  command : Command
deriving Repr, DecidableEq

/-- The options for all commands, and the commands. -/
def programGrammar : Grammar where
  options :=
    [⟨"mount-dir", some 'm', .path, false⟩, ⟨"bucket", none, .text, false⟩,
     ⟨"region", none, .text, false⟩, ⟨"endpoint", none, .text, false⟩,
     ⟨"mirror", none, .path, false⟩, ⟨"store", none, .text, false⟩]
  commands := ["platform", "resolve", "health-check", "get", "multiget", "help"]
  tellsVersion := true

/-- The mount directory unless another is given. -/
def defaultMount : Path := Path.ofString "./ikv_data"

def defaultProbe : String := "ping"

/-- The texts between the commas of each value. -/
def commaSeparated (values : List Bytes) : List String :=
  (values.flatMap fun value => value.splitOn 44).filterMap stringOf?

def readHealthCheck (arguments : List Bytes) : Except Refusal Command := do
  let s ← Grammar.scan
    { options := [⟨"library", some 'l', .path, false⟩], positionals := 1 } arguments
  match s.value? "library" with
  | some library => return .healthCheck library (s.positionals.head?.getD defaultProbe)
  | none => throw .badUsage

def readGet (arguments : List Bytes) : Except Refusal Command := do
  let s ← Grammar.scan { positionals := 2 } arguments
  match s.positionals with
  | [field, key] => return .get key field
  | _ => throw .badUsage

def readMultiget (arguments : List Bytes) : Except Refusal Command := do
  let s ← Grammar.scan
    { options := [⟨"keys", some 'k', .text, true⟩, ⟨"fields", some 'f', .text, true⟩] } arguments
  return .multiget (commaSeparated (s.values "keys")) (commaSeparated (s.values "fields"))

/-- Reads the arguments of `help`: at most the name of a command. -/
def readHelp (arguments : List Bytes) : Refusal :=
  match arguments with
  | [] => .help
  | [name] => if programGrammar.commands.any (bytesOf · == name) then .help else .badUsage
  | _ => .badUsage

def readCommand (name : String) (arguments : List Bytes) : Except Refusal Command :=
  match name with
  | "platform" => (Grammar.scan {} arguments).map fun _ => .platform
  | "resolve" => (Grammar.scan {} arguments).map fun _ => .resolve
  | "health-check" => readHealthCheck arguments
  | "get" => readGet arguments
  | "multiget" => readMultiget arguments
  | _ => .error (readHelp arguments)

def Invocation.read (arguments : List Bytes) : Except Refusal Invocation := do
  let s ← programGrammar.scan arguments
  match s.command with
  | none => throw .badUsage
  | some (name, behind) =>
    let command ← readCommand name behind.reverse
    return {
      mountDirectory := (s.value? "mount-dir").getD defaultMount
      bucket := (s.text? "bucket").getD Bucket.defaultName
      region := (s.text? "region").getD Bucket.defaultRegion
      endpoint := s.text? "endpoint"
      directory := s.value? "mirror"
      storeName := s.text? "store"
      command }

end EngineClient.CommandLine
