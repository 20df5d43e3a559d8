import EngineClient.CommandLine.Invocation
import EngineClient.Reader

/-!
# The command line

Runs a command on a file system and a network, and says what it prints, whether it fails, and what
it has done to the files and the engine. A lookup brings up a reader and closes it again whatever
comes of it.
-/

namespace EngineClient.CommandLine

/-- What a command works with: the files, the network, the libraries that files can be, and the
number of pages after which a listing is given up. -/
structure Surroundings where
  fs : FileSystem
  network : Network := fun _ _ => .dropped
  images : Bytes → Option Image := fun _ => none
  pages : Nat := 1000

/-- What has come of a command. -/
structure Outcome where
  printed : String := ""
  error : Option Error := none
  fs : FileSystem
  calls : List Call := []

namespace Invocation

/-- The repository that the options name: a directory rather than a bucket. -/
def repository (i : Invocation) (w : Surroundings) : Repository :=
  match i.directory, i.endpoint with
  | some directory, _ => Repository.ofDirectory directory
  | none, some address => (Bucket.atEndpoint address).repository w.network w.pages
  | none, none => (Bucket.named i.bucket i.region).repository w.network w.pages

def choices (i : Invocation) : List Config.Choice :=
  [.mountDirectory i.mountDirectory, .bucket i.bucket, .region i.region]
    ++ (i.endpoint.map Config.Choice.endpoint).toList
    ++ (i.storeName.map Config.Choice.storeName).toList

end Invocation

def line (text : String) : String := text ++ "\n"

/-- How a looked-up value is printed. -/
def showValue : Option Bytes → String
  | some value => line (lossyString value)
  | none => line "(nil)"

/-- How the values of a batch are printed: one line for each key and field. -/
def showValues (keys fields : List String) (values : List (Option Bytes)) : String :=
  let pairs := keys.flatMap fun key => fields.map fun field => (key, field)
  String.join <| (pairs.zip values).map fun ((key, field), value) =>
    key ++ "\t" ++ field ++ "\t" ++ showValue value

def runPlatform (w : Surroundings) : Outcome where
  printed := line (match Platform.host with
    | some platform => platform.tag
    | none => "unsupported")
  fs := w.fs

/-- Prints the path of the binary, after downloading it if need be. -/
def runResolve (i : Invocation) (w : Surroundings) : Outcome :=
  let p : Provisioner := { store := ⟨i.mountDirectory⟩ }
  let provision := p.resolve (i.repository w) { fs := w.fs }
  let fs := provision.transfer.fs
  match provision.result with
  | .ok (some path) => { printed := line (lossyString path), fs }
  | .ok none => { error := some .noBinary, fs }
  | .error e => { error := some e, fs }

/-- Loads a library and prints whether it is well. -/
def runHealthCheck (library : Path) (probe : String) (w : Surroundings) : Outcome :=
  match Handle.load (Loader.dynamic w.images) w.fs library with
  | .error e => { error := some e, fs := w.fs }
  | .ok handle =>
    let (result, handle) := handle.healthCheck probe
    let calls := handle.drop.calls
    match result with
    | .error e => { error := some e, fs := w.fs, calls }
    | .ok true => { printed := line "OK", fs := w.fs, calls }
    | .ok false =>
      { printed := line "UNHEALTHY", error := some (.engineCall .unhealthy), fs := w.fs, calls }

/-- Brings up a reader, prints what is looked up with it, and closes it. -/
def withReader (i : Invocation) (w : Surroundings)
    (lookup : Reader → Except Error String × Reader) : Outcome :=
  match Config.build i.choices with
  | .error e => { error := some e, fs := w.fs }
  | .ok config =>
    let start := Reader.startUp config (i.repository w) (Loader.dynamic w.images) .empty { fs := w.fs }
    let fs := start.provision.transfer.fs
    match start.result with
    | .error e => { error := some e, fs, calls := start.calls }
    | .ok reader =>
      match lookup reader with
      | (.ok printed, reader) => { printed, fs, calls := reader.shutdown.calls }
      | (.error e, reader) => { error := some e, fs, calls := reader.drop.calls }

def lookUp (key field : String) (reader : Reader) : Except Error String × Reader :=
  let (result, reader) := reader.get (bytesOf key) field
  (result.map showValue, reader)

def lookUpAll (keys fields : List String) (reader : Reader) : Except Error String × Reader :=
  let (result, reader) := reader.multiget (Batch.ofKeys [] keys fields)
  (result.map (showValues keys fields), reader)

def Invocation.run (i : Invocation) (w : Surroundings) : Outcome :=
  match i.command with
  | .platform => runPlatform w
  | .resolve => runResolve i w
  | .healthCheck library probe => runHealthCheck library probe w
  | .get key field => withReader i w (lookUp key field)
  | .multiget keys fields => withReader i w (lookUpAll keys fields)

/-- The exit status of a command that has run. -/
def Outcome.status (o : Outcome) : Nat := if o.error.isSome then 1 else 0

def versionText : String := line "ikv-cli 0.1.0"

def usageText : String :=
  line ("Usage: ikv-cli [OPTIONS] " ++ "|".intercalate programGrammar.commands)

/-- The exit status and the printed text of a program that does not start to work. -/
def Refusal.answer : Refusal → Nat × String
  | help => (0, usageText)
  | version => (0, versionText)
  | badUsage => (2, "")

end EngineClient.CommandLine
