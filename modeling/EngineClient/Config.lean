import EngineClient.Bucket
import EngineClient.Provisioner
import EngineClient.Settings.Wire
import EngineClient.Text.Blank
import EngineClient.Text.Lowercase

/-!
# Configuration

What a reader is set up with. A configuration is built from a sequence of choices, of which the last
on each subject counts, and is checked once at the end. The part of it that concerns the engine is
handed on as settings.
-/

namespace EngineClient

/-- The configuration of a reader. -/
structure Config where
  mountDirectory : Path := []
  storeName : Option String := none
  accountId : Option String := none
  accountPasskey : Option String := none
  partition : Int64 := 0
  logLevel : String := "info"
  logToConsole : Bool := true
  logFile : Option Path := none
  bucket : String := Bucket.defaultName
  region : String := Bucket.defaultRegion
  endpoint : Option String := none
  chunkSize : Nat := defaultChunkSize
deriving Repr, DecidableEq

namespace Config

/-- A choice made while a configuration is built. -/
inductive Choice where
  | mountDirectory (path : Path)
  | storeName (name : String)
  | accountId (id : String)
  | accountPasskey (passkey : String)
  | partition (n : Int64)
  | consoleLogging (level : String)
  | fileLogging (level : String) (path : Path)
  | bucket (name : String)
  | region (name : String)
  | endpoint (address : String)
  | chunkSize (size : Nat)
deriving Repr, DecidableEq

/-- Makes a choice. Log levels may be spelled in any case, and logging goes to one place only. -/
def choose (c : Config) : Choice → Config
  | .mountDirectory path => { c with mountDirectory := path }
  | .storeName name => { c with storeName := some name }
  | .accountId id => { c with accountId := some id }
  | .accountPasskey passkey => { c with accountPasskey := some passkey }
  | .partition n => { c with partition := n }
  | .consoleLogging level =>
    { c with logLevel := Text.lowercase level, logToConsole := true, logFile := none }
  | .fileLogging level path =>
    { c with logLevel := Text.lowercase level, logToConsole := false, logFile := some path }
  | .bucket name => { c with bucket := name }
  | .region name => { c with region := name }
  | .endpoint address => { c with endpoint := some address }
  | .chunkSize size => { c with chunkSize := size }

/-- The configuration after some choices, not yet checked. -/
def afterChoices (choices : List Choice) : Config := choices.foldl choose {}

/-- Whether a name was chosen that is blank. -/
def isBlankChoice : Option String → Bool
  | some name => Text.isBlank name
  | none => false

def fault? (c : Config) : Option ConfigError :=
  if c.mountDirectory.isEmpty then some .missingMount
  else if !logLevels.contains c.logLevel then some (.invalidLevel c.logLevel)
  else if !c.logToConsole && c.logFile.isNone then some .missingLogFile
  else if c.chunkSize = 0 then some .zeroChunk
  else if isBlankChoice c.storeName then some (.blank "store name")
  else if isBlankChoice c.accountId then some (.blank "account id")
  else if isBlankChoice c.accountPasskey then some (.blank "account passkey")
  else none

def build (choices : List Choice) : Except Error Config :=
  let c := afterChoices choices
  match c.fault? with
  | some fault => .error (.config fault)
  | none => .ok c

/-- A setting for a choice that was made. -/
def optional (key : String) : Option String → List Settings.Entry
  | some value => [.string key value]
  | none => []

/-- What the engine is told of a configuration. -/
def engineEntries (c : Config) : List Settings.Entry :=
  [.string "mount_directory" (lossyString c.mountDirectory)]
    ++ optional "store_name" c.storeName ++ optional "account_id" c.accountId
    ++ optional "account_passkey" c.accountPasskey
    ++ [.string "rust_client_log_level" c.logLevel,
        .bool "rust_client_log_to_console" c.logToConsole]
    ++ optional "rust_client_log_file" (c.logFile.map lossyString)
    ++ [.int "partition" c.partition]

def engineSettings (c : Config) : Settings := Settings.ofList c.engineEntries

def bucketOf (c : Config) : Bucket :=
  match c.endpoint with
  | some address => Bucket.atEndpoint address
  | none => Bucket.named c.bucket c.region

end Config

end EngineClient
