import EngineClient.Text.Utf8
import EngineClient.Text.Quoted
import EngineClient.FileSystem.IoError
import EngineClient.Http
import EngineClient.Settings.WireError

/-!
# Errors

Every operation of the client fails with one `Error`. Its constructors say which part failed, the
causes below them say why, and `Error.message` is the text a user sees.
-/

namespace EngineClient

/-- Why a binary could not be listed or downloaded. -/
inductive FetchError where
  /-- The published name cannot be the name of a file in the slot. -/
  | refusedName (name : String)
  /-- The stream broke off after `received` bytes. -/
  | brokenStream (name : String) (received : Nat) (reason : String)
  | emptyBody (name : String)
  /-- An object key has a segment that would leave the repository. -/
  | invalidKey (key : String)
  | cannotOpen (path : Bytes) (reason : IoError)
  | cannotList (folder : String) (reason : Http.Failure)
  | cannotReadListing (folder : String) (reason : Http.Failure)
  | refusedListing (folder : String) (status : Nat)
  | cannotFetch (key : String) (reason : Http.Failure)
  | refusedFetch (key : String) (status : Nat)
  /-- A failure reported by a repository in its own words. -/
  | other (text : String)
deriving Repr, DecidableEq

def FetchError.message : FetchError → String
  | refusedName name => "refusing to install binary with file name " ++ Text.quoted name
  | brokenStream name received reason => s!"stream for {name} failed after {received} bytes: {reason}"
  | emptyBody name => s!"empty body for {name}"
  | invalidKey key => s!"invalid object key: {key}"
  | cannotOpen path reason => s!"cannot open {lossyString path}: {reason.message}"
  | cannotList folder reason => s!"cannot list {folder}: {reason.message}"
  | cannotReadListing folder reason => s!"cannot read listing of {folder}: {reason.message}"
  | refusedListing folder status => s!"listing {folder} returned HTTP {Http.statusText status}"
  | cannotFetch key reason => s!"cannot fetch {key}: {reason.message}"
  | refusedFetch key status => s!"fetching {key} returned HTTP {Http.statusText status}"
  | other text => text

/-- Why an engine binary could not be loaded. -/
inductive LoadError where
  | nulInPath (path : Bytes)
  | cannotOpen (path : Bytes) (reason : String)
  | missingSymbol (name : String) (reason : String)
  /-- A failure reported by a loader in its own words. -/
  | other (text : String)
deriving Repr, DecidableEq

def LoadError.message : LoadError → String
  | nulInPath path => s!"path contains NUL: {lossyString path}"
  | cannotOpen path reason => s!"{lossyString path}: {reason}"
  | missingSymbol name reason => s!"missing symbol {name}: {reason}"
  | other text => text

/-- Why a call was not handed to the engine, or was not accepted from it. -/
inductive CallError where
  | itemTooLong (size : Nat)
  | argumentTooLong (what : String) (size : Nat)
  | nulInProbe
  | nulInField (field : String)
  | unhealthy
  | other (text : String)
deriving Repr, DecidableEq

def CallError.message : CallError → String
  | itemTooLong size => s!"item of {size} bytes exceeds slot limit"
  | argumentTooLong what size => s!"{what} of {size} bytes exceeds the native length limit"
  | nulInProbe => "health check probe contains NUL"
  | nulInField field => "field name " ++ Text.quoted field ++ " contains NUL"
  | unhealthy => "health check failed"
  | other text => text

/-- Why an answer of the engine is not what was asked for. -/
inductive DecodeError where
  /-- Fewer bytes than a slot header are left. -/
  | truncatedHeader (offset remaining : Nat)
  /-- A slot is longer than what is left of the buffer. -/
  | overrun (offset declared remaining : Nat)
  | invalidLength (length : Int) (offset : Nat)
  | slotNotText (index : Nat) (defect : Utf8.Defect)
  | valueNotText (field : String) (defect : Utf8.Defect)
  | slotCount (expected returned : Nat)
  | other (text : String)
deriving Repr, DecidableEq

def DecodeError.message : DecodeError → String
  | truncatedHeader offset remaining =>
    s!"truncated slot header at offset {offset}: {remaining} trailing byte(s)"
  | overrun offset declared remaining =>
    s!"slot at offset {offset} declares {declared} bytes, {remaining} remaining"
  | invalidLength length offset => s!"invalid slot length {length} at offset {offset}"
  | slotNotText index defect => s!"slot {index} is not valid UTF-8: {defect.message}"
  | valueNotText field defect =>
    "value of " ++ Text.quoted field ++ " is not valid UTF-8: " ++ defect.message
  | slotCount expected returned => s!"expected {expected} slots, engine returned {returned}"
  | other text => text

/-- The levels an engine can log at. -/
def logLevels : List String := ["error", "warn", "info", "debug", "trace"]

/-- Why a configuration is not accepted. -/
inductive ConfigError where
  | missingMount
  | invalidLevel (level : String)
  | missingLogFile
  | zeroChunk
  | blank (setting : String)
  | malformed (e : WireError)
  | other (text : String)
deriving Repr, DecidableEq

def ConfigError.message : ConfigError → String
  | missingMount => "mount directory is required"
  | invalidLevel level =>
    "invalid log level " ++ Text.quoted level ++ ", expected one of " ++ ", ".intercalate logLevels
  | missingLogFile => "file logging requires a log file"
  | zeroChunk => "download chunk size must be non-zero"
  | blank setting => s!"{setting} must not be blank"
  | malformed e => s!"cannot decode config: {e.message}"
  | other text => text

/-- The failures of the client. -/
inductive Error where
  | io (e : IoError)
  | versionParse (text : String)
  | fetch (e : FetchError)
  | cancelled
  | noBinary
  | libraryLoad (e : LoadError)
  | engineOpen (status : Int64)
  | engineCall (e : CallError)
  | engineClosed
  | decode (e : DecodeError)
  | config (e : ConfigError)
deriving Repr, DecidableEq

def Error.message : Error → String
  | io e => s!"IO error: {e.message}"
  | versionParse text => s!"Invalid semantic version: {text}"
  | fetch e => s!"Remote fetch failed: {e.message}"
  | cancelled => "Download cancelled"
  | noBinary => "No native binary could be provisioned"
  | libraryLoad e => s!"Cannot load native library: {e.message}"
  | engineOpen status => s!"Cannot open engine, status code: {status.toInt}"
  | engineCall e => s!"Engine call failed: {e.message}"
  | engineClosed => "Engine is not open"
  | decode e => s!"Malformed response buffer: {e.message}"
  | config e => s!"Configuration error: {e.message}"

end EngineClient
