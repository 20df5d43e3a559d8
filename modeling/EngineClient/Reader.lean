import EngineClient.Config
import EngineClient.Loader

/-!
# Readers

A reader brings up an engine and serves lookups from it. It finds the binary, loads it and opens it
with the settings of its configuration, in this order, and stops at the first failure. Giving up a
reader closes its engine.
-/

namespace EngineClient

/-- A configuration and the engine that was opened with it. -/
structure Reader where
  config : Config
  handle : Handle

/-- What a start has done: the outcome, the provision of the binary, the path given to the loader
and the calls made to the engine. -/
structure Startup where
  result : Except Error Reader
  provision : Provision
  loaded : Option Path := none
  calls : List Call := []

namespace Reader

/-- The settings an engine is opened with: those of the configuration over those given besides. -/
def openingSettings (base : Settings) (config : Config) : Settings :=
  base.overlay config.engineSettings

/-- Opens a handle for a configuration. A handle that does not open is given up. -/
def openHandle (config : Config) (message : Bytes) (handle : Handle) :
    Except Error Reader × Handle :=
  match handle.openWith message with
  | (.ok (), handle) => (.ok ⟨config, handle⟩, handle)
  | (.error e, handle) => (.error e, handle.drop)

def provisioner (config : Config) : Provisioner :=
  { store := ⟨config.mountDirectory⟩, chunkSize := config.chunkSize }

/-- Starts a reader, with settings besides those of the configuration. -/
def startUp (config : Config) (repo : Repository) (loader : Loader) (base : Settings)
    (t : Transfer) : Startup :=
  let provision := (provisioner config).resolve repo t
  match provision.result with
  | .error e => { result := .error e, provision }
  | .ok none => { result := .error .noBinary, provision }
  | .ok (some path) =>
    match Handle.load loader provision.transfer.fs path with
    | .error e => { result := .error e, provision, loaded := some path }
    | .ok handle =>
      let (result, handle) := openHandle config (Wire.encode (openingSettings base config)) handle
      { result, provision, loaded := some path, calls := handle.calls }

/-- Makes a reader of a loaded engine, and opens it. -/
def ofHandle (config : Config) (handle : Handle) : Except Error Reader × Handle :=
  openHandle config (Wire.encode config.engineSettings) handle

def get (r : Reader) (key : Bytes) (field : String) : Except Error (Option Bytes) × Reader :=
  let (result, handle) := r.handle.get key field
  (result, { r with handle })

def getText (r : Reader) (key : Bytes) (field : String) :
    Except Error (Option String) × Reader :=
  let (result, handle) := r.handle.getText key field
  (result, { r with handle })

def multiget (r : Reader) (batch : Batch) : Except Error (List (Option Bytes)) × Reader :=
  let (result, handle) := r.handle.multiget batch
  (result, { r with handle })

def multigetTexts (r : Reader) (batch : Batch) :
    Except Error (List (Option String)) × Reader :=
  let (result, handle) := r.handle.multigetTexts batch
  (result, { r with handle })

def healthCheck (r : Reader) (probe : String) : Except Error Bool × Reader :=
  let (result, handle) := r.handle.healthCheck probe
  (result, { r with handle })

def shutdown (r : Reader) : Handle := r.handle.close.drop

def drop (r : Reader) : Handle := r.handle.drop

end Reader

end EngineClient
