import Mathlib
import EngineClient.Reader
import EngineClient.Engine.Reference
import EngineClient.Proofs.Handle.Sessions
import EngineClient.Proofs.Provisioner.Decision
import EngineClient.Proofs.Settings.RoundTrip

/-!
# The life of a reader

A start goes through three stages, and the first that fails ends it: before the engine is opened
nothing has been asked of it. A reader that has been started has one index open, in which all its
lookups are made, and which is closed once when the reader is given up.
-/

namespace EngineClient

namespace Handle

variable {h h' h'' : Handle} {token : Int64} {α : Type} {result : Except Error α}

/-- Between two moments of a handle its index has stayed open, with no calls but in it. -/
structure StaysOpen (token : Int64) (h h' : Handle) : Prop where
  isOpen : h'.token = some token
  calls : ∃ more, h'.calls = h.calls ++ more ∧ ∀ call ∈ more, call.IsWithin token

namespace StaysOpen

private theorem refl (hopen : h.token = some token) : StaysOpen token h h :=
  ⟨hopen, [], (List.append_nil _).symm, nofun⟩

private theorem trans (hfirst : StaysOpen token h h') (hthen : StaysOpen token h' h'') :
    StaysOpen token h h'' := by
  obtain ⟨more, hmore, hwithin⟩ := hfirst.calls
  obtain ⟨more', hmore', hwithin'⟩ := hthen.calls
  refine ⟨hthen.isOpen, more ++ more', by rw [hmore', hmore, List.append_assoc], ?_⟩
  intro call hcall
  rcases List.mem_append.mp hcall with hcall | hcall
  · exact hwithin call hcall
  · exact hwithin' call hcall

end StaysOpen

private theorem LooksUp.staysOpen (hlook : LooksUp h result h') (hopen : h.token = some token) :
    StaysOpen token h h' := by
  cases hlook with
  | unasked => exact .refl hopen
  | asked result hasked hcall =>
    obtain rfl : _ = token := Option.some.inj (hasked.symm.trans hopen)
    exact ⟨by rw [token_release, token_record, hopen], calls_lookUp hcall⟩

private theorem healthCheck_staysOpen (hopen : h.token = some token) (probe : String) :
    StaysOpen token h (h.healthCheck probe).2 := by
  rw [healthCheck]
  split
  · exact .refl hopen
  · refine ⟨hopen, [.health _ _], calls_record h _, ?_⟩
    intro call hcall
    obtain rfl := List.mem_singleton.mp hcall
    trivial

private theorem calls_close (hopen : h.token = some token) :
    h.close.calls = h.calls ++ [.closed token] := by
  rw [close, hopen]
  exact calls_record h _

private theorem close_close (h : Handle) : h.close.close = h.close := by
  cases htoken : h.token with
  | none => simp only [close, htoken]
  | some token => simp only [close, htoken]

end Handle

namespace Reader

open Handle

variable {r : Reader} {token : Int64}

/-! ## Requests -/

/-- Something that is asked of a reader. -/
inductive Request where
  | get (key : Bytes) (field : String)
  | getText (key : Bytes) (field : String)
  | multiget (batch : Batch)
  | multigetTexts (batch : Batch)
  | healthCheck (probe : String)
deriving Repr, DecidableEq

/-- The reader after a request. -/
def answer (r : Reader) : Request → Reader
  | .get key field => (r.get key field).2
  | .getText key field => (r.getText key field).2
  | .multiget batch => (r.multiget batch).2
  | .multigetTexts batch => (r.multigetTexts batch).2
  | .healthCheck probe => (r.healthCheck probe).2

def serve (r : Reader) (requests : List Request) : Reader := requests.foldl answer r

private theorem answer_staysOpen (hopen : r.handle.token = some token) (request : Request) :
    StaysOpen token r.handle (r.answer request).handle := by
  cases request with
  | get key field => exact (get_looksUp r.handle key field).staysOpen hopen
  | getText key field =>
    exact ((get_looksUp r.handle key field).bind (textValue_fails field)).staysOpen hopen
  | multiget batch => exact (multiget_looksUp r.handle batch).staysOpen hopen
  | multigetTexts batch =>
    exact ((multiget_looksUp r.handle batch).bind Slot.texts_fails).staysOpen hopen
  | healthCheck probe => exact healthCheck_staysOpen hopen probe

private theorem serve_staysOpen (hopen : r.handle.token = some token) (requests : List Request) :
    StaysOpen token r.handle (r.serve requests).handle := by
  induction requests generalizing r with
  | nil => exact .refl hopen
  | cons request requests ih =>
    have hanswer := answer_staysOpen hopen request
    exact hanswer.trans (ih hanswer.isOpen)

theorem calls_givenUp (hopen : r.handle.token = some token) (requests : List Request) :
    ∃ uses, (∀ call ∈ uses, call.IsWithin token) ∧
      (r.serve requests).shutdown.calls = r.handle.calls ++ uses ++ [.closed token] ∧
      (r.serve requests).drop.calls = r.handle.calls ++ uses ++ [.closed token] := by
  have hserve := serve_staysOpen hopen requests
  obtain ⟨uses, huses, hwithin⟩ := hserve.calls
  refine ⟨uses, hwithin, ?_, ?_⟩
  · rw [shutdown, Handle.drop, close_close, calls_close hserve.isOpen, huses]
  · rw [drop, Handle.drop, calls_close hserve.isOpen, huses]

/-! ## The stages of a start -/

variable {config : Config} {repo : Repository} {loader : Loader} {base : Settings} {t : Transfer}
variable {path : Path} {engine : Engine} {message : Bytes}

/-- The search for the binary, which is the first stage. -/
def provision (config : Config) (repo : Repository) (t : Transfer) : Provision :=
  (provisioner config).resolve repo t

/-- What the engine of a start is opened with. -/
def openingMessage (base : Settings) (config : Config) : Bytes :=
  Wire.encode (openingSettings base config)

private theorem startUp_unresolved {e : Error} (h : (provision config repo t).result = .error e) :
    startUp config repo loader base t =
      { result := .error e, provision := provision config repo t } := by
  rw [provision] at h
  rw [startUp, h, provision]

private theorem startUp_nothing (h : (provision config repo t).result = .ok none) :
    startUp config repo loader base t =
      { result := .error .noBinary, provision := provision config repo t } := by
  rw [provision] at h
  rw [startUp, h, provision]

private theorem startUp_unloaded {e : Error}
    (h : (provision config repo t).result = .ok (some path))
    (hload : loader (provision config repo t).transfer.fs path = .error e) :
    startUp config repo loader base t =
      { result := .error e, provision := provision config repo t, loaded := some path } := by
  rw [provision] at h hload
  rw [startUp, h, provision]
  simp only [Handle.load, hload, Except.map]

private theorem startUp_loaded (h : (provision config repo t).result = .ok (some path))
    (hload : loader (provision config repo t).transfer.fs path = .ok engine) :
    startUp config repo loader base t =
      { result := (openHandle config (openingMessage base config) (.ofEngine engine)).1
        provision := provision config repo t
        loaded := some path
        calls := (openHandle config (openingMessage base config) (.ofEngine engine)).2.calls } := by
  rw [provision] at h hload
  rw [startUp, h, provision]
  simp only [Handle.load, hload, Except.map]
  rfl

/-! ## The opening -/

private theorem dropZeroSigns_engineSettings (config : Config) :
    config.engineSettings.dropZeroSigns = config.engineSettings := by
  have hoptional (key : String) (value : Option String) :
      (Config.optional key value).map Settings.Entry.dropZeroSign = Config.optional key value := by
    cases value <;> rfl
  rw [Config.engineSettings, Settings.dropZeroSigns_ofList]
  simp only [Config.engineEntries, List.map_append, hoptional]
  rfl

private theorem openingMessage_read (h : (openingMessage base config).length ≤ maxArgument) :
    ∃ read, Wire.decode (openingMessage base config) = .ok read ∧
      Settings.Overlays config.engineSettings base.dropZeroSigns read := by
  refine ⟨_, Wire.decode_encode (Nat.lt_of_le_of_lt h (by decide)), ?_⟩
  rw [openingSettings, Settings.dropZeroSigns_overlay, dropZeroSigns_engineSettings]
  exact Settings.overlay_overlays _ _

/-- A handle with the index that its engine has answered with. -/
def openedHandle (engine : Engine) (message : Bytes) : Handle where
  engine := engine
  token := some (engine.openIndex [] message).handle
  history := [.opened message (engine.openIndex [] message)]

private theorem openWith_ofEngine (h : message.length ≤ maxArgument) :
    (ofEngine engine).openWith message =
      if (engine.openIndex [] message).status = 0 then (.ok (), openedHandle engine message)
      else (.error (.engineOpen (engine.openIndex [] message).status),
        (ofEngine engine).record (.opened message (engine.openIndex [] message))) := by
  have hcheck : checkLength message.length "config" = .ok () := if_pos h
  simp only [openWith, isOpen, ofEngine, hcheck, Option.isSome_none, Bool.false_eq_true, if_false]
  rfl

private theorem openWith_tooLong (h : maxArgument < message.length) :
    (ofEngine engine).openWith message =
      (.error (.engineCall (.argumentTooLong "config" message.length)), ofEngine engine) := by
  have hcheck : checkLength message.length "config" =
      .error (.engineCall (.argumentTooLong "config" message.length)) := if_neg (Nat.not_le.mpr h)
  simp only [openWith, isOpen, ofEngine, hcheck]
  rfl

/-- A loaded engine is asked once to open an index, and nothing else if it refuses. -/
theorem startUp_opens (h : (provision config repo t).result = .ok (some path))
    (hload : loader (provision config repo t).transfer.fs path = .ok engine)
    (hfits : (openingMessage base config).length ≤ maxArgument) :
    let answer := engine.openIndex [] (openingMessage base config)
    (startUp config repo loader base t).calls = [.opened (openingMessage base config) answer] ∧
      (startUp config repo loader base t).result =
        if answer.status = 0 then .ok ⟨config, openedHandle engine (openingMessage base config)⟩
        else .error (.engineOpen answer.status) := by
  intro answer
  rw [startUp_loaded h hload, openHandle, openWith_ofEngine hfits]
  by_cases hstatus : answer.status = 0
  · rw [if_pos hstatus, if_pos hstatus]
    exact ⟨rfl, rfl⟩
  · rw [if_neg hstatus, if_neg hstatus]
    exact ⟨rfl, rfl⟩

private theorem startUp_tooLong (h : (provision config repo t).result = .ok (some path))
    (hload : loader (provision config repo t).transfer.fs path = .ok engine)
    (hlong : maxArgument < (openingMessage base config).length) :
    (startUp config repo loader base t).result =
        .error (.engineCall (.argumentTooLong "config" (openingMessage base config).length)) ∧
      (startUp config repo loader base t).calls = [] := by
  rw [startUp_loaded h hload, openHandle, openWith_tooLong hlong]
  exact ⟨rfl, rfl⟩

private theorem loaded_startUp (config : Config) (repo : Repository) (loader : Loader)
    (base : Settings) (t : Transfer) (path : Path) :
    (startUp config repo loader base t).loaded = some path ↔
      (provision config repo t).result = .ok (some path) := by
  rcases hresult : (provision config repo t).result with e | _ | found
  · rw [startUp_unresolved hresult]
    simp
  · rw [startUp_nothing hresult]
    simp
  · have hloaded : (startUp config repo loader base t).loaded = some found := by
      rcases hload : loader (provision config repo t).transfer.fs found with e | engine
      · rw [startUp_unloaded hresult hload]
      · rw [startUp_loaded hresult hload]
    rw [hloaded, Option.some.injEq, Except.ok.injEq, Option.some.injEq]

/-- Either the engine has not been asked for anything and there is no reader, or it has been asked
once to open an index, and there is a reader if it has. -/
theorem startUp_ends (config : Config) (repo : Repository) (loader : Loader) (base : Settings)
    (t : Transfer) :
    (∃ e, (startUp config repo loader base t).result = .error e ∧
        (startUp config repo loader base t).calls = []) ∨
      ∃ engine message, let answer := engine.openIndex [] message
        (startUp config repo loader base t).calls = [.opened message answer] ∧
          (startUp config repo loader base t).result =
            if answer.status = 0 then .ok ⟨config, openedHandle engine message⟩
            else .error (.engineOpen answer.status) := by
  rcases hresult : (provision config repo t).result with e | _ | path
  · rw [startUp_unresolved hresult]
    exact .inl ⟨e, rfl, rfl⟩
  · rw [startUp_nothing hresult]
    exact .inl ⟨_, rfl, rfl⟩
  rcases hload : loader (provision config repo t).transfer.fs path with e | engine
  · rw [startUp_unloaded hresult hload]
    exact .inl ⟨e, rfl, rfl⟩
  rcases Nat.lt_or_ge maxArgument (openingMessage base config).length with hlong | hfits
  · exact .inl ⟨_, startUp_tooLong hresult hload hlong⟩
  · exact .inr ⟨engine, _, startUp_opens hresult hload hfits⟩

private theorem result_of_opened {answer : Opening}
    (h : (startUp config repo loader base t).calls = [.opened message answer]) :
    ∃ handle, (startUp config repo loader base t).result =
      if answer.status = 0 then .ok ⟨config, handle⟩ else .error (.engineOpen answer.status) := by
  obtain ⟨e, -, hnone⟩ | ⟨engine, opened, hopened, hresult⟩ :=
    startUp_ends config repo loader base t
  · rw [hnone] at h
    cases h
  · rw [hopened] at h
    cases h
    exact ⟨_, hresult⟩

/-! ## The start -/

/-- What a start does with a base of settings, told by the outcome of its stages. -/
structure Starts (config : Config) (repo : Repository) (loader : Loader) (base : Settings)
    (t : Transfer) (out : Startup) : Prop where
  /-- The loader is given the path that has been found, and nothing else. -/
  loads : ∀ path, out.loaded = some path ↔ (provision config repo t).result = .ok (some path)
  /-- A stage that fails ends the start, with nothing asked of an engine. -/
  unresolved : ∀ e, (provision config repo t).result = .error e →
    out.result = .error e ∧ out.calls = []
  nothing : (provision config repo t).result = .ok none →
    out.result = .error .noBinary ∧ out.calls = []
  unloaded : ∀ path e, (provision config repo t).result = .ok (some path) →
    loader (provision config repo t).transfer.fs path = .error e →
      out.result = .error e ∧ out.calls = []
  tooLong : ∀ path engine, (provision config repo t).result = .ok (some path) →
    loader (provision config repo t).transfer.fs path = .ok engine →
    maxArgument < (openingMessage base config).length →
      out.result = .error (.engineCall
        (.argumentTooLong "config" (openingMessage base config).length)) ∧ out.calls = []
  /-- A loaded engine is opened once, with the settings of the configuration over those of the
  base, -/
  opens : ∀ path engine, (provision config repo t).result = .ok (some path) →
    loader (provision config repo t).transfer.fs path = .ok engine →
    (openingMessage base config).length ≤ maxArgument →
      out.calls =
        [.opened (openingMessage base config) (engine.openIndex [] (openingMessage base config))]
  message : (openingMessage base config).length ≤ maxArgument →
    ∃ read, Wire.decode (openingMessage base config) = .ok read ∧
      Settings.Overlays config.engineSettings base.dropZeroSigns read
  /-- and it is not closed if it refuses. -/
  refused : ∀ message answer, out.calls = [.opened message answer] → answer.status ≠ 0 →
    out.result = .error (.engineOpen answer.status)
  started : ∀ message answer, out.calls = [.opened message answer] → answer.status = 0 →
    ∃ r, out.result = .ok r ∧ r.config = config
  /-- A reader closes the index that it has been started with, once and after all lookups. -/
  closes : ∀ r, out.result = .ok r → ∃ message answer, answer.status = 0 ∧
    out.calls = [.opened message answer] ∧
    ∀ requests, ∃ uses, (∀ call ∈ uses, call.IsWithin answer.handle) ∧
      (r.serve requests).shutdown.calls =
        .opened message answer :: uses ++ [.closed answer.handle] ∧
      (r.serve requests).drop.calls = .opened message answer :: uses ++ [.closed answer.handle]

theorem startUp_starts (config : Config) (repo : Repository) (loader : Loader) (base : Settings)
    (t : Transfer) :
    Starts config repo loader base t (startUp config repo loader base t) where
  loads := loaded_startUp config repo loader base t
  unresolved e h := by
    rw [startUp_unresolved h]
    exact ⟨rfl, rfl⟩
  nothing h := by
    rw [startUp_nothing h]
    exact ⟨rfl, rfl⟩
  unloaded path e h hload := by
    rw [startUp_unloaded h hload]
    exact ⟨rfl, rfl⟩
  tooLong path engine := startUp_tooLong
  opens path engine h hload hfits := (startUp_opens h hload hfits).1
  message := openingMessage_read
  refused message answer hcalls hstatus := by
    obtain ⟨handle, hresult⟩ := result_of_opened hcalls
    rw [hresult, if_neg hstatus]
  started message answer hcalls hstatus := by
    obtain ⟨handle, hresult⟩ := result_of_opened hcalls
    exact ⟨_, hresult.trans (if_pos hstatus), rfl⟩
  closes r hr := by
    obtain ⟨e, herror, -⟩ | ⟨engine, opened, hopened, hresult⟩ :=
      startUp_ends config repo loader base t
    · rw [herror] at hr
      cases hr
    by_cases hstatus : (engine.openIndex [] opened).status = 0
    · rw [hresult, if_pos hstatus] at hr
      cases hr
      exact ⟨opened, _, hstatus, hopened, calls_givenUp rfl⟩
    · rw [hresult, if_neg hstatus] at hr
      cases hr

/-! ### A mount directory with a binary -/

def sampleConfig : Config := { mountDirectory := bytesOf "/m" }

/-- A loader that makes an engine of any file. -/
def sampleLoader : Loader := fun _ _ => .ok ({} : Reference).engine

private theorem sampleLoader_ok {fs : FileSystem} :
    sampleLoader fs path = .ok ({} : Reference).engine := rfl

/-- A start from a binary that is there, with an engine that opens. -/
def sampleStart (base : Settings) : Startup :=
  startUp sampleConfig (.ofObjects (.ok []) []) sampleLoader base
    { fs := Provisioner.versionedTree }

private theorem provision_sampleStart :
    (provision sampleConfig (.ofObjects (.ok []) []) { fs := Provisioner.versionedTree }).result =
      .ok (some (bytesOf "/m/bin/1.0.0-e")) := by
  decide +kernel

/-- Not everything that is set besides a configuration reaches the engine: a zero loses its sign,
and a text that is too long keeps the engine from being opened at all. -/
theorem startUp_loses_settings :
    (let base := Settings.ofList [.float "f" ⟨2147483648⟩]
      ∃ message answer read, (sampleStart base).calls = [.opened message answer] ∧
        Wire.decode message = .ok read ∧
        sampleConfig.engineSettings.floats.get? "f" = none ∧
        base.floats.get? "f" = some ⟨2147483648⟩ ∧ read.floats.get? "f" = some ⟨0⟩) ∧
      let base := Settings.ofList [.string "s" (String.ofList (List.replicate 2147483648 'x'))]
      (sampleStart base).loaded = some (bytesOf "/m/bin/1.0.0-e") ∧
        (sampleStart base).calls = [] := by
  constructor
  · intro base
    have hsize : (openingMessage base sampleConfig).length ≤ maxArgument := by decide +kernel
    obtain ⟨hcalls, -⟩ := startUp_opens provision_sampleStart sampleLoader_ok hsize
    obtain ⟨read, hread, hover⟩ := openingMessage_read hsize
    refine ⟨_, _, read, hcalls, hread, by decide +kernel, rfl, ?_⟩
    rw [hover.floats]
    decide +kernel
  · intro base
    have hset : (openingSettings base sampleConfig).strings.get? "s" =
        some (String.ofList (List.replicate 2147483648 'x')) := by
      rw [openingSettings, (Settings.overlay_overlays base _).strings]
      have hnot : sampleConfig.engineSettings.strings.get? "s" = none := by decide +kernel
      rw [hnot]
      rfl
    have hsize : (bytesOf (String.ofList (List.replicate 2147483648 'x'))).length = 2147483648 := by
      rw [bytesOf, String.toList_ofList, Utf8.encode_ascii, List.length_map, List.length_replicate]
      intro c hc
      obtain rfl := List.eq_of_mem_replicate hc
      decide
    have hlong : maxArgument < (openingMessage base sampleConfig).length := by
      refine Nat.lt_of_lt_of_le ?_ (Wire.length_string_le hset)
      rw [hsize]
      decide
    exact ⟨(loaded_startUp _ _ _ base _ _).mpr provision_sampleStart,
      (startUp_tooLong provision_sampleStart sampleLoader_ok hlong).2⟩

end Reader

end EngineClient
