import Mathlib
import EngineClient.Handle
import EngineClient.Proofs.Slot.Grammar

/-!
# Runs of a handle

The owner of a handle performs operations on it in any order and drops it in the end. `Step` tells
once what an operation can do: what it asks of the engine, what becomes of the index and with which
errors it can fail. Whatever every step keeps is kept by every run.
-/

namespace EngineClient

/-! ## Kinds of failures -/

/-- If a computation fails, its error is of one kind. -/
def FailsOnly {α : Type} (kind : Error → Prop) (r : Except Error α) : Prop :=
  ∀ e, r = .error e → kind e

namespace FailsOnly

variable {α β : Type} {kind kind' : Error → Prop} {r : Except Error α}

private theorem ok (a : α) : FailsOnly kind (.ok a) := nofun

private theorem error {e : Error} (h : kind e) : FailsOnly kind (.error e : Except Error α) := by
  rintro _ ⟨⟩
  exact h

private theorem mono (h : FailsOnly kind r) (hkind : ∀ e, kind e → kind' e) : FailsOnly kind' r :=
  fun e he => hkind e (h e he)

private theorem bind {next : α → Except Error β} (h : FailsOnly kind r)
    (hnext : ∀ a, FailsOnly kind (next a)) : FailsOnly kind (r.bind next) := by
  cases r with
  | error e => exact error (h e rfl)
  | ok a => exact hnext a

private theorem map (h : FailsOnly kind r) (f : α → β) : FailsOnly kind (r.map f) := by
  cases r with
  | error e => exact error (h e rfl)
  | ok a => exact ok (f a)

end FailsOnly

namespace Error

/-- The call is not made, or not accepted by the engine. -/
def IsCall (e : Error) : Prop := ∃ reason, e = .engineCall reason

/-- An answer of the engine cannot be read. -/
def IsUnreadable (e : Error) : Prop := ∃ reason, e = .decode reason

/-- The engine has reported a status. -/
def IsStatus (e : Error) : Prop := ∃ status, e = .engineOpen status

private theorem IsCall.not_isStatus {e : Error} (h : e.IsCall) : ¬e.IsStatus := by
  obtain ⟨reason, rfl⟩ := h
  nofun

end Error

private theorem Slot.encode_fails (items : List Bytes) : FailsOnly Error.IsCall (encode items) := by
  induction items with
  | nil => exact .ok []
  | cons item rest ih =>
    rw [encode]
    split
    · exact .error ⟨_, rfl⟩
    · cases hrest : encode rest with
      | ok row => exact .ok _
      | error e => exact .error (ih e hrest)

theorem Slot.decode_fails (buffer : Bytes) : FailsOnly Error.IsUnreadable (decode buffer) := by
  intro e he
  rcases row_or_refused [] 0 buffer with ⟨values, hfits, rfl⟩ | ⟨cause, hcause⟩
  · rw [decode_wire hfits] at he
    cases he
  · rw [decode, hcause] at he
    cases he
    exact ⟨cause, rfl⟩

theorem Slot.texts_fails (values : List (Option Bytes)) :
    FailsOnly Error.IsUnreadable (texts values) := by
  have honto : ∀ found index, FailsOnly Error.IsUnreadable (textsOnto found index values) := by
    induction values with
    | nil => exact fun found _ => .ok found
    | cons slot rest ih =>
      intro found index
      cases slot with
      | none => exact ih _ _
      | some value =>
        rw [textsOnto]
        split
        · exact .error ⟨_, rfl⟩
        · exact ih _ _
  exact (honto [] 0).map List.reverse

/-- The index that a lookup asks and the buffer that it is answered with. -/
def Call.lookup? : Call → Option (Int64 × Buffer)
  | .got token _ _ answer => some (token, answer)
  | .multigot token _ _ answer => some (token, answer)
  | _ => none

namespace Handle

variable {h h' : Handle} {α β : Type}

private theorem checkLength_fails (size : Nat) (what : String) :
    FailsOnly Error.IsCall (checkLength size what) := by
  rw [checkLength]
  split
  · exact .ok ()
  · exact .error ⟨_, rfl⟩

theorem batchArguments_fails (batch : Batch) : FailsOnly Error.IsCall (batchArguments batch) :=
  (Slot.encode_fails _).bind fun keys => (Slot.encode_fails _).bind fun fields =>
    (checkLength_fails keys.length _).bind fun _ =>
      (checkLength_fails fields.length _).bind fun _ => .ok _

theorem textValue_fails (field : String) (value : Option Bytes) :
    FailsOnly Error.IsUnreadable (textValue field value) := by
  cases value with
  | none => exact .ok none
  | some bytes =>
    rw [textValue]
    split
    · exact .ok _
    · exact .error ⟨_, rfl⟩

private theorem batchValues_fails (count : Nat) (buffer : Buffer) :
    FailsOnly Error.IsUnreadable (batchValues count buffer) := by
  rw [batchValues]
  split
  · exact .ok _
  · cases hread : Slot.decode buffer.contents with
    | error e => exact .error (Slot.decode_fails _ e hread)
    | ok values =>
      simp only
      split
      · exact .ok values
      · exact .error ⟨_, rfl⟩

/-! ## Operations -/

/-- Something that the owner of a handle asks of it. -/
inductive Operation where
  | openWith (config : Bytes)
  | close
  | healthCheck (probe : String)
  | get (key : Bytes) (field : String)
  | getText (key : Bytes) (field : String)
  | multiget (batch : Batch)
  | multigetTexts (batch : Batch)
deriving Repr, DecidableEq

inductive Reply where
  | done
  | healthy (yes : Bool)
  | value (value : Option Bytes)
  | text (text : Option String)
  | values (values : List (Option Bytes))
  | texts (texts : List (Option String))
deriving Repr, DecidableEq

def reply (form : α → Reply) (r : Except Error α × Handle) : Except Error Reply × Handle :=
  (r.1.map form, r.2)

def perform (h : Handle) : Operation → Except Error Reply × Handle
  | .openWith config => reply (fun _ => .done) (h.openWith config)
  | .close => (.ok .done, h.close)
  | .healthCheck probe => reply .healthy (h.healthCheck probe)
  | .get key field => reply .value (h.get key field)
  | .getText key field => reply .text (h.getText key field)
  | .multiget batch => reply .values (h.multiget batch)
  | .multigetTexts batch => reply .texts (h.multigetTexts batch)

def run (h : Handle) (ops : List Operation) : Handle := ops.foldl (fun h op => (h.perform op).2) h

/-- The handle on a loaded engine after some operations and its drop. -/
def session (engine : Engine) (ops : List Operation) : Handle := ((ofEngine engine).run ops).drop

/-! ## Lookups -/

/-- A lookup ends before the engine is asked, or it asks the index that is open, hands back the
buffer and can then only fail because of what the buffer held. -/
inductive LooksUp (h : Handle) : Except Error α → Handle → Prop
  | unasked (result : Except Error α) (hresult : FailsOnly (¬·.IsStatus) result) :
      LooksUp h result h
  | asked {token : Int64} {call : Call} {buffer : Buffer} (result : Except Error α)
      (hopen : h.token = some token) (hcall : call.lookup? = some (token, buffer))
      (hresult : FailsOnly Error.IsUnreadable result) :
      LooksUp h result ((h.record call).release buffer)

theorem LooksUp.bind {result : Except Error α} {next : α → Except Error β}
    (hlook : LooksUp h result h') (hnext : ∀ a, FailsOnly Error.IsUnreadable (next a)) :
    LooksUp h (result.bind next) h' := by
  cases hlook with
  | unasked _ hresult =>
    refine .unasked _ (hresult.bind fun a => (hnext a).mono ?_)
    rintro _ ⟨reason, rfl⟩
    nofun
  | asked _ hopen hcall hresult => exact .asked _ hopen hcall (hresult.bind hnext)

theorem get_looksUp (h : Handle) (key : Bytes) (field : String) :
    LooksUp h (h.get key field).1 (h.get key field).2 := by
  rw [get]
  cases hlength : checkLength key.length "primary key" with
  | error e => exact .unasked _ (.error (checkLength_fails _ _ e hlength).not_isStatus)
  | ok =>
    simp only
    split
    · exact .unasked _ (.error nofun)
    · cases htoken : h.token with
      | none => exact .unasked _ (.error nofun)
      | some token => exact .asked _ htoken rfl (.ok _)

theorem multiget_looksUp (h : Handle) (batch : Batch) :
    LooksUp h (h.multiget batch).1 (h.multiget batch).2 := by
  rw [multiget]
  split
  · exact .unasked _ (.ok [])
  · cases harguments : batchArguments batch with
    | error e => exact .unasked _ (.error (batchArguments_fails batch e harguments).not_isStatus)
    | ok arguments =>
      cases htoken : h.token with
      | none => exact .unasked _ (.error nofun)
      | some token => exact .asked _ htoken rfl (batchValues_fails _ _)

/-! ## Steps -/

/-- What an operation may answer and do to a handle. -/
inductive Step (h : Handle) : Except Error Reply → Handle → Prop
  /-- Nothing is asked of the engine, which reports no status. -/
  | stay (result : Except Error Reply) (hresult : FailsOnly (¬·.IsStatus) result) : Step h result h
  | checkHealth (probe : Bytes) (status : Int64) :
      Step h (.ok (.healthy (status == 0))) (h.record (.health probe status))
  | openIndex (config : Bytes) (answer : Opening) (hclosed : h.token = none)
      (hok : answer.status = 0) :
      Step h (.ok .done) { h.record (.opened config answer) with token := some answer.handle }
  | openFails (config : Bytes) (answer : Opening) (hclosed : h.token = none)
      (hfail : answer.status ≠ 0) :
      Step h (.error (.engineOpen answer.status)) (h.record (.opened config answer))
  | closeIndex (token : Int64) (hopen : h.token = some token) :
      Step h (.ok .done) { h.record (.closed token) with token := none }
  | lookUp {token : Int64} {call : Call} {buffer : Buffer} (result : Except Error Reply)
      (hopen : h.token = some token) (hcall : call.lookup? = some (token, buffer))
      (hresult : FailsOnly Error.IsUnreadable result) :
      Step h result ((h.record call).release buffer)

private theorem LooksUp.step {result : Except Error α} (hlook : LooksUp h result h')
    (form : α → Reply) :
    Step h (result.map form) h' := by
  cases hlook with
  | unasked _ hresult => exact .stay _ (hresult.map form)
  | asked _ hopen hcall hresult => exact .lookUp _ hopen hcall (hresult.map form)

private theorem close_step (h : Handle) : Step h (.ok .done) h.close := by
  rw [close]
  cases htoken : h.token with
  | none => exact .stay _ (.ok _)
  | some token => exact .closeIndex token htoken

private theorem openWith_step (h : Handle) (config : Bytes) :
    Step h (h.perform (.openWith config)).1 (h.perform (.openWith config)).2 := by
  rw [perform, reply, openWith, isOpen]
  cases htoken : h.token with
  | some token => exact .stay _ (.ok _)
  | none =>
    cases hlength : checkLength config.length "config" with
    | error e => exact .stay _ (.error (checkLength_fails _ _ e hlength).not_isStatus)
    | ok =>
      simp only [Option.isSome_none, Bool.false_eq_true, if_false]
      split
      · next hok => exact .openIndex config _ htoken hok
      · next hfail => exact .openFails config _ htoken hfail

private theorem healthCheck_step (h : Handle) (probe : String) :
    Step h (h.perform (.healthCheck probe)).1 (h.perform (.healthCheck probe)).2 := by
  rw [perform, reply, healthCheck]
  split
  · exact .stay _ (.error nofun)
  · exact .checkHealth _ _

theorem perform_step (h : Handle) (op : Operation) : Step h (h.perform op).1 (h.perform op).2 := by
  cases op with
  | openWith config => exact openWith_step h config
  | close => exact close_step h
  | healthCheck probe => exact healthCheck_step h probe
  | get key field => exact (get_looksUp h key field).step _
  | getText key field => exact ((get_looksUp h key field).bind (textValue_fails field)).step _
  | multiget batch => exact (multiget_looksUp h batch).step _
  | multigetTexts batch => exact ((multiget_looksUp h batch).bind Slot.texts_fails).step _

/-! ## Runs -/

/-- What every step keeps is kept by a run. -/
theorem run_induction {P : Handle → Prop} (hstep : ∀ h result h', P h → Step h result h' → P h')
    (hstart : P h) (ops : List Operation) : P (h.run ops) := by
  induction ops generalizing h with
  | nil => exact hstart
  | cons op ops ih => exact ih (hstep h _ _ hstart (perform_step h op))

/-- What every step keeps is kept until the drop, and then nothing is open. -/
theorem session_induction {P : Handle → Prop} (engine : Engine)
    (hstep : ∀ h result h', P h → Step h result h' → P h') (hstart : P (ofEngine engine))
    (ops : List Operation) : P (session engine ops) ∧ (session engine ops).token = none := by
  refine ⟨hstep _ _ _ (run_induction hstep hstart ops) (close_step _), ?_⟩
  rw [session, drop, close]
  cases htoken : ((ofEngine engine).run ops).token with
  | none => exact htoken
  | some token => rfl

/-! ## Logs -/

@[simp] theorem calls_record (h : Handle) (call : Call) :
    (h.record call).calls = h.calls ++ [call] := by
  simp [calls, record]

@[simp] theorem token_record (h : Handle) (call : Call) : (h.record call).token = h.token := rfl

theorem calls_release (h : Handle) (buffer : Buffer) :
    (h.release buffer).calls = h.calls ++ if buffer.isNull then [] else [.freed buffer] := by
  rw [release]
  split
  · simp
  · exact calls_record h _

@[simp] theorem token_release (h : Handle) (buffer : Buffer) :
    (h.release buffer).token = h.token := by
  rw [release]
  split <;> rfl

end Handle

end EngineClient
