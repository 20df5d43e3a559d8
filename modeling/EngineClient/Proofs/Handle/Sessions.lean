import Mathlib
import EngineClient.Engine.Echo
import EngineClient.Proofs.Handle.Run

/-!
# Sessions with an index

Indexes are opened and closed in turn, and lookups are made only between the opening of an index and
its closing, in that index. The token of a handle is what the log says: the index of the latest
opening that succeeded, or none once that is closed.
-/

namespace EngineClient

namespace Call

/-- A call that is made while no index is open: a health check, or an opening that fails. -/
def IsIdle : Call → Prop
  | .health _ _ => True
  | .opened _ answer => answer.status ≠ 0
  | _ => False

/-- A call that is made while an index is open: a health check, a lookup in that index, or the
return of a buffer. -/
def IsWithin (token : Int64) : Call → Prop
  | .health _ _ => True
  | .got asked _ _ _ => asked = token
  | .multigot asked _ _ _ => asked = token
  | .freed _ => True
  | _ => False

private theorem isWithin_of_lookup? {call : Call} {token : Int64} {buffer : Buffer}
    (h : call.lookup? = some (token, buffer)) : call.IsWithin token := by
  cases call with
  | got | multigot =>
    cases h
    rfl
  | _ => cases h

end Call

/-- A log in which indexes are opened and closed in turn: a session is an opening that succeeds, any
number of calls in the index that it answers with, and the closing of that index. Outside the
sessions there are only health checks and openings that fail. -/
inductive Balanced : List Call → Prop
  | nil : Balanced []
  | idle {log : List Call} {call : Call} (hlog : Balanced log) (hcall : call.IsIdle) :
      Balanced (log ++ [call])
  | session {log inside : List Call} {config : Bytes} {answer : Opening} (hlog : Balanced log)
      (hok : answer.status = 0) (hinside : ∀ call ∈ inside, call.IsWithin answer.handle) :
      Balanced (log ++ .opened config answer :: inside ++ [.closed answer.handle])

/-- A token that agrees with a log: there is none outside the sessions, and within one it is the
index that the opening answered with. -/
inductive Tracks : Option Int64 → List Call → Prop
  | outside {log : List Call} (hlog : Balanced log) : Tracks none log
  | within {log inside : List Call} {config : Bytes} {answer : Opening} (hlog : Balanced log)
      (hok : answer.status = 0) (hinside : ∀ call ∈ inside, call.IsWithin answer.handle) :
      Tracks (some answer.handle) (log ++ .opened config answer :: inside)

namespace Tracks

variable {token : Option Int64} {index : Int64} {log more : List Call}

private theorem goOn (h : Tracks (some index) log) (hmore : ∀ call ∈ more, call.IsWithin index) :
    Tracks (some index) (log ++ more) := by
  cases h with
  | within hlog hok hinside =>
    rw [List.append_assoc, List.cons_append]
    refine .within hlog hok fun call hcall => ?_
    rcases List.mem_append.mp hcall with hcall | hcall
    · exact hinside call hcall
    · exact hmore call hcall

private theorem closeIndex (h : Tracks (some index) log) :
    Tracks none (log ++ [.closed index]) := by
  cases h with
  | within hlog hok hinside => exact .outside (.session hlog hok hinside)

private theorem balanced (h : Tracks none log) : Balanced log := by
  cases h with
  | outside hlog => exact hlog

private theorem checkHealth (h : Tracks token log) (probe : Bytes) (status : Int64) :
    Tracks token (log ++ [.health probe status]) := by
  cases token with
  | none => exact .outside (.idle h.balanced trivial)
  | some index =>
    apply h.goOn
    intro call hcall
    obtain rfl := List.mem_singleton.mp hcall
    trivial

end Tracks

namespace Handle

variable {h h' : Handle} {result : Except Error Reply}

theorem calls_lookUp {call : Call} {token : Int64} {buffer : Buffer}
    (hcall : call.lookup? = some (token, buffer)) :
    ∃ more, ((h.record call).release buffer).calls = h.calls ++ more ∧
      ∀ other ∈ more, other.IsWithin token := by
  refine ⟨call :: if buffer.isNull then [] else [.freed buffer], ?_, ?_⟩
  · rw [calls_release, calls_record, List.append_assoc]
    rfl
  · intro other hother
    rcases List.mem_cons.mp hother with rfl | hother
    · exact Call.isWithin_of_lookup? hcall
    · split at hother
      · cases hother
      · obtain rfl := List.mem_singleton.mp hother
        trivial

private theorem Step.tracks (htracks : Tracks h.token h.calls) (hstep : Step h result h') :
    Tracks h'.token h'.calls := by
  cases hstep with
  | stay => exact htracks
  | checkHealth probe status =>
    rw [calls_record]
    exact htracks.checkHealth probe status
  | openIndex config answer hclosed hok =>
    have hcalls := calls_record h (.opened config answer)
    rw [hclosed] at htracks
    exact hcalls ▸ .within htracks.balanced hok (by simp)
  | openFails config answer hclosed hfail =>
    rw [calls_record, token_record, hclosed]
    rw [hclosed] at htracks
    exact .outside (.idle htracks.balanced hfail)
  | closeIndex token hopen =>
    have hcalls := calls_record h (.closed token)
    rw [hopen] at htracks
    exact hcalls ▸ htracks.closeIndex
  | @lookUp token call buffer result hopen hcall =>
    obtain ⟨more, hmore, hwithin⟩ := calls_lookUp (h := h) hcall
    rw [hmore, token_release, token_record, hopen]
    rw [hopen] at htracks
    exact htracks.goOn hwithin

/-- An operation reports a status exactly if it has asked the engine to open an index and has been
answered with that status, other than 0. -/
theorem Step.engineOpen_iff (hstep : Step h result h') (status : Int64) :
    result = .error (.engineOpen status) ↔ status ≠ 0 ∧
      ∃ config handle, h'.calls = h.calls ++ [.opened config ⟨handle, status⟩] := by
  constructor
  · intro hresult
    cases hstep with
    | stay _ hkind => exact absurd ⟨status, rfl⟩ (hkind _ hresult)
    | checkHealth | openIndex | closeIndex => cases hresult
    | openFails config answer hclosed hfail =>
      cases hresult
      exact ⟨hfail, config, answer.handle, calls_record h _⟩
    | lookUp result _ _ hkind =>
      obtain ⟨reason, hreason⟩ := hkind _ hresult
      cases hreason
  · rintro ⟨hstatus, config, handle, hcalls⟩
    cases hstep with
    | stay => simp at hcalls
    | checkHealth => simp at hcalls
    | openIndex config' answer hclosed hok =>
      change (h.record _).calls = _ at hcalls
      obtain ⟨-, rfl⟩ : config' = config ∧ answer = ⟨handle, status⟩ := by simpa using hcalls
      exact absurd hok hstatus
    | openFails config' answer =>
      obtain ⟨-, rfl⟩ : config' = config ∧ answer = ⟨handle, status⟩ := by simpa using hcalls
      rfl
    | closeIndex =>
      change (h.record _).calls = _ at hcalls
      simp at hcalls
    | lookUp result hopen hcall =>
      rw [calls_release, calls_record, List.append_assoc] at hcalls
      cases List.head_eq_of_cons_eq (List.append_cancel_left hcalls)
      cases hcall

private theorem Step.closed_of_engineOpen {status : Int64}
    (hstep : Step h (.error (.engineOpen status)) h') : h'.isOpen = false := by
  cases hstep with
  | stay _ hkind => exact absurd ⟨status, rfl⟩ (hkind _ rfl)
  | openFails config answer hclosed => simp [isOpen, hclosed]
  | lookUp result _ _ hkind =>
    obtain ⟨reason, hreason⟩ := hkind _ rfl
    cases hreason

/-- Whether an error says that there is no index to ask, or that a text cannot be handed to the
engine because of a NUL. -/
def IsRefusal (e : Error) : Prop :=
  e = .engineClosed ∨ e = .engineCall .nulInProbe ∨ ∃ field, e = .engineCall (.nulInField field)

private theorem Step.eq_of_isRefusal {e : Error} (hstep : Step h (.error e) h') (he : IsRefusal e) :
    h' = h := by
  cases hstep with
  | stay => rfl
  | openFails => rcases he with he | he | ⟨field, he⟩ <;> cases he
  | lookUp result hopen hcall hresult =>
    obtain ⟨reason, rfl⟩ := hresult e rfl
    rcases he with he | he | ⟨field, he⟩ <;> cases he

/-- What an operation has made of a handle agrees with what it reports. -/
structure Orderly (h : Handle) (result : Except Error Reply) (h' : Handle) : Prop where
  /-- A status is reported exactly if the engine has answered with it to an opening. -/
  reports : ∀ status, result = .error (.engineOpen status) ↔ status ≠ 0 ∧
    ∃ config handle, h'.calls = h.calls ++ [.opened config ⟨handle, status⟩]
  /-- After an opening that fails no index is open. -/
  closed : ∀ status, result = .error (.engineOpen status) → h'.isOpen = false
  /-- An operation that is refused does nothing. -/
  unchanged : ∀ e, result = .error e → IsRefusal e → h' = h

private theorem Step.orderly (hstep : Step h result h') : Orderly h result h' where
  reports := hstep.engineOpen_iff
  closed := by
    rintro status rfl
    exact hstep.closed_of_engineOpen
  unchanged := by
    rintro e rfl he
    exact hstep.eq_of_isRefusal he

/-- In the log of every run, ended by the drop of the handle, indexes are opened and closed in turn
with the lookups in between; and any operation that follows a run is orderly. -/
theorem session_keeps_discipline (engine : Engine) (ops : List Operation) :
    Balanced (session engine ops).calls ∧
    ∀ op, Orderly ((ofEngine engine).run ops) (((ofEngine engine).run ops).perform op).1
      (((ofEngine engine).run ops).perform op).2 := by
  constructor
  · obtain ⟨htracks, hnone⟩ := session_induction (P := fun h => Tracks h.token h.calls) engine
      (fun _ _ _ htracks hstep => hstep.tracks htracks) (.outside .nil) ops
    rw [hnone] at htracks
    exact htracks.balanced
  · exact fun op => (perform_step _ op).orderly

theorem session_keeps_discipline_failed_open :
    let ops := [.openWith [], .close, .openWith (bytesOf "!x")]
    Balanced (session Echo.engine ops).calls ∧
      (((ofEngine Echo.engine).run ops).perform (.get [1] "f")).2.calls =
        [.opened [] ⟨1000, 0⟩, .closed 1000, .opened (bytesOf "!x") ⟨0, 2⟩] := by
  intro ops
  obtain ⟨hbalanced, horderly⟩ := session_keeps_discipline Echo.engine ops
  refine ⟨hbalanced, ?_⟩
  rw [(horderly (.get [1] "f")).unchanged .engineClosed rfl (.inl rfl)]
  decide +kernel

end Handle

end EngineClient
