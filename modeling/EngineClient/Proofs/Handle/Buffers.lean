import Mathlib
import EngineClient.Engine.Echo
import EngineClient.Proofs.Handle.Run

/-!
# The buffers of the engine

A lookup that is answered with a buffer hands it back before anything else is asked of the engine,
and nothing else is ever handed back. This holds of the log of every run, whatever the engine
answers and whatever the operations make of it.
-/

namespace EngineClient

/-- A log in which every buffer of the engine goes back to it once, right after the lookup that
returned it. Answers without memory do not go back. -/
structure HandsBack (log : List Call) : Prop where
  /-- What follows a lookup that returned a buffer is the return of that buffer. -/
  returned : ∀ (i : Nat) (call : Call) (token : Int64) (buffer : Buffer), log[i]? = some call →
    call.lookup? = some (token, buffer) → buffer.isNull = false →
      log[i + 1]? = some (.freed buffer)
  /-- What precedes the return of a buffer is a lookup that returned it. -/
  owed : ∀ (i : Nat) (buffer : Buffer), log[i]? = some (.freed buffer) → buffer.isNull = false ∧
    ∃ (j : Nat) (call : Call) (token : Int64), i = j + 1 ∧ log[j]? = some call ∧
      call.lookup? = some (token, buffer)

namespace HandsBack

variable {log more : List Call} {call : Call} {token : Int64} {buffer : Buffer}

private theorem append (h : HandsBack log) (h' : HandsBack more) : HandsBack (log ++ more) where
  returned := by
    intro i call token buffer hcall hlookup hnull
    by_cases hi : i < log.length
    · rw [List.getElem?_append_left hi] at hcall
      have hnext := h.returned i call token buffer hcall hlookup hnull
      obtain ⟨hbound, -⟩ := List.getElem?_eq_some_iff.mp hnext
      rw [List.getElem?_append_left hbound, hnext]
    · have hle := Nat.le_of_not_lt hi
      rw [List.getElem?_append_right hle] at hcall
      rw [List.getElem?_append_right (Nat.le_succ_of_le hle), Nat.succ_sub hle]
      exact h'.returned _ call token buffer hcall hlookup hnull
  owed := by
    intro i buffer hfreed
    by_cases hi : i < log.length
    · rw [List.getElem?_append_left hi] at hfreed
      obtain ⟨hnull, j, call, token, rfl, hcall, hlookup⟩ := h.owed i buffer hfreed
      refine ⟨hnull, j, call, token, rfl, ?_, hlookup⟩
      rw [List.getElem?_append_left (Nat.lt_of_succ_lt hi), hcall]
    · have hle := Nat.le_of_not_lt hi
      rw [List.getElem?_append_right hle] at hfreed
      obtain ⟨hnull, j, call, token, hij, hcall, hlookup⟩ := h'.owed _ buffer hfreed
      refine ⟨hnull, log.length + j, call, token, by omega, ?_, hlookup⟩
      rw [List.getElem?_append_right (Nat.le_add_right _ _), Nat.add_sub_cancel_left, hcall]

private theorem nil : HandsBack [] where
  returned := by simp
  owed := by simp

private theorem other (hlookup : call.lookup? = none) (hfreed : ∀ buffer, call ≠ .freed buffer) :
    HandsBack [call] where
  returned := by
    intro i call' token buffer hcall hsome
    obtain ⟨-, rfl⟩ : i = 0 ∧ call = call' := by simpa [List.getElem?_singleton] using hcall
    rw [hlookup] at hsome
    cases hsome
  owed := by
    intro i buffer hcall
    obtain ⟨-, rfl⟩ : i = 0 ∧ call = .freed buffer := by
      simpa [List.getElem?_singleton] using hcall
    exact absurd rfl (hfreed buffer)

private theorem lookup (hlookup : call.lookup? = some (token, buffer)) :
    HandsBack (call :: if buffer.isNull then [] else [.freed buffer]) := by
  have hfreed : ∀ other, call ≠ .freed other := by
    rintro other rfl
    cases hlookup
  cases hnull : buffer.isNull with
  | true =>
    refine ⟨?_, ?_⟩
    · intro i call' token' buffer' hcall hsome hmemory
      obtain ⟨-, rfl⟩ : i = 0 ∧ call = call' := by simpa [List.getElem?_singleton] using hcall
      rw [hlookup] at hsome
      cases hsome
      rw [hnull] at hmemory
      cases hmemory
    · intro i other hcall
      obtain ⟨-, rfl⟩ : i = 0 ∧ call = .freed other := by
        simpa [List.getElem?_singleton] using hcall
      exact absurd rfl (hfreed other)
  | false =>
    refine ⟨?_, ?_⟩
    · intro i call' token' buffer' hcall hsome _
      match i with
      | 0 =>
        obtain rfl := Option.some.inj hcall
        rw [hlookup] at hsome
        cases hsome
        rfl
      | 1 =>
        obtain rfl := Option.some.inj hcall
        cases hsome
      | i + 2 => cases hcall
    · intro i other hcall
      match i with
      | 0 => exact absurd (Option.some.inj hcall) (hfreed other)
      | 1 =>
        cases hcall
        exact ⟨hnull, 0, call, token, rfl, rfl, hlookup⟩
      | i + 2 => cases hcall

end HandsBack

namespace Handle

/-- Whatever an operation answers, it owes the engine no buffer in the end. -/
theorem Step.handsBack {h h' : Handle} {result : Except Error Reply} (hlog : HandsBack h.calls)
    (hstep : Step h result h') : HandsBack h'.calls := by
  cases hstep with
  | stay => exact hlog
  | checkHealth probe status =>
    rw [calls_record]
    exact hlog.append (.other rfl nofun)
  | openIndex config answer =>
    have hcalls := calls_record h (.opened config answer)
    exact hcalls ▸ hlog.append (.other rfl nofun)
  | openFails config answer =>
    rw [calls_record]
    exact hlog.append (.other rfl nofun)
  | closeIndex token =>
    have hcalls := calls_record h (.closed token)
    exact hcalls ▸ hlog.append (.other rfl nofun)
  | lookUp result hopen hcall =>
    rw [calls_release, calls_record, List.append_assoc]
    exact hlog.append (.lookup hcall)

/-- In the log of every run, ended by the drop of the handle, each lookup that returned a buffer is
followed at once by the return of that buffer, and there are no other returns. -/
theorem session_hands_back (engine : Engine) (ops : List Operation) :
    HandsBack (session engine ops).calls :=
  (session_induction (P := fun h => HandsBack h.calls) engine (fun _ _ _ => Step.handsBack) .nil
    ops).1

theorem session_hands_back_cut_row :
    (session Echo.engine [.openWith [], .multiget ⟨[[1], bytesOf "!cut"], ["f"]⟩]).calls[2]? =
      some (.freed ⟨6, some [3, 0, 0, 0, 1, 61]⟩) :=
  (session_hands_back Echo.engine [.openWith [], .multiget ⟨[[1], bytesOf "!cut"], ["f"]⟩]).returned
    1 (.multigot 1000 [1, 0, 0, 0, 1, 4, 0, 0, 0, 33, 99, 117, 116] [1, 0, 0, 0, 102]
      ⟨6, some [3, 0, 0, 0, 1, 61]⟩) 1000 _ (by decide +kernel) rfl rfl

end Handle

end EngineClient
