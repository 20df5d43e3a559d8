import Mathlib
import EngineClient.Engine.Reference
import EngineClient.Proofs.Handle.Run

/-!
# The value that stands for no index

A handle shows its index as a number: while one is open, the number that the engine has answered the
latest opening with, and otherwise -1. An engine is free to answer with -1, so only as long as it
does not can the number tell whether an index is open.
-/

namespace EngineClient

/-- The index that an opening has answered with, if it has succeeded. -/
def Call.index? : Call → Option Int64
  | .opened _ answer => if answer.status = 0 then some answer.handle else none
  | _ => none

private theorem Call.index?_of_lookup? {call : Call} {found : Int64 × Buffer}
    (h : call.lookup? = some found) : call.index? = none := by
  cases call with
  | opened => cases h
  | _ => rfl

namespace Handle

variable {h h' : Handle} {result : Except Error Reply}

/-- The index of the latest opening that has succeeded, whether it is open still or not. -/
def latestIndex? (h : Handle) : Option Int64 := h.history.findSome? Call.index?

@[simp] private theorem latestIndex?_record (h : Handle) (call : Call) :
    (h.record call).latestIndex? = call.index?.or h.latestIndex? := by
  rw [latestIndex?, record, List.findSome?_cons, latestIndex?]
  cases call.index? <;> rfl

@[simp] private theorem latestIndex?_release (h : Handle) (buffer : Buffer) :
    (h.release buffer).latestIndex? = h.latestIndex? := by
  rw [release]
  split
  · rfl
  · exact latestIndex?_record h _

/-- Whether the open index, if there is one, is that of the latest opening that has succeeded. -/
def HoldsLatest (h : Handle) : Prop := ∀ index, h.token = some index → h.latestIndex? = some index

private theorem Step.holdsLatest (hholds : HoldsLatest h) (hstep : Step h result h') :
    HoldsLatest h' := by
  cases hstep with
  | stay => exact hholds
  | checkHealth probe status => exact fun index hindex => hholds index hindex
  | openIndex config answer hclosed hok =>
    rintro index ⟨⟩
    change (h.record (.opened config answer)).latestIndex? = _
    rw [latestIndex?_record, Call.index?, if_pos hok]
    rfl
  | openFails config answer hclosed hfail =>
    intro index hindex
    rw [token_record, hclosed] at hindex
    cases hindex
  | closeIndex token hopen => rintro index ⟨⟩
  | lookUp result hopen hcall =>
    intro index hindex
    rw [token_release, token_record] at hindex
    rw [latestIndex?_release, latestIndex?_record, Call.index?_of_lookup? hcall]
    exact hholds index hindex

private theorem run_holdsLatest (engine : Engine) (ops : List Operation) :
    HoldsLatest ((ofEngine engine).run ops) := by
  apply run_induction fun _ _ _ => Step.holdsLatest
  rintro index ⟨⟩

private theorem rawToken_of_closed (hclosed : h.isOpen = false) : h.rawToken = closedToken := by
  rw [isOpen, Option.isSome_eq_false_iff, Option.isNone_iff_eq_none] at hclosed
  rw [rawToken, hclosed]
  rfl

private theorem HoldsLatest.rawToken (hholds : HoldsLatest h) (hopen : h.isOpen = true) :
    h.latestIndex? = some h.rawToken := by
  obtain ⟨index, hindex⟩ := Option.isSome_iff_exists.mp hopen
  rw [hholds index hindex, Handle.rawToken, hindex]
  rfl

/-- After every run a closed handle shows -1 and an open one the number of the latest opening that
has succeeded. So the number tells an open handle from a closed one, unless an index is open that
the engine itself has called -1. -/
theorem rawToken_tells_index (engine : Engine) (ops : List Operation) :
    let h := (ofEngine engine).run ops
    (h.isOpen = false → h.rawToken = closedToken) ∧
    (h.isOpen = true → h.latestIndex? = some h.rawToken) ∧
    ((h.rawToken = closedToken ↔ h.isOpen = false) ↔
      ¬(h.isOpen = true ∧ h.latestIndex? = some closedToken)) := by
  intro h
  have hlatest : h.isOpen = true → h.latestIndex? = some h.rawToken :=
    (run_holdsLatest engine ops).rawToken
  refine ⟨rawToken_of_closed, hlatest, ?_⟩
  cases hopen : h.isOpen with
  | false => simp [rawToken_of_closed hopen]
  | true => simp [hlatest hopen]

/-- An engine that calls its index -1: the handle is open and shows what a closed one shows. -/
theorem rawToken_hides_index :
    let h := (ofEngine (Reference.engine { handle := -1 })).run [.openWith []]
    h.isOpen = true ∧ h.rawToken = closedToken := by
  decide

end Handle

end EngineClient
