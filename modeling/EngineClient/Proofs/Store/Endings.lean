import Mathlib
import EngineClient.Proofs.Store.Reception

/-!
# How streams end

The ending of a download is told by the stream and by what others report of their acts, whatever
the size of the chunks. If it is complete, nobody has reported a failure, and the bytes that were
counted are those of the stream.
-/

namespace EngineClient

open FileSystem

variable {own : Location} {new : Location → Prop} {t t' : Transfer} {source rest : Source}
variable {chunkSize : Nat} {data bytes : Bytes} {cancelled : Bool} {fs : FileSystem}

namespace Source

/-- How the reading of a stream ends after the first read has begun, others acting on a tree. -/
def endingFrom : Source → (cancelled : Bool) → FileSystem → Ending
  | [], _, _ => .complete
  | .data bytes :: rest, cancelled, fs =>
    if bytes.isEmpty then .complete
    else if cancelled then .cancelled else endingFrom rest cancelled fs
  | .interrupted :: rest, cancelled, fs =>
    if cancelled then .cancelled else endingFrom rest cancelled fs
  | .fail reason :: _, _, _ => .failed reason
  | .cancel :: rest, _, fs => endingFrom rest true fs
  | .outside act :: rest, cancelled, fs =>
    match (act fs).2 with
    | none => endingFrom rest cancelled (act fs).1
    | some reason => .failed reason

/-- How the reading of a stream ends, others acting on a tree. -/
def ending (source : Source) (cancelled : Bool) (fs : FileSystem) : Ending :=
  if cancelled then .cancelled else source.endingFrom false fs

private theorem reports_of_endingFrom (h : source.endingFrom cancelled fs = .complete) :
    ∀ met ∈ source.actsFrom cancelled fs, (met.2 met.1).2 = none := by
  induction source generalizing cancelled fs with
  | nil => exact fun met hmet => absurd hmet List.not_mem_nil
  | cons event rest ih =>
    cases event with
    | data bytes =>
      rw [endingFrom] at h
      rw [actsFrom]
      split
      · exact fun met hmet => absurd hmet List.not_mem_nil
      · next hgo =>
        simp only [Bool.or_eq_true, not_or] at hgo
        rw [if_neg hgo.1, if_neg hgo.2] at h
        exact ih h
    | interrupted =>
      rw [endingFrom] at h
      rw [actsFrom]
      split
      · exact fun met hmet => absurd hmet List.not_mem_nil
      · next hgo =>
        rw [if_neg hgo] at h
        exact ih h
    | fail reason => cases h
    | cancel => exact ih h
    | outside act =>
      rw [endingFrom] at h
      cases hreport : (act fs).2 with
      | none =>
        rw [hreport] at h
        rw [actsFrom, hreport]
        intro met hmet
        rcases List.mem_cons.mp hmet with rfl | hmet
        · exact hreport
        · exact ih h met hmet
      | some reason =>
        rw [hreport] at h
        cases h

theorem reports_of_ending (h : source.ending cancelled fs = .complete) :
    ∀ met ∈ source.acts cancelled fs, (met.2 met.1).2 = none := by
  rw [ending] at h
  rw [acts]
  split at h
  · cases h
  · next hc =>
    rw [if_neg hc]
    exact reports_of_endingFrom h

private theorem IsUndisturbed.endingFrom_eq (h : source.IsUndisturbed) (cancelled : Bool)
    (fs fs' : FileSystem) : source.endingFrom cancelled fs = source.endingFrom cancelled fs' := by
  induction source generalizing cancelled with
  | nil => rfl
  | cons event rest ih =>
    cases event with
    | data bytes => rw [endingFrom, endingFrom, ih h.tail]
    | interrupted => rw [endingFrom, endingFrom, ih h.tail]
    | fail reason => rfl
    | cancel => exact ih h.tail true
    | outside act => exact absurd List.mem_cons_self (h act)

theorem IsUndisturbed.ending_eq (h : source.IsUndisturbed) (cancelled : Bool)
    (fs fs' : FileSystem) : source.ending cancelled fs = source.ending cancelled fs' := by
  rw [ending, ending, h.endingFrom_eq false fs fs']

/-- What every act keeps holds of all the trees that the acts pass through. -/
theorem actsFrom_induction {P : FileSystem → Prop} (source : Source) (cancelled : Bool)
    (hstart : P fs) (hstep : ∀ met ∈ source.actsFrom cancelled fs, P met.1 → P (met.2 met.1).1) :
    (∀ met ∈ source.actsFrom cancelled fs, P met.1) ∧
      P (outcome (source.actsFrom cancelled fs) fs) := by
  induction source generalizing cancelled fs with
  | nil => exact ⟨fun met hmet => absurd hmet List.not_mem_nil, hstart⟩
  | cons event rest ih =>
    cases event with
    | data bytes =>
      rw [actsFrom] at hstep ⊢
      split
      · exact ⟨fun met hmet => absurd hmet List.not_mem_nil, hstart⟩
      · next hgo =>
        rw [if_neg hgo] at hstep
        exact ih cancelled hstart hstep
    | interrupted =>
      rw [actsFrom] at hstep ⊢
      split
      · exact ⟨fun met hmet => absurd hmet List.not_mem_nil, hstart⟩
      · next hgo =>
        rw [if_neg hgo] at hstep
        exact ih cancelled hstart hstep
    | fail reason => exact ⟨fun met hmet => absurd hmet List.not_mem_nil, hstart⟩
    | cancel => exact ih true hstart hstep
    | outside act =>
      rw [actsFrom] at hstep ⊢
      have hnext : P (act fs).1 := hstep _ List.mem_cons_self hstart
      split
      · refine ⟨fun met hmet => ?_, hnext⟩
        obtain rfl := List.mem_singleton.mp hmet
        exact hstart
      · next hgo =>
        rw [if_neg hgo] at hstep
        obtain ⟨hmet, hlast⟩ := ih cancelled hnext fun met hmet =>
          hstep met (List.mem_cons_of_mem _ hmet)
        refine ⟨fun met hin => ?_, hlast⟩
        rcases List.mem_cons.mp hin with rfl | hin
        · exact hstart
        · exact hmet met hin

theorem acts_induction {P : FileSystem → Prop} (source : Source) (cancelled : Bool) (hstart : P fs)
    (hstep : ∀ met ∈ source.acts cancelled fs, P met.1 → P (met.2 met.1).1) :
    (∀ met ∈ source.acts cancelled fs, P met.1) ∧ P (outcome (source.acts cancelled fs) fs) := by
  rw [acts] at hstep ⊢
  split
  · exact ⟨fun met hmet => absurd hmet List.not_mem_nil, hstart⟩
  · next hc =>
    rw [if_neg hc] at hstep
    exact actsFrom_induction source false hstart hstep

end Source

/-! ## Downloads -/

/-- A stream received beside harmless acts ends as it would with the own file empty. -/
theorem receive_ending (chunkSize : Nat) (hnew : ¬new own) (hholds : t.fs.Holds own data)
    (hacts : HarmlessActs own new (source.actsFrom t.cancelled (t.fs.emptied own))) :
    (receive own chunkSize source t).1 = source.endingFrom t.cancelled (t.fs.emptied own) := by
  induction source generalizing t data with
  | nil => rfl
  | cons event rest ih =>
    cases event with
    | data bytes =>
      by_cases hne : bytes = []
      · subst hne
        rw [receive_data_nil]
        rfl
      have hempty : bytes.isEmpty = false := by simpa using hne
      rw [Source.endingFrom, hempty, if_neg Bool.false_ne_true]
      cases hc : t.cancelled with
      | true =>
        obtain ⟨first, hreceive⟩ := receive_data_cancelled own chunkSize rest hne hc
        rw [hreceive, if_pos rfl]
      | false =>
        obtain ⟨t', hc', hfs, -, hreceive⟩ := receive_data own chunkSize rest hne hc
        rw [Source.actsFrom, hempty, hc, Bool.or_false, if_neg Bool.false_ne_true] at hacts
        have hemptied : t'.fs.emptied own = t.fs.emptied own := by rw [hfs, emptied_append]
        have hrest := ih (t := t') (hfs ▸ hholds.append bytes) (by rwa [hemptied, hc'])
        rw [hreceive, hrest, hemptied, hc', if_neg Bool.false_ne_true]
    | interrupted =>
      rw [receive, Source.endingFrom]
      cases hc : t.cancelled with
      | true => rfl
      | false =>
        rw [Source.actsFrom, hc, if_neg Bool.false_ne_true] at hacts
        have hc' : t.beginRead.cancelled = false := hc
        have hrest := ih (t := t.beginRead) hholds (hc' ▸ hacts)
        rw [hc'] at hrest
        exact hrest
    | fail reason => rfl
    | cancel => exact ih (t := { t with cancelled := true }) hholds hacts
    | outside act =>
      have hact : Harmless own new t.fs act :=
        hacts (t.fs.emptied own, act) List.mem_cons_self t.fs hholds.freshAt rfl
      have hholds' := hholds.of_later hact.later hnew
      rw [Source.actsFrom, hact.emptied] at hacts
      rw [Source.endingFrom, hact.emptied]
      cases hreport : (act t.fs).2 with
      | none =>
        simp only [hreport, Option.isSome_none, Bool.false_eq_true, if_false] at hacts
        rw [receive_outside_none hreport]
        exact ih (t := t.advance (act t.fs).1) hholds'
          fun met hmet => hacts met (List.mem_cons_of_mem _ hmet)
      | some reason => rw [receive_outside_some hreport]

theorem download_ending (chunkSize : Nat) (hnew : ¬new own) (hholds : t.fs.Holds own data)
    (hacts : HarmlessActs own new (source.acts t.cancelled (t.fs.emptied own))) :
    (download own chunkSize source t).1 = source.ending t.cancelled (t.fs.emptied own) := by
  rw [download, Source.ending]
  rw [Source.acts] at hacts
  cases hc : t.cancelled with
  | true => rfl
  | false =>
    rw [if_neg Bool.false_ne_true, if_neg Bool.false_ne_true]
    rw [hc, if_neg Bool.false_ne_true] at hacts
    have hc' : t.beginRead.cancelled = false := hc
    have hread := receive_ending (t := t.beginRead) chunkSize hnew hholds (hc' ▸ hacts)
    rw [hc'] at hread
    exact hread

/-! ## Bytes that were received -/

/-- What is counted in a complete download are the bytes of the stream. -/
def Counts (source : Source) (before : Nat) (read : Ending × Transfer) : Prop :=
  read.1 = .complete → ∃ bytes, source.contents = .ok bytes ∧
    read.2.received = before + bytes.length

private theorem receive_counts (own : Location) (chunkSize : Nat) (source : Source) (t : Transfer) :
    Counts source t.received (receive own chunkSize source t) := by
  induction source generalizing t with
  | nil => exact fun _ => ⟨[], rfl, rfl⟩
  | cons event rest ih =>
    cases event with
    | data bytes =>
      by_cases hne : bytes = []
      · subst hne
        rw [receive_data_nil]
        exact fun _ => ⟨[], rfl, rfl⟩
      have hempty : ¬bytes.isEmpty = true := by simpa using hne
      intro hcomplete
      cases hc : t.cancelled with
      | true =>
        obtain ⟨first, hreceive⟩ := receive_data_cancelled own chunkSize rest hne hc
        rw [hreceive] at hcomplete
        cases hcomplete
      | false =>
        obtain ⟨t', -, -, hcount, hreceive⟩ := receive_data own chunkSize rest hne hc
        rw [hreceive] at hcomplete ⊢
        obtain ⟨more, hmore, hcount'⟩ := ih t' hcomplete
        refine ⟨bytes ++ more, ?_, ?_⟩
        · rw [Source.contents, if_neg hempty, hmore]
          rfl
        · rw [hcount', hcount, List.length_append, Nat.add_assoc]
    | interrupted =>
      rw [receive]
      split
      · intro hcomplete
        cases hcomplete
      · exact ih t.beginRead
    | fail reason =>
      intro hcomplete
      cases hcomplete
    | cancel => exact ih { t with cancelled := true }
    | outside act =>
      cases hreport : (act t.fs).2 with
      | none =>
        rw [receive_outside_none hreport]
        exact ih (t.advance (act t.fs).1)
      | some reason =>
        rw [receive_outside_some hreport]
        intro hcomplete
        cases hcomplete

theorem download_counts (own : Location) (chunkSize : Nat) (source : Source) (t : Transfer) :
    Counts source t.received (download own chunkSize source t) := by
  rw [download]
  split
  · intro hcomplete
    cases hcomplete
  · exact receive_counts own chunkSize source t.beginRead

end EngineClient
