import Mathlib
import EngineClient.CommandLine
import EngineClient.Proofs.Batch.Agreement
import EngineClient.Proofs.Reader.Startup

/-!
# What a batched lookup prints

The command line pairs keys and fields on its own and puts the values of a batch beside them. Its
pairs are those of the batch, so that each value is printed next to the key and the field it belongs
to. A lookup that fails prints nothing, and the engine is closed once whether it fails or not.
-/

namespace EngineClient

namespace CommandLine

variable {keys fields : List String} {values : List (Option Bytes)}

/-! ## Tables -/

/-- What is printed for a value: its text, however garbled, or a mark that there is none. -/
def shown : Option Bytes → String
  | some value => lossyString value
  | none => "(nil)"

/-- The text of a record: a key, a field and a value. -/
def record (key field : String) (value : Option Bytes) : String :=
  key ++ "\t" ++ field ++ "\t" ++ shown value ++ "\n"

/-- A text is the table of some values: it has a record for each pair of a key and a field, keys
outside, and nothing else. -/
def IsTable (keys fields : List String)
    (value : Fin keys.length → Fin fields.length → Option Bytes) (text : String) : Prop :=
  ∃ records : List String, text = String.join records ∧
    records.length = keys.length * fields.length ∧
    ∀ (i : Fin keys.length) (j : Fin fields.length),
      records[i * fields.length + j]? = some (record keys[i] fields[j] (value i j))

private theorem record_eq (key field : String) (value : Option Bytes) :
    record key field value = key ++ "\t" ++ field ++ "\t" ++ showValue value := by
  cases value <;> simp [record, showValue, shown, line, String.append_assoc]

private theorem isTable_showValues {value : Fin keys.length → Fin fields.length → Option Bytes}
    (hlength : values.length = keys.length * fields.length)
    (hvalue : ∀ (i : Fin keys.length) (j : Fin fields.length),
      values[i * fields.length + j]? = some (value i j)) :
    IsTable keys fields value (showValues keys fields values) := by
  refine ⟨_, rfl, ?_, ?_⟩
  · simp [List.length_flatMap, hlength]
  · intro i j
    have hpair := Batch.getElem?_pairs keys fields i j i.isLt j.isLt
    have hentry : ((keys.flatMap fun key => fields.map fun field => (key, field)).zip
        values)[i * fields.length + j]? = some ((keys[i], fields[j]), value i j) :=
      List.getElem?_zip_eq_some.mpr ⟨hpair, hvalue i j⟩
    rw [List.getElem?_map, hentry, record_eq]
    rfl

private theorem exists_value (hlength : values.length = keys.length * fields.length) :
    ∃ value : Fin keys.length → Fin fields.length → Option Bytes,
      ∀ (i : Fin keys.length) (j : Fin fields.length),
        values[i * fields.length + j]? = some (value i j) := by
  have hlt (i : Fin keys.length) (j : Fin fields.length) :
      i * fields.length + j < values.length := by
    rw [hlength]
    calc i * fields.length + j < i * fields.length + fields.length := by omega
      _ = (i + 1) * fields.length := (Nat.succ_mul _ _).symm
      _ ≤ keys.length * fields.length := Nat.mul_le_mul_right _ i.isLt
  exact ⟨fun i j => values.get ⟨i * fields.length + j, hlt i j⟩,
    fun i j => List.getElem?_eq_getElem (hlt i j)⟩

/-! ## Lookups with a reader -/

variable {inv : Invocation} {w : Surroundings} {config : Config} {reader : Reader}

private theorem opened_of_started {repo : Repository} {loader : Loader} {base : Settings}
    {t : Transfer} (h : (Reader.startUp config repo loader base t).result = .ok reader) :
    ∃ message answer, answer.status = 0 ∧ reader.handle.token = some answer.handle ∧
      reader.handle.calls = [.opened message answer] := by
  cases Reader.startUp_ends config repo loader base t with
  | inl hfailed =>
    obtain ⟨e, herror, -⟩ := hfailed
    rw [herror] at h
    cases h
  | inr hopened =>
    obtain ⟨engine, message, -, hresult⟩ := hopened
    by_cases hstatus : (engine.openIndex [] message).status = 0
    · rw [hresult, if_pos hstatus] at h
      cases h
      exact ⟨message, _, hstatus, rfl, rfl⟩
    · rw [hresult, if_neg hstatus] at h
      cases h

section Started

variable (hbuild : Config.build inv.choices = .ok config)
variable (hstart : (Reader.startUp config (inv.repository w) (Loader.dynamic w.images) .empty
  { fs := w.fs }).result = .ok reader)

include hbuild hstart

private theorem withReader_found {lookup : Reader → Except Error String × Reader} {printed : String}
    {after : Reader} (hlookup : lookup reader = (.ok printed, after)) :
    (withReader inv w lookup).printed = printed ∧ (withReader inv w lookup).error = none ∧
      (withReader inv w lookup).calls = after.shutdown.calls := by
  rw [withReader, hbuild]
  simp [hstart, hlookup]

private theorem withReader_failed {lookup : Reader → Except Error String × Reader} {e : Error}
    {after : Reader} (hlookup : lookup reader = (.error e, after)) :
    (withReader inv w lookup).printed = "" ∧ (withReader inv w lookup).error = some e ∧
      (withReader inv w lookup).calls = after.drop.calls := by
  rw [withReader, hbuild]
  simp [hstart, hlookup]

variable (hcommand : inv.command = .multiget keys fields)

include hcommand

private theorem run_of_found (h : (reader.multiget (Batch.ofKeys [] keys fields)).1 = .ok values) :
    (inv.run w).printed = showValues keys fields values ∧ (inv.run w).error = none ∧
      (inv.run w).calls = (reader.multiget (Batch.ofKeys [] keys fields)).2.shutdown.calls := by
  rw [Invocation.run, hcommand]
  apply withReader_found hbuild hstart
  simp [lookUpAll, h, Except.map]

private theorem run_of_failed {e : Error}
    (h : (reader.multiget (Batch.ofKeys [] keys fields)).1 = .error e) :
    (inv.run w).printed = "" ∧ (inv.run w).error = some e ∧
      (inv.run w).calls = (reader.multiget (Batch.ofKeys [] keys fields)).2.drop.calls := by
  rw [Invocation.run, hcommand]
  apply withReader_failed hbuild hstart
  simp [lookUpAll, h, Except.map]

/-- The index that the reader has been started with is closed once, at the end. -/
theorem run_closes :
    ∃ message answer uses, answer.status = 0 ∧ (∀ call ∈ uses, call.IsWithin answer.handle) ∧
      (inv.run w).calls = .opened message answer :: uses ++ [.closed answer.handle] := by
  obtain ⟨message, answer, hstatus, htoken, hcalls⟩ := opened_of_started hstart
  obtain ⟨uses, hwithin, hshutdown, hdrop⟩ :=
    Reader.calls_givenUp htoken [.multiget (Batch.ofKeys [] keys fields)]
  refine ⟨message, answer, uses, hstatus, hwithin, ?_⟩
  rw [hcalls] at hshutdown hdrop
  cases hresult : (reader.multiget (Batch.ofKeys [] keys fields)).1 with
  | ok values => exact (run_of_found hbuild hstart hcommand hresult).2.2.trans hshutdown
  | error e => exact (run_of_failed hbuild hstart hcommand hresult).2.2.trans hdrop

/-- A batched lookup prints each value next to its own key and field, or nothing. Once the reader
has started, the values of a lookup that succeeds are printed as a table, whatever the engine has
answered, and a lookup that fails prints nothing and gives its error to the command. Either way the
index that has been opened is closed once, after all calls of the lookup. Over an engine that serves
a store, a batch that fits is printed with the values of the store, and a batch whose rows are too
long for an engine is one that fails. -/
theorem run_multiget :
    (∃ message answer uses, answer.status = 0 ∧ (∀ call ∈ uses, call.IsWithin answer.handle) ∧
      (inv.run w).calls = .opened message answer :: uses ++ [.closed answer.handle]) ∧
    (∀ values, (reader.multiget (Batch.ofKeys [] keys fields)).1 = .ok values →
      (inv.run w).error = none ∧
        ∃ value : Fin keys.length → Fin fields.length → Option Bytes,
          (∀ i j, values[i.val * fields.length + j.val]? = some (value i j)) ∧
          IsTable keys fields value (inv.run w).printed) ∧
    (∀ e, (reader.multiget (Batch.ofKeys [] keys fields)).1 = .error e →
      (inv.run w).error = some e ∧ (inv.run w).printed = "") ∧
    ∀ store, reader.handle.engine.Serves store →
      ((Batch.ofKeys [] keys fields).Fits store →
        (inv.run w).error = none ∧ IsTable keys fields
          (fun i j => store (bytesOf keys[i]) (bytesOf fields[j])) (inv.run w).printed) ∧
      ((Batch.ofKeys [] keys fields).slotCount ≠ 0 → ¬(Batch.ofKeys [] keys fields).Sendable →
        (∃ cause, (inv.run w).error = some (.engineCall cause)) ∧ (inv.run w).printed = "") := by
  have hlength : ∀ values, (reader.multiget (Batch.ofKeys [] keys fields)).1 = .ok values →
      values.length = keys.length * fields.length := by
    intro values hvalues
    rw [Handle.multiget_length hvalues]
    simp [Batch.slotCount, Batch.ofKeys]
  refine ⟨run_closes hbuild hstart hcommand, ?_, ?_, ?_⟩
  · intro values hvalues
    obtain ⟨hprinted, herror, -⟩ := run_of_found hbuild hstart hcommand hvalues
    obtain ⟨value, hvalue⟩ := exists_value (hlength values hvalues)
    refine ⟨herror, value, hvalue, ?_⟩
    rw [hprinted]
    exact isTable_showValues (hlength values hvalues) hvalue
  · intro e he
    obtain ⟨hprinted, herror, -⟩ := run_of_failed hbuild hstart hcommand he
    exact ⟨herror, hprinted⟩
  · intro store hserves
    constructor
    · intro hfits
      obtain ⟨-, answer, -, htoken, -⟩ := opened_of_started hstart
      have hvalues : (reader.multiget (Batch.ofKeys [] keys fields)).1 = _ :=
        Handle.multiget_of_fits hserves (by rw [Handle.isOpen, htoken]; rfl) hfits
      obtain ⟨hprinted, herror, -⟩ := run_of_found hbuild hstart hcommand hvalues
      refine ⟨herror, ?_⟩
      rw [hprinted]
      apply isTable_showValues (hlength _ hvalues)
      intro i j
      have hkey : i < (Batch.ofKeys [] keys fields).keys.length := by simp [Batch.ofKeys]
      have hslot := Batch.getElem?_slots (Batch.ofKeys [] keys fields) hkey j.isLt
      rw [List.getElem?_map]
      change (Batch.slots _)[i * fields.length + j]? = _ at hslot
      rw [hslot]
      simp [Batch.ofKeys]
    · intro hslots hsend
      obtain ⟨cause, hcause⟩ := Handle.multiget_of_not_sendable reader.handle hslots hsend
      have he : (reader.multiget (Batch.ofKeys [] keys fields)).1 = .error (.engineCall cause) :=
        congrArg Prod.fst hcause
      obtain ⟨hprinted, herror, -⟩ := run_of_failed hbuild hstart hcommand he
      exact ⟨⟨cause, herror⟩, hprinted⟩

end Started

/-! ### A lookup of two fields -/

/-- An engine with one value, in any library. -/
def sampleImage : Image := ⟨Loader.requiredSymbols,
  Reference.engine { values := [([107], [102], [118])] }⟩

def sampleSurroundings : Surroundings where
  fs := Provisioner.versionedTree
  images := fun _ => some sampleImage

def sampleInvocation : Invocation where
  mountDirectory := bytesOf "/m"
  bucket := Bucket.defaultName
  region := Bucket.defaultRegion
  endpoint := none
  directory := some (bytesOf "/m")
  storeName := none
  command := .multiget ["k"] ["f", "g"]

private theorem sampleInvocation_starts :
    ∃ reader, (Reader.startUp Reader.sampleConfig (sampleInvocation.repository sampleSurroundings)
      (Loader.dynamic sampleSurroundings.images) .empty { fs := sampleSurroundings.fs }).result =
        .ok reader ∧ reader.handle.engine = sampleImage.engine := by
  have hfound : (Reader.provision Reader.sampleConfig
      (sampleInvocation.repository sampleSurroundings) { fs := sampleSurroundings.fs }).result =
        .ok (some (bytesOf "/m/bin/1.0.0-e")) := by
    decide +kernel
  have hload : Loader.dynamic sampleSurroundings.images (Reader.provision Reader.sampleConfig
      (sampleInvocation.repository sampleSurroundings) { fs := sampleSurroundings.fs }).transfer.fs
        (bytesOf "/m/bin/1.0.0-e") = .ok sampleImage.engine := by
    rfl
  have hmessage : (Reader.openingMessage .empty Reader.sampleConfig).length ≤
      Handle.maxArgument := by
    decide +kernel
  obtain ⟨-, hresult⟩ := Reader.startUp_opens hfound hload hmessage
  exact ⟨_, hresult, rfl⟩

theorem run_multiget_two_fields :
    ∃ records, (sampleInvocation.run sampleSurroundings).printed = String.join records ∧
      records.length = 2 ∧ records[0]? = some "k\tf\tv\n" ∧ records[1]? = some "k\tg\t(nil)\n" := by
  obtain ⟨reader, hstart, hengine⟩ := sampleInvocation_starts
  have hbuild : Config.build sampleInvocation.choices = .ok Reader.sampleConfig := by
    decide +kernel
  have hcommand : sampleInvocation.command = .multiget ["k"] ["f", "g"] := rfl
  obtain ⟨-, -, -, hserved⟩ := run_multiget hbuild hstart hcommand
  have hserves : reader.handle.engine.Serves (ValueStore.ofList [([107], [102], [118])]) := by
    rw [hengine]
    exact Reference.serves _ rfl
  obtain ⟨-, records, hprinted, hlength, hrecords⟩ :=
    (hserved _ hserves).1 fun _ => ⟨⟨by decide, by decide⟩, by decide⟩
  refine ⟨records, hprinted, hlength, ?_, ?_⟩
  · exact (hrecords 0 0).trans (by decide +kernel)
  · exact (hrecords 0 1).trans (by decide +kernel)

end CommandLine

end EngineClient
