import Mathlib
import EngineClient.Config
import EngineClient.Proofs.Settings.Overlay

/-!
# Choices and the configuration they make

Each choice is about one subject, and what a configuration holds on a subject is what the last
choice on it says. Where logging goes and which file it goes to are one subject, so that they always
fit together, and the check that they do is never the one that fails.
-/

namespace EngineClient

namespace Config

/-! ## Subjects -/

/-- What a choice is about. -/
inductive Subject where
  | mountDirectory
  | storeName
  | accountId
  | accountPasskey
  | partition
  | logging
  | bucket
  | region
  | endpoint
  | chunkSize
deriving DecidableEq

/-- Logging goes to the console or to a file. -/
structure Logging where
  level : String
  toConsole : Bool
  file : Option Path

/-- What a configuration holds on a subject. -/
abbrev Subject.Held : Subject → Type
  | mountDirectory => Path
  | storeName | accountId | accountPasskey | endpoint => Option String
  | partition => Int64
  | logging => Logging
  | bucket | region => String
  | chunkSize => Nat

def held (c : Config) : (s : Subject) → s.Held
  | .mountDirectory => c.mountDirectory
  | .storeName => c.storeName
  | .accountId => c.accountId
  | .accountPasskey => c.accountPasskey
  | .partition => c.partition
  | .logging => ⟨c.logLevel, c.logToConsole, c.logFile⟩
  | .bucket => c.bucket
  | .region => c.region
  | .endpoint => c.endpoint
  | .chunkSize => c.chunkSize

def Choice.subject : Choice → Subject
  | mountDirectory _ => .mountDirectory
  | storeName _ => .storeName
  | accountId _ => .accountId
  | accountPasskey _ => .accountPasskey
  | partition _ => .partition
  | consoleLogging _ | fileLogging _ _ => .logging
  | bucket _ => .bucket
  | region _ => .region
  | endpoint _ => .endpoint
  | chunkSize _ => .chunkSize

/-- What is held on its subject once a choice has been made. -/
def Choice.made : (a : Choice) → a.subject.Held
  | mountDirectory path => path
  | storeName name => some name
  | accountId id => some id
  | accountPasskey passkey => some passkey
  | partition n => n
  | consoleLogging level => ⟨Text.lowercase level, true, none⟩
  | fileLogging level path => ⟨Text.lowercase level, false, some path⟩
  | bucket name => name
  | region name => name
  | endpoint address => some address
  | chunkSize size => size

/-- What a choice says on a subject, if that is what it is about. -/
def Choice.on? (s : Subject) (a : Choice) : Option s.Held :=
  if h : a.subject = s then some (h ▸ a.made) else none

/-- What the last choice on a subject says, or what is held by default. -/
def lastHeld (s : Subject) (choices : List Choice) : s.Held :=
  (choices.filterMap (Choice.on? s)).getLast?.getD (held {} s)

variable {a b : Choice} {s : Subject} {c : Config} {choices : List Choice}

/-- A choice changes what is held on its subject and nothing else. -/
theorem held_choose (c : Config) (a : Choice) (s : Subject) :
    (c.choose a).held s = (a.on? s).getD (c.held s) := by
  cases a <;> cases s <;> rfl

private theorem on?_of_ne (h : a.subject ≠ s) : a.on? s = none := dif_neg h

private theorem ext_held {c c' : Config} (h : ∀ s, c.held s = c'.held s) : c = c' := by
  have hlogging := h .logging
  simp only [held, Logging.mk.injEq] at hlogging
  cases c
  cases c'
  simp only [mk.injEq]
  exact ⟨h .mountDirectory, h .storeName, h .accountId, h .accountPasskey, h .partition,
    hlogging.1, hlogging.2.1, hlogging.2.2, h .bucket, h .region, h .endpoint, h .chunkSize⟩

/-! ## Runs of choices -/

private theorem afterChoices_concat (choices : List Choice) (a : Choice) :
    afterChoices (choices ++ [a]) = (afterChoices choices).choose a := by
  simp [afterChoices]

private theorem lastHeld_concat (s : Subject) (choices : List Choice) (a : Choice) :
    lastHeld s (choices ++ [a]) = (a.on? s).getD (lastHeld s choices) := by
  cases hsays : a.on? s with
  | none => simp [lastHeld, hsays]
  | some said => simp [lastHeld, hsays]

/-- On each subject the last choice counts. -/
theorem held_afterChoices (s : Subject) (choices : List Choice) :
    (afterChoices choices).held s = lastHeld s choices := by
  induction choices using List.reverseRecOn with
  | nil => rfl
  | append_singleton choices a ih => rw [afterChoices_concat, held_choose, ih, lastHeld_concat]

private theorem choose_comm (c : Config) (h : a.subject ≠ b.subject) :
    (c.choose a).choose b = (c.choose b).choose a := by
  apply ext_held
  intro s
  simp only [held_choose]
  by_cases ha : a.subject = s
  · rw [on?_of_ne (a := b) (by rw [← ha]; exact h.symm)]
    rfl
  · rw [on?_of_ne ha]
    rfl

private theorem afterChoices_swap (front back : List Choice) (h : a.subject ≠ b.subject) :
    afterChoices (front ++ a :: b :: back) = afterChoices (front ++ b :: a :: back) := by
  simp only [afterChoices, List.foldl_append, List.foldl_cons]
  rw [choose_comm _ h]

/-- Logging goes to the console exactly when there is no file for it. -/
def Fits (c : Config) : Prop := c.logToConsole = true ↔ c.logFile = none

private theorem fits_choose (h : c.Fits) (a : Choice) : (c.choose a).Fits := by
  cases a with
  | consoleLogging level => simp [Fits, choose]
  | fileLogging level path => simp [Fits, choose]
  | _ => exact h

private theorem fits_afterChoices (choices : List Choice) : (afterChoices choices).Fits := by
  induction choices using List.reverseRecOn with
  | nil => simp [Fits, afterChoices]
  | append_singleton choices a ih =>
    rw [afterChoices_concat]
    exact fits_choose ih a

/-! ## The checks -/

/-- What is checked at the end, in this order: whether it fails, and the error then. -/
def checks (choices : List Choice) : List (Bool × ConfigError) :=
  [((lastHeld .mountDirectory choices).isEmpty, .missingMount),
    (!logLevels.contains (lastHeld .logging choices).level,
      .invalidLevel (lastHeld .logging choices).level),
    (lastHeld .chunkSize choices == 0, .zeroChunk),
    (isBlankChoice (lastHeld .storeName choices), .blank "store name"),
    (isBlankChoice (lastHeld .accountId choices), .blank "account id"),
    (isBlankChoice (lastHeld .accountPasskey choices), .blank "account passkey")]

private theorem firstFault_cons (failed : Bool) (fault : ConfigError)
    (rest : List (Bool × ConfigError)) :
    (((failed, fault) :: rest).find? (·.1)).map (·.2) =
      if failed = true then some fault else (rest.find? (·.1)).map (·.2) := by
  cases failed <;> rfl

/-- The check that logging to a file has one is left out, as it cannot fail. -/
theorem fault?_afterChoices (choices : List Choice) :
    (afterChoices choices).fault? = ((checks choices).find? (·.1)).map (·.2) := by
  have hlog : ((!(afterChoices choices).logToConsole) && (afterChoices choices).logFile.isNone) =
      false := by
    have hfits := fits_afterChoices choices
    cases hfile : (afterChoices choices).logFile with
    | none => simp [hfits.mpr hfile]
    | some path => simp
  simp only [checks, ← held_afterChoices, firstFault_cons, fault?, hlog, held, beq_iff_eq,
    Bool.false_eq_true, if_false, List.find?_nil, Option.map_none]

private theorem build_eq (choices : List Choice) :
    build choices = match (checks choices).find? (·.1) with
      | some check => .error (.config check.2)
      | none => .ok (afterChoices choices) := by
  rw [build, fault?_afterChoices]
  cases (checks choices).find? (·.1) <;> rfl

/-! ## What the engine is told -/

section Told

variable (base : Settings) (key name : String) (value : Option String)

private theorem strings_foldl_optional :
    ((optional key value).foldl Settings.set base).strings.get? name =
      if name = key then value.or (base.strings.get? name) else base.strings.get? name := by
  cases value <;> simp [optional, Settings.set, Table.get?_insert]

private theorem bools_foldl_optional :
    ((optional key value).foldl Settings.set base).bools = base.bools := by
  cases value <;> rfl

end Told

private theorem get?_logFile (c : Config) :
    c.engineSettings.strings.get? "rust_client_log_file" = c.logFile.map lossyString := by
  have hempty : Settings.empty.strings.get? "rust_client_log_file" = none := rfl
  simp [engineSettings, Settings.ofList, engineEntries, strings_foldl_optional, Settings.set,
    Table.get?_insert, hempty]

private theorem get?_toConsole (c : Config) :
    c.engineSettings.bools.get? "rust_client_log_to_console" = some c.logToConsole := by
  simp [engineSettings, Settings.ofList, engineEntries, bools_foldl_optional, Settings.set,
    Table.get?_insert]

private theorem Fits.told (h : c.Fits) :
    (∃ file, c.engineSettings.strings.get? "rust_client_log_file" = some file) ↔
      c.engineSettings.bools.get? "rust_client_log_to_console" = some false := by
  rw [Fits] at h
  rw [get?_logFile, get?_toConsole, Option.some.injEq, ← Bool.not_eq_true, h]
  cases c.logFile <;> simp

/-! ## The builder -/

private theorem build_eq_ok_iff : build choices = .ok c ↔
    c = afterChoices choices ∧ ∀ check ∈ checks choices, check.1 = false := by
  rw [build_eq]
  cases hfind : (checks choices).find? (·.1) with
  | none =>
    rw [List.find?_eq_none] at hfind
    simp only [Except.ok.injEq]
    constructor
    · intro h
      exact ⟨h.symm, fun check hcheck => Bool.eq_false_iff.mpr (hfind check hcheck)⟩
    · intro h
      exact h.1.symm
  | some check =>
    have hfails := List.find?_some hfind
    simp only [reduceCtorEq, false_iff, not_and, not_forall]
    intro _
    exact ⟨check, List.mem_of_find?_eq_some hfind, by simp [hfails]⟩

private theorem build_eq_error_iff {e : Error} : build choices = .error e ↔
    ∃ front fault back, checks choices = front ++ (true, fault) :: back ∧
      (∀ check ∈ front, check.1 = false) ∧ e = .config fault := by
  rw [build_eq]
  constructor
  · intro h
    cases hfind : (checks choices).find? (·.1) with
    | none =>
      rw [hfind] at h
      cases h
    | some check =>
      rw [hfind] at h
      obtain ⟨failed, fault⟩ := check
      obtain ⟨hfails, front, back, hchecks, hfront⟩ := List.find?_eq_some_iff_append.mp hfind
      cases hfails
      exact ⟨front, fault, back, hchecks, by simpa using hfront, (Except.error.inj h).symm⟩
  · intro h
    obtain ⟨front, fault, back, hchecks, hfront, rfl⟩ := h
    have hfind : (checks choices).find? (·.1) = some (true, fault) :=
      List.find?_eq_some_iff_append.mpr ⟨rfl, front, back, hchecks, by simpa using hfront⟩
    rw [hfind]

/-- Whatever choices are made, in whatever order, the configuration fits together. On each subject
the last choice counts, and choices on different subjects can change places. Logging goes to the
console exactly when it has no file, so that a missing log file is never the error. The
configuration is built if and only if the last choices pass the checks, and the first check that
fails gives the error. The engine is told of a log file exactly when it is told not to log to the
console. -/
theorem build_consistent (choices : List Choice) :
    (∀ s, (afterChoices choices).held s = lastHeld s choices) ∧
    (∀ front back a b, choices = front ++ a :: b :: back → a.subject ≠ b.subject →
      afterChoices (front ++ b :: a :: back) = afterChoices choices) ∧
    ((afterChoices choices).logToConsole = true ↔ (afterChoices choices).logFile = none) ∧
    build choices ≠ .error (.config .missingLogFile) ∧
    ((∃ c, build choices = .ok c) ↔
      lastHeld .mountDirectory choices ≠ [] ∧ (lastHeld .logging choices).level ∈ logLevels ∧
        lastHeld .chunkSize choices ≠ 0 ∧ isBlankChoice (lastHeld .storeName choices) = false ∧
        isBlankChoice (lastHeld .accountId choices) = false ∧
        isBlankChoice (lastHeld .accountPasskey choices) = false) ∧
    (∀ e, build choices = .error e ↔ ∃ front fault back,
      checks choices = front ++ (true, fault) :: back ∧ (∀ check ∈ front, check.1 = false) ∧
        e = .config fault) ∧
    (∀ c, build choices = .ok c → c = afterChoices choices ∧
      ((∃ file, c.engineSettings.strings.get? "rust_client_log_file" = some file) ↔
        c.engineSettings.bools.get? "rust_client_log_to_console" = some false)) := by
  have hfits := fits_afterChoices choices
  refine ⟨fun s => held_afterChoices s choices, ?_, hfits, ?_, ?_, fun e => build_eq_error_iff, ?_⟩
  · intro front back a b hchoices hsubject
    rw [hchoices, afterChoices_swap front back hsubject]
  · intro herror
    obtain ⟨front, fault, back, hchecks, -, hfault⟩ := build_eq_error_iff.mp herror
    have hmem : (true, fault) ∈ checks choices := by
      rw [hchecks]
      simp
    cases hfault
    simp [checks] at hmem
  · simp [build_eq_ok_iff, checks]
  · intro c hc
    obtain ⟨rfl, -⟩ := build_eq_ok_iff.mp hc
    exact ⟨rfl, hfits.told⟩

/-- Logging to a file, taken back again by logging to the console, and two store names. -/
def revisedChoices : List Choice :=
  [.fileLogging "DEBUG" [108], .mountDirectory [109], .storeName " ", .consoleLogging "Warn",
    .storeName "s"]

theorem build_consistent_revised :
    build revisedChoices = .ok
      { mountDirectory := [109], logLevel := "warn", storeName := some "s" } ∧
    build [.fileLogging "DEBUG" [108], .storeName " ", .mountDirectory [109],
      .consoleLogging "Warn", .storeName "s"] = build revisedChoices := by
  have hbuilt := build_consistent revisedChoices
  have hswap := hbuilt.2.1 [.fileLogging "DEBUG" [108]] [.consoleLogging "Warn", .storeName "s"]
    (.mountDirectory [109]) (.storeName " ") rfl (by decide)
  obtain ⟨c, hc⟩ := hbuilt.2.2.2.2.1.mpr (by decide +kernel)
  obtain ⟨rfl, -⟩ := hbuilt.2.2.2.2.2.2 c hc
  refine ⟨?_, ?_⟩
  · rw [hc]
    decide +kernel
  · simp only [List.cons_append, List.nil_append] at hswap
    rw [build, hswap, build]

end Config

end EngineClient
