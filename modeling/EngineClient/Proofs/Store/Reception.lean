import Mathlib
import EngineClient.Proofs.FileSystem.Emptied

/-!
# Streams received beside others

While a stream is received, other processes act. If none of their acts depends on what the own file
holds or brings anything to its place, then the tree in the end is the one that they leave alone,
but for the own file. If that is still there, it holds what has arrived, and after a complete
reception all that the stream yields.
-/

namespace EngineClient

open FileSystem

/-- An act of another process, with the failure that it reports. -/
abbrev Act := FileSystem → FileSystem × Option String

namespace Source

/-- The acts of others after the first read has begun, each with the tree that it finds, until the
reading ends. -/
def actsFrom : Source → (cancelled : Bool) → FileSystem → List (FileSystem × Act)
  | [], _, _ => []
  | .data bytes :: rest, cancelled, fs =>
    if bytes.isEmpty || cancelled then [] else actsFrom rest cancelled fs
  | .interrupted :: rest, cancelled, fs => if cancelled then [] else actsFrom rest cancelled fs
  | .fail _ :: _, _, _ => []
  | .cancel :: rest, _, fs => actsFrom rest true fs
  | .outside act :: rest, cancelled, fs =>
    (fs, act) :: if (act fs).2.isSome then [] else actsFrom rest cancelled (act fs).1

/-- The acts of others during a download, each with the tree that it finds. -/
def acts (source : Source) (cancelled : Bool) (fs : FileSystem) : List (FileSystem × Act) :=
  if cancelled then [] else source.actsFrom false fs

/-- Nobody else acts during a stream. -/
def IsUndisturbed (source : Source) : Prop := ∀ act, Event.outside act ∉ source

theorem IsUndisturbed.tail {event : Event} {rest : Source}
    (h : IsUndisturbed (event :: rest)) : rest.IsUndisturbed :=
  fun act hact => h act (List.mem_cons_of_mem _ hact)

private theorem IsUndisturbed.actsFrom_eq_nil {source : Source} (h : source.IsUndisturbed)
    (cancelled : Bool)
    (fs : FileSystem) : source.actsFrom cancelled fs = [] := by
  induction source generalizing cancelled with
  | nil => rfl
  | cons event rest ih =>
    cases event with
    | data bytes =>
      rw [actsFrom, ih h.tail]
      exact ite_self _
    | interrupted =>
      rw [actsFrom, ih h.tail]
      exact ite_self _
    | fail reason => rfl
    | cancel => exact ih h.tail true
    | outside act => exact absurd List.mem_cons_self (h act)

theorem IsUndisturbed.acts_eq_nil {source : Source} (h : source.IsUndisturbed) (cancelled : Bool)
    (fs : FileSystem) : source.acts cancelled fs = [] := by
  rw [acts, h.actsFrom_eq_nil]
  exact ite_self _

end Source

/-- The tree that acts leave when nobody else does anything. -/
def outcome (acts : List (FileSystem × Act)) (fs : FileSystem) : FileSystem :=
  acts.foldl (fun fs met => (met.2 fs).1) fs

theorem outcome_nil (fs : FileSystem) : outcome [] fs = fs := rfl

/-- An act that neither depends on what the own file holds nor brings anything to its place, nor
anything but files to the new places. -/
structure Harmless (own : Location) (new : Location → Prop) (fs : FileSystem) (act : Act) :
    Prop where
  emptied : act (fs.emptied own) = ((act fs).1.emptied own, (act fs).2)
  workDir : (act fs).1.workDir = fs.workDir
  later : OnlyFilesAt new fs (act fs).1

/-- Whatever stands at a place is a file with these bytes, written just now. -/
def FileSystem.Holds (fs : FileSystem) (place : Location) (data : Bytes) : Prop :=
  ∀ entry, fs.entry? place = some entry → entry = .file ⟨data, 0⟩

variable {own place : Location} {new : Location → Prop} {fs : FileSystem} {t : Transfer}
variable {data bytes first : Bytes} {rest source : Source} {chunkSize : Nat}

namespace FileSystem

theorem Holds.freshAt (h : fs.Holds place data) : fs.FreshAt place :=
  fun entry hentry => ⟨data, h entry hentry⟩

private theorem append_append (fs : FileSystem) (place : Location) (first second : Bytes) :
    (fs.append place first).append place second = fs.append place (first ++ second) := by
  rw [append, append, modify_modify, append]
  congr 1
  funext entry
  cases entry <;> simp [Entry.extend]

theorem Holds.append (h : fs.Holds place data) (bytes : Bytes) :
    (fs.append place bytes).Holds place (data ++ bytes) := by
  intro entry hentry
  rw [FileSystem.append, entry?_modify h.freshAt.ne_root, if_pos rfl] at hentry
  obtain ⟨before, hbefore, rfl⟩ := Option.map_eq_some_iff.mp hentry
  rw [h before hbefore]
  rfl

private theorem OnlyFilesAt.append (h : fs.Holds place data) (hnew : new place) (bytes : Bytes) :
    OnlyFilesAt new fs (fs.append place bytes) := by
  intro loc entry hentry
  by_cases hloc : loc = place
  · subst hloc
    exact Or.inr ⟨hnew, _, h.append bytes entry hentry⟩
  · rw [FileSystem.append, entry?_modify h.freshAt.ne_root, if_neg hloc] at hentry
    exact Or.inl hentry

theorem Holds.of_later {fs' : FileSystem} (h : fs.Holds place data)
    (hlater : OnlyFilesAt new fs fs') (hnew : ¬new place) : fs'.Holds place data := by
  intro entry hentry
  exact h entry ((hlater place entry hentry).resolve_right fun hfile => hnew hfile.1)

end FileSystem

/-! ## Data that arrives -/

private theorem flatten_chunks (size : Nat) (bytes : Bytes) :
    (chunks size bytes).flatten = bytes := by
  fun_induction chunks size bytes with
  | case1 bytes hempty => exact (List.isEmpty_iff.mp hempty).symm
  | case2 bytes hempty ih =>
    rw [List.flatten_cons, ih, List.take_append_drop]

theorem exists_chunks (size : Nat) (hne : bytes ≠ []) :
    ∃ first others, chunks size bytes = first :: others ∧ first ++ others.flatten = bytes := by
  have hflat := flatten_chunks size bytes
  cases hchunks : chunks size bytes with
  | nil =>
    rw [hchunks] at hflat
    exact absurd hflat.symm hne
  | cons first others =>
    rw [hchunks, List.flatten_cons] at hflat
    exact ⟨first, others, rfl, hflat⟩

theorem foldl_write (own : Location) (others : List Bytes) (first : Bytes) (t : Transfer) :
    let t' := others.foldl (fun t chunk => t.beginRead.write own chunk) (t.write own first)
    t'.fs = t.fs.append own (first ++ others.flatten) ∧ t'.cancelled = t.cancelled ∧
      t'.received = t.received + (first ++ others.flatten).length := by
  induction others generalizing first t with
  | nil =>
    rw [List.flatten_nil, List.append_nil]
    exact ⟨rfl, rfl, rfl⟩
  | cons chunk others ih =>
    obtain ⟨hfs, hcancelled, hreceived⟩ := ih chunk (t.write own first).beginRead
    refine ⟨?_, hcancelled, ?_⟩
    · rw [List.foldl_cons, hfs, List.flatten_cons]
      exact append_append t.fs own first (chunk ++ others.flatten)
    · have hfirst : (t.write own first).beginRead.received = t.received + first.length := rfl
      simp only [List.foldl_cons, hreceived, hfirst, List.flatten_cons, List.length_append,
        Nat.add_assoc]

theorem receive_data_cancelled (own : Location) (chunkSize : Nat) (rest : Source) (hne : bytes ≠ [])
    (hc : t.cancelled = true) :
    ∃ first, receive own chunkSize (.data bytes :: rest) t = (.cancelled, t.write own first) := by
  obtain ⟨first, others, hchunks, -⟩ := exists_chunks (chunkSize - 1) hne
  refine ⟨first, ?_⟩
  rw [receive, hchunks]
  exact if_pos hc

theorem receive_data (own : Location) (chunkSize : Nat) (rest : Source) (hne : bytes ≠ [])
    (hc : t.cancelled = false) :
    ∃ t', t'.cancelled = false ∧ t'.fs = t.fs.append own bytes ∧
      t'.received = t.received + bytes.length ∧
      receive own chunkSize (.data bytes :: rest) t = receive own chunkSize rest t' := by
  obtain ⟨first, others, hchunks, hflat⟩ := exists_chunks (chunkSize - 1) hne
  obtain ⟨hfs, hcancelled, hreceived⟩ := foldl_write own others first t
  let t' := others.foldl (fun t chunk => t.beginRead.write own chunk) (t.write own first)
  refine ⟨t'.beginRead, hcancelled.trans hc, hflat ▸ hfs, hflat ▸ hreceived, ?_⟩
  rw [receive, hchunks]
  exact if_neg (Bool.eq_false_iff.mp hc)

theorem receive_data_nil :
    receive own chunkSize (.data [] :: rest) t = (.complete, t) := by
  simp [receive, chunks]

theorem receive_outside_none {act : Act} (h : (act t.fs).2 = none) :
    receive own chunkSize (.outside act :: rest) t =
      receive own chunkSize rest (t.advance (act t.fs).1) := by
  rw [receive, ← Prod.mk.eta (p := act t.fs), h]

theorem receive_outside_some {act : Act} {reason : String} (h : (act t.fs).2 = some reason) :
    receive own chunkSize (.outside act :: rest) t =
      (.failed reason, t.advance (act t.fs).1) := by
  rw [receive, ← Prod.mk.eta (p := act t.fs), h]

/-! ## The whole stream -/

/-- What a reception has made of a tree in which the own file held `data`. -/
structure Received (own : Location) (new : Location → Prop) (source : Source) (data : Bytes)
    (fs : FileSystem) (acts : List (FileSystem × Act)) (ending : Ending) (fs' : FileSystem) :
    Prop where
  emptied : fs'.emptied own = outcome acts (fs.emptied own)
  workDir : fs'.workDir = fs.workDir
  later : OnlyFilesAt (fun loc => loc = own ∨ new loc) fs fs'
  holds : ∃ arrived, fs'.Holds own (data ++ arrived) ∧
    (ending = .complete → source.contents = .ok arrived)

private theorem Received.append {fs' : FileSystem} {acts : List (FileSystem × Act)}
    {ending : Ending} (hne : bytes ≠ []) (hholds : fs.Holds own data)
    (h : Received own new rest (data ++ bytes) (fs.append own bytes) acts ending fs') :
    Received own new (.data bytes :: rest) data fs acts ending fs' where
  emptied := by rw [h.emptied, emptied_append]
  workDir := h.workDir
  later := (OnlyFilesAt.append hholds (Or.inl rfl) bytes).trans h.later
  holds := by
    obtain ⟨arrived, hdata, hcomplete⟩ := h.holds
    refine ⟨bytes ++ arrived, by rwa [← List.append_assoc], fun hending => ?_⟩
    have hempty : ¬bytes.isEmpty = true := by simpa using hne
    rw [Source.contents, if_neg hempty, hcomplete hending]
    rfl

private theorem Received.skip {fs' : FileSystem} {acts : List (FileSystem × Act)} {ending : Ending}
    {event : Event} (hevent : Source.contents (event :: rest) = Source.contents rest)
    (h : Received own new rest data fs acts ending fs') :
    Received own new (event :: rest) data fs acts ending fs' := by
  obtain ⟨arrived, hdata, hcomplete⟩ := h.holds
  exact ⟨h.emptied, h.workDir, h.later, arrived, hdata, fun hending => hevent ▸ hcomplete hending⟩

private theorem Received.act {fs' : FileSystem} {acts : List (FileSystem × Act)} {ending : Ending}
    {act : Act} (hact : Harmless own new fs act)
    (h : Received own new rest data (act fs).1 acts ending fs') :
    Received own new (.outside act :: rest) data fs ((fs.emptied own, act) :: acts) ending fs' where
  emptied := by
    have hfirst : outcome ((fs.emptied own, act) :: acts) (fs.emptied own) =
        outcome acts (act (fs.emptied own)).1 := rfl
    rw [h.emptied, hfirst, hact.emptied]
  workDir := h.workDir.trans hact.workDir
  later := (hact.later.mono fun _ => Or.inr).trans h.later
  holds := h.holds

private theorem Received.ended (hholds : fs.Holds own data) (hend : source.contents = .ok []) :
    Received own new source data fs [] .complete fs where
  emptied := rfl
  workDir := rfl
  later := OnlyFilesAt.refl _ fs
  holds := ⟨[], by rwa [List.append_nil], fun _ => hend⟩

private theorem Received.broken {ending : Ending} (hholds : fs.Holds own data)
    (hending : ending ≠ .complete) : Received own new source data fs [] ending fs where
  emptied := rfl
  workDir := rfl
  later := OnlyFilesAt.refl _ fs
  holds := ⟨[], by rwa [List.append_nil], fun heq => absurd heq hending⟩

/-- A stream received beside harmless acts: by induction on the stream, with what the own file holds
so far. -/
theorem receive_received (hnew : ¬new own) (hholds : t.fs.Holds own data)
    (hacts : ∀ met ∈ source.actsFrom t.cancelled (t.fs.emptied own),
      ∀ fs : FileSystem, fs.FreshAt own → fs.emptied own = met.1 → Harmless own new fs met.2) :
    Received own new source data t.fs (source.actsFrom t.cancelled (t.fs.emptied own))
      (receive own chunkSize source t).1 (receive own chunkSize source t).2.fs := by
  induction source generalizing t data with
  | nil => exact Received.ended hholds rfl
  | cons event rest ih =>
    cases event with
    | data bytes =>
      by_cases hne : bytes = []
      · subst hne
        rw [receive_data_nil]
        exact Received.ended hholds rfl
      have hempty : bytes.isEmpty = false := by simpa using hne
      cases hc : t.cancelled with
      | true =>
        obtain ⟨first, hreceive⟩ := receive_data_cancelled own chunkSize rest hne hc
        rw [hreceive, Source.actsFrom, Bool.or_true, if_pos rfl]
        exact ⟨emptied_append t.fs own first, rfl, OnlyFilesAt.append hholds (Or.inl rfl) first,
          first, hholds.append first, fun heq => by cases heq⟩
      | false =>
        obtain ⟨t', hc', hfs, -, hreceive⟩ := receive_data own chunkSize rest hne hc
        rw [Source.actsFrom, hempty, hc, Bool.or_false, if_neg Bool.false_ne_true] at hacts
        rw [hreceive, Source.actsFrom, hempty, Bool.or_false, if_neg Bool.false_ne_true]
        have hemptied : t'.fs.emptied own = t.fs.emptied own := by rw [hfs, emptied_append]
        have hrest := ih (t := t') (hfs ▸ hholds.append bytes) (by rwa [hemptied, hc'])
        rw [hemptied, hc'] at hrest
        exact Received.append hne hholds (hfs ▸ hrest)
    | interrupted =>
      rw [receive]
      cases hc : t.cancelled with
      | true =>
        rw [Source.actsFrom, if_pos rfl]
        exact Received.broken hholds fun heq => by cases heq
      | false =>
        rw [Source.actsFrom, hc, if_neg Bool.false_ne_true] at hacts
        rw [Source.actsFrom, if_neg Bool.false_ne_true, if_neg Bool.false_ne_true]
        have hrest := ih (t := t.beginRead) hholds (hc ▸ hacts)
        exact Received.skip rfl (hc ▸ hrest)
    | fail reason => exact Received.broken hholds fun heq => by cases heq
    | cancel => exact Received.skip rfl (ih (t := { t with cancelled := true }) hholds hacts)
    | outside act =>
      have hact : Harmless own new t.fs act :=
        hacts (t.fs.emptied own, act) List.mem_cons_self t.fs hholds.freshAt rfl
      have hholds' := hholds.of_later hact.later hnew
      rw [Source.actsFrom, hact.emptied] at hacts ⊢
      cases hreport : (act t.fs).2 with
      | none =>
        simp only [hreport, Option.isSome_none, Bool.false_eq_true, if_false] at hacts ⊢
        rw [receive_outside_none hreport]
        exact Received.act hact (ih (t := t.advance (act t.fs).1) hholds'
          fun met hmet => hacts met (List.mem_cons_of_mem _ hmet))
      | some reason =>
        simp only [Option.isSome_some, if_true]
        rw [receive_outside_some hreport]
        exact Received.act hact (Received.broken hholds' fun heq => by cases heq)

/-! ## Downloads -/

/-- Every act of others during a download is harmless to the own file, whatever that holds. -/
def HarmlessActs (own : Location) (new : Location → Prop) (acts : List (FileSystem × Act)) : Prop :=
  ∀ met ∈ acts, ∀ fs : FileSystem, fs.FreshAt own → fs.emptied own = met.1 →
    Harmless own new fs met.2

theorem download_received (chunkSize : Nat) (source : Source) (hnew : ¬new own)
    (hholds : t.fs.Holds own data)
    (hacts : HarmlessActs own new (source.acts t.cancelled (t.fs.emptied own))) :
    Received own new source data t.fs (source.acts t.cancelled (t.fs.emptied own))
      (download own chunkSize source t).1 (download own chunkSize source t).2.fs := by
  rw [download]
  rw [Source.acts] at hacts ⊢
  cases hc : t.cancelled with
  | true => exact Received.broken hholds fun heq => by cases heq
  | false =>
    have hc' : t.beginRead.cancelled = false := hc
    simp only [hc, Bool.false_eq_true, if_false] at hacts ⊢
    rw [← hc'] at hacts ⊢
    exact receive_received (t := t.beginRead) hnew hholds hacts

end EngineClient
