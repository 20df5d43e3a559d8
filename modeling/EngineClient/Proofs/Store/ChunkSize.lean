import Mathlib
import EngineClient.Proofs.Store.Undisturbed

/-!
# The size of the chunks

Two replacements by one stream give the same result however large the chunks are in which each of
them reads. They keep abreast from event to event. Only where a cancellation shows while data
arrives has each written a first chunk of its own. That goes with the partial file, and the trees
are the same, unless there is no way to the file any more: then it stays with what was written.
Reads that are interrupted make no difference to a stream without cancellations.
-/

namespace EngineClient

open FileSystem

/-! ## Readings side by side -/

/-- Two transfers have come equally far. The reads begun and the journals may differ. -/
structure Abreast (t t' : Transfer) : Prop where
  fs : t.fs = t'.fs
  cancelled : t.cancelled = t'.cancelled
  received : t.received = t'.received

/-- Two readings have ended in the same way and equally far. -/
structure Together (read read' : Ending × Transfer) : Prop where
  ending : read.1 = read'.1
  abreast : Abreast read.2 read'.2

/-- Two readings have ended together, or a cancellation has shown in both when each had written a
chunk to the own file. -/
inductive Compares (own : Location) (read read' : Ending × Transfer) : Prop
  | together (h : Together read read')
  | cutShort (tree : FileSystem) (chunk chunk' : Bytes) (hending : read.1 = .cancelled)
      (hending' : read'.1 = .cancelled) (hfs : read.2.fs = tree.append own chunk)
      (hfs' : read'.2.fs = tree.append own chunk')

variable {t t' : Transfer} {own : Location} {source source' : Source} {a b : Nat}

namespace Abreast

private theorem refl (t : Transfer) : Abreast t t := ⟨rfl, rfl, rfl⟩

private theorem symm (h : Abreast t t') : Abreast t' t :=
  ⟨h.fs.symm, h.cancelled.symm, h.received.symm⟩

private theorem trans {t'' : Transfer} (h : Abreast t t') (h' : Abreast t' t'') : Abreast t t'' :=
  ⟨h.fs.trans h'.fs, h.cancelled.trans h'.cancelled, h.received.trans h'.received⟩

private theorem beginRead (h : Abreast t t') : Abreast t.beginRead t'.beginRead :=
  ⟨h.fs, h.cancelled, h.received⟩

private theorem advance (h : Abreast t t') (fs : FileSystem) :
    Abreast (t.advance fs) (t'.advance fs) :=
  ⟨rfl, h.cancelled, h.received⟩

private theorem ended (h : Abreast t t') (ending : Ending) :
    Together (ending, t) (ending, t') :=
  ⟨rfl, h⟩

end Abreast

private theorem receive_data_together {bytes : Bytes} (own : Location) (hne : bytes ≠ [])
    (h : Abreast t t') (hc : t.cancelled = false) (a b : Nat) (rest rest' : Source) :
    ∃ u u', Abreast u u' ∧ u.cancelled = false ∧
      receive own a (.data bytes :: rest) t = receive own a rest u ∧
      receive own b (.data bytes :: rest') t' = receive own b rest' u' := by
  obtain ⟨u, hu, hfs, hcount, hreceive⟩ := receive_data own a rest hne hc
  obtain ⟨u', hu', hfs', hcount', hreceive'⟩ :=
    receive_data own b rest' hne (h.cancelled ▸ hc)
  refine ⟨u, u', ⟨?_, hu.trans hu'.symm, ?_⟩, hu, hreceive, hreceive'⟩
  · rw [hfs, hfs', h.fs]
  · rw [hcount, hcount', h.received]

/-- Chunks of different sizes bring two readings to the same end: by induction on the stream, the
transfers being abreast at every event. -/
theorem receive_compares (own : Location) (a b : Nat) (source : Source) (h : Abreast t t') :
    Compares own (receive own a source t) (receive own b source t') := by
  induction source generalizing t t' with
  | nil => exact .together (h.ended .complete)
  | cons event rest ih =>
    cases event with
    | data bytes =>
      by_cases hne : bytes = []
      · subst hne
        rw [receive_data_nil, receive_data_nil]
        exact .together (h.ended .complete)
      cases hc : t.cancelled with
      | false =>
        obtain ⟨u, u', hu, -, hreceive, hreceive'⟩ :=
          receive_data_together own hne h hc a b rest rest
        rw [hreceive, hreceive']
        exact ih hu
      | true =>
        obtain ⟨first, hreceive⟩ := receive_data_cancelled own a rest hne hc
        obtain ⟨first', hreceive'⟩ :=
          receive_data_cancelled own b rest hne (h.cancelled ▸ hc)
        rw [hreceive, hreceive']
        have hfs' : (t'.write own first').fs = t.fs.append own first' := by
          rw [h.fs]
          rfl
        exact .cutShort t.fs first first' rfl rfl rfl hfs'
    | interrupted =>
      rw [receive, receive, h.cancelled]
      split
      · exact .together (h.ended .cancelled)
      · exact ih h.beginRead
    | fail reason => exact .together (h.ended (.failed reason))
    | cancel => exact ih ⟨h.fs, rfl, h.received⟩
    | outside act =>
      cases hreport : (act t'.fs).2 with
      | none =>
        rw [receive_outside_none (h.fs ▸ hreport), receive_outside_none hreport, h.fs]
        exact ih (h.advance _)
      | some reason =>
        rw [receive_outside_some (h.fs ▸ hreport), receive_outside_some hreport, h.fs]
        exact .together ((h.advance _).ended (.failed reason))

private theorem download_compares (own : Location) (a b : Nat) (source : Source) (t : Transfer) :
    Compares own (download own a source t) (download own b source t) := by
  rw [download, download]
  split
  · exact .together ((Abreast.refl t).ended .cancelled)
  · exact receive_compares own a b source (Abreast.refl t.beginRead)

/-! ## Interrupted reads -/

def Event.isInterrupted : Event → Bool
  | .interrupted => true
  | _ => false

/-- The stream without its interruptions. -/
def Source.uninterrupted (source : Source) : Source :=
  source.filter fun event => !event.isInterrupted

private theorem Source.mem_uninterrupted {event : Event} (h : event.isInterrupted = false) :
    event ∈ source.uninterrupted ↔ event ∈ source := by
  rw [uninterrupted, List.mem_filter, h]
  simp

private theorem uninterrupted_cons {event : Event} (h : event.isInterrupted = false)
    (rest : Source) :
    Source.uninterrupted (event :: rest) = event :: Source.uninterrupted rest := by
  rw [Source.uninterrupted, List.filter_cons, h]
  rfl

private theorem receive_uninterrupted (own : Location) (a b : Nat) (hcancel : Event.cancel ∉ source)
    (hc : t.cancelled = false) (h : Abreast t t') :
    Together (receive own a source t) (receive own b source.uninterrupted t') := by
  induction source generalizing t t' with
  | nil => exact h.ended .complete
  | cons event rest ih =>
    have hrest : Event.cancel ∉ rest := fun hmem => hcancel (List.mem_cons_of_mem _ hmem)
    cases event with
    | data bytes =>
      rw [uninterrupted_cons rfl]
      by_cases hne : bytes = []
      · subst hne
        rw [receive_data_nil, receive_data_nil]
        exact h.ended .complete
      · obtain ⟨u, u', hu, hcu, hreceive, hreceive'⟩ :=
          receive_data_together own hne h hc a b rest (Source.uninterrupted rest)
        rw [hreceive, hreceive']
        exact ih hrest hcu hu
    | interrupted =>
      rw [receive, hc, if_neg Bool.false_ne_true]
      exact ih hrest hc ⟨h.fs, h.cancelled, h.received⟩
    | fail reason => exact h.ended (.failed reason)
    | cancel => exact absurd List.mem_cons_self hcancel
    | outside act =>
      rw [uninterrupted_cons rfl]
      cases hreport : (act t'.fs).2 with
      | none =>
        rw [receive_outside_none (h.fs ▸ hreport), receive_outside_none hreport, h.fs]
        exact ih hrest hc (h.advance _)
      | some reason =>
        rw [receive_outside_some (h.fs ▸ hreport), receive_outside_some hreport, h.fs]
        exact (h.advance _).ended (.failed reason)

private theorem download_interrupted (own : Location) (a b : Nat) (t : Transfer)
    (hcancel : Event.cancel ∉ source) (hsame : source'.uninterrupted = source.uninterrupted) :
    Together (download own a source t) (download own b source' t) := by
  have hcancel' : Event.cancel ∉ source' := by
    rwa [← Source.mem_uninterrupted rfl, hsame, Source.mem_uninterrupted rfl]
  rw [download, download]
  cases hc : t.cancelled with
  | true => exact (Abreast.refl t).ended .cancelled
  | false =>
    -- Both are compared with one reading of the stream without interruptions.
    have hbegun : t.beginRead.cancelled = false := hc
    have hread := receive_uninterrupted own a b hcancel hbegun (Abreast.refl t.beginRead)
    have hread' := receive_uninterrupted own b b hcancel' hbegun (Abreast.refl t.beginRead)
    rw [hsame] at hread'
    exact ⟨hread.ending.trans hread'.ending.symm, hread.abreast.trans hread'.abreast.symm⟩

/-! ## From the partial file to the binary -/

/-- Two runs have given the same result and left the same tree. -/
structure Same {α : Type} (run run' : α × Transfer) : Prop where
  result : run.1 = run'.1
  fs : run.2.fs = run'.2.fs

namespace Store

variable {s : Store} {file : Path} {keep : Name} {name : String}

private theorem sweep_same (s : Store) (keep : Name) (names : List Name) (h : t.fs = t'.fs) :
    Same (s.sweep keep names t) (s.sweep keep names t') := by
  induction names generalizing t t' with
  | nil => exact ⟨rfl, h⟩
  | cons name rest ih =>
    rw [sweep, sweep, h]
    split
    · split
      · exact ih rfl
      · split
        · exact ih h
        · exact ⟨rfl, h⟩
    · exact ih h

private theorem settle_same (s : Store) (keep : Name) (h : t.fs = t'.fs) :
    Same (s.settle keep t) (s.settle keep t') := by
  rw [settle, settle, cleanUp, cleanUp, h]
  cases t'.fs.readDir s.binDir with
  | error e => exact ⟨rfl, h⟩
  | ok names =>
    have hsweep := sweep_same s keep names h
    simp only
    rw [sweep_eq_ok s keep names t, sweep_eq_ok s keep names t']
    exact ⟨rfl, hsweep.fs⟩

private theorem discard_same (file : Path) (h : t.fs = t'.fs) :
    (discard file t).fs = (discard file t').fs := by
  rw [discard, discard, h]
  cases t'.fs.removeFile file with
  | error e => exact h
  | ok fs => rfl

private theorem install_same (s : Store) (file : Path) (keep : Name) (h : t.fs = t'.fs) :
    Same (s.install file keep t) (s.install file keep t') := by
  rw [install, install, h]
  cases s.persist file keep t'.fs with
  | ok fs => exact settle_same s keep rfl
  | error e =>
    simp only
    split
    · exact settle_same s keep (discard_same file h)
    · exact ⟨rfl, discard_same file h⟩

private theorem receiveAndInstall_same
    (h : Together (download own a source t) (download own b source' t')) :
    Same (s.receiveAndInstall name a source file own t)
      (s.receiveAndInstall name b source' file own t') := by
  rw [receiveAndInstall, receiveAndInstall]
  generalize download own a source t = read at h ⊢
  generalize download own b source' t' = read' at h ⊢
  obtain ⟨ending, u⟩ := read
  obtain ⟨ending', u'⟩ := read'
  obtain ⟨hending, hread⟩ := h
  obtain rfl : ending = ending' := hending
  cases ending with
  | complete =>
    simp only
    rw [show u.received = u'.received from hread.received]
    split
    · exact ⟨rfl, discard_same file hread.fs⟩
    · exact install_same s file (bytesOf name) hread.fs
  | cancelled => exact ⟨rfl, discard_same file hread.fs⟩
  | failed reason =>
    refine ⟨?_, discard_same file hread.fs⟩
    simp only
    rw [show u.received = u'.received from hread.received]

/-- Something has been left at the place of the partial file in both trees, which are the same but
for what it holds. -/
structure StrayAt (own : Location) (fs fs' : FileSystem) : Prop where
  stands : fs.entry? own ≠ none
  stands' : fs'.entry? own ≠ none
  rest : fs.erase own = fs'.erase own

private theorem discard_append (hroot : own ≠ []) {tree : FileSystem} {chunk : Bytes}
    (h : t.fs = tree.append own chunk) :
    (discard file t).fs = ((tree.removeFile file).toOption.getD tree).append own chunk := by
  rw [discard, h, append, removeFile_modify (sameShape_append hroot chunk)]
  cases tree.removeFile file with
  | error e => exact h
  | ok fs => rfl

private theorem discard_cutShort (file : Path) (hroot : own ≠ []) {tree : FileSystem}
    {chunk chunk' : Bytes} (h : t.fs = tree.append own chunk)
    (h' : t'.fs = tree.append own chunk') :
    (discard file t).fs = (discard file t').fs ∨
      StrayAt own (discard file t).fs (discard file t').fs := by
  rw [discard_append hroot h, discard_append hroot h']
  generalize (tree.removeFile file).toOption.getD tree = left
  by_cases hnone : left.entry? own = none
  · rw [append, append, modify_of_missing hnone, modify_of_missing hnone]
    exact Or.inl rfl
  · have hstands : ∀ chunk, FileSystem.entry? (left.append own chunk) own ≠ none := by
      intro chunk
      rw [append, entry?_modify hroot, if_pos rfl, Ne, Option.map_eq_none_iff]
      exact hnone
    refine Or.inr ⟨hstands chunk, hstands chunk', ?_⟩
    rw [append, append, modify_erase, modify_erase]

private theorem receiveAndInstall_compares (s : Store) (name : String) (file : Path)
    (hroot : own ≠ []) (h : Compares own (download own a source t) (download own b source' t')) :
    let run := s.receiveAndInstall name a source file own t
    let run' := s.receiveAndInstall name b source' file own t'
    Same run run' ∨ run.1 = .error .cancelled ∧ run'.1 = .error .cancelled ∧
      StrayAt own run.2.fs run'.2.fs := by
  cases h with
  | together h => exact Or.inl (receiveAndInstall_same h)
  | cutShort tree chunk chunk' hending hending' hfs hfs' =>
    have hcut : s.receiveAndInstall name a source file own t =
        (.error .cancelled, discard file (download own a source t).2) := by
      rw [receiveAndInstall, ← Prod.mk.eta (p := download own a source t), hending]
    have hcut' : s.receiveAndInstall name b source' file own t' =
        (.error .cancelled, discard file (download own b source' t').2) := by
      rw [receiveAndInstall, ← Prod.mk.eta (p := download own b source' t'), hending']
    rw [hcut, hcut']
    rcases discard_cutShort file hroot hfs hfs' with hsame | hstray
    · exact Or.inl ⟨rfl, hsame⟩
    · exact Or.inr ⟨rfl, rfl, hstray⟩

/-- What relates all that two replacements make of their streams relates the replacements. -/
theorem replace_relates {R : Except Error Path × Transfer → Except Error Path × Transfer → Prop}
    (hrefl : ∀ run, R run run)
    (hruns : ∀ own made begun file u, s.Begins name t own made begun → made.entry? own = none →
      R (s.receiveAndInstall name a source file own u)
        (s.receiveAndInstall name b source' file own u)) :
    R (s.replace name a source t) (s.replace name b source' t) := by
  by_cases hbegins : ∃ own made begun, s.Begins name t own made begun
  · obtain ⟨own, made, begun, hbegins⟩ := hbegins
    obtain ⟨-, _, hbegun⟩ := hbegins.dirAt
    obtain ⟨file, hcreate⟩ := hbegins.created
    rw [hbegins.replace_eq a source hcreate, hbegins.replace_eq b source' hcreate]
    exact hruns own made begun file _ hbegins hbegun.missing
  · have hnot : ∀ own made begun, ¬s.Begins name t own made begun :=
      fun own made begun h => hbegins ⟨own, made, begun, h⟩
    obtain ⟨e, hfailed⟩ := replace_eq_of_not_begins hnot
    rw [hfailed a source, hfailed b source']
    exact hrefl _

/-- Two replacements have been cancelled, and something is left at the place of their partial file,
in which alone the trees differ. -/
structure Stranded (s : Store) (name : String) (t : Transfer)
    (run run' : Except Error Path × Transfer) : Prop where
  result : run.1 = .error .cancelled
  result' : run'.1 = .error .cancelled
  stray : ∃ own made begun, s.Begins name t own made begun ∧ StrayAt own run.2.fs run'.2.fs

private theorem replace_compares (s : Store) (name : String) (a b : Nat) (source : Source)
    (t : Transfer) :
    Same (s.replace name a source t) (s.replace name b source t) ∨
      s.Stranded name t (s.replace name a source t) (s.replace name b source t) := by
  apply replace_relates (R := fun run run' => Same run run' ∨ s.Stranded name t run run')
  · exact fun run => Or.inl ⟨rfl, rfl⟩
  · intro own made begun file u hbegins hmissing
    rcases receiveAndInstall_compares s name file (ne_root_of_missing hmissing)
      (download_compares own a b source u) with hsame | ⟨hcut, hcut', hstray⟩
    · exact Or.inl hsame
    · exact Or.inr ⟨hcut, hcut', own, made, begun, hbegins, hstray⟩

private theorem Begins.partial_gone {made begun : FileSystem} {e : Error}
    (hbegins : s.Begins name t own made begun)
    (hothers : ∀ met ∈ source.acts t.cancelled begun, Shares own met.1 met.2)
    (hfailed : (s.replace name a source t).1 = .error e)
    (hread : s.Readable (s.replace name a source t).2.fs) :
    (s.replace name a source t).2.fs.entry? own = none := by
  obtain ⟨file, hbegun, hrun⟩ := hbegins.replace a source
  rw [hrun] at hfailed hread ⊢
  have hleft := receiveAndInstall_error (t := (t.restart.advance made).advance begun) hbegun rfl
    (fun hnew => hnew.1 rfl) (harmless_of_shares hothers) (Prod.ext hfailed rfl) hread
  rw [hleft, entry?_erase (ne_root_of_missing hbegun.missing), if_pos rfl]

/-- Whatever others do, two replacements by one stream give the same result, down to the count of
bytes in a message, in chunks of any size. They leave the same tree, unless both have been cancelled
and have left their partial file behind. As long as others only install binaries and remove partial
files in the directory, and this can be read in the end, the trees are the same without exception. A
stream without cancellations may moreover be interrupted in other places. -/
theorem replace_any_chunkSize (s : Store) (name : String) (a b : Nat) (source : Source)
    (t : Transfer) :
    let run := s.replace name a source t
    let run' := s.replace name b source t
    run.1 = run'.1 ∧ (run.2.fs = run'.2.fs ∨ s.Stranded name t run run') ∧
      ((∀ own made begun, s.Begins name t own made begun →
          ∀ met ∈ source.acts t.cancelled begun, Shares own met.1 met.2) →
        s.Readable run.2.fs → run.2.fs = run'.2.fs) ∧
      (Event.cancel ∉ source → ∀ source' : Source, source'.uninterrupted = source.uninterrupted →
        Same run (s.replace name b source' t)) := by
  intro run run'
  have hruns : Same run run' ∨ s.Stranded name t run run' := replace_compares s name a b source t
  refine ⟨?_, ?_, ?_, ?_⟩
  · rcases hruns with hsame | hstranded
    · exact hsame.result
    · rw [hstranded.result, hstranded.result']
  · exact hruns.imp_left Same.fs
  · intro hothers hread
    rcases hruns with hsame | hstranded
    · exact hsame.fs
    · obtain ⟨own, made, begun, hbegins, hstray⟩ := hstranded.stray
      have hgone := hbegins.partial_gone (hothers own made begun hbegins) hstranded.result hread
      exact absurd hgone hstray.stands
  · intro hcancel source' hsame
    apply replace_relates (R := Same)
    · exact fun run => ⟨rfl, rfl⟩
    · intro own made begun file u _ _
      exact receiveAndInstall_same (download_interrupted own a b u hcancel hsame)

theorem replace_any_chunkSize_beside_neighbour :
    let cut := sampleSource [.cancel, .data [3, 4, 5]]
    (sampleStore.replace "e" 0 cut { fs := sampleTree }).1 = .error .cancelled ∧
      (sampleStore.replace "e" 2 cut { fs := sampleTree }).1 = .error .cancelled ∧
      (sampleStore.replace "e" 0 cut { fs := sampleTree }).2.fs =
        (sampleStore.replace "e" 2 cut { fs := sampleTree }).2.fs ∧
      Same (sampleStore.replace "e" 0 (sampleSource [.data [3, 4]]) { fs := sampleTree })
        (sampleStore.replace "e" 2
          (.interrupted :: sampleSource [.interrupted, .data [3, 4], .interrupted])
          { fs := sampleTree }) := by
  intro cut
  have hcut : (sampleStore.replace "e" 0 cut { fs := sampleTree }).1 = .error .cancelled := by
    decide +kernel
  have hread : sampleStore.Readable (sampleStore.replace "e" 0 cut { fs := sampleTree }).2.fs :=
    ⟨[bytesOf "r"], by decide +kernel⟩
  have hothers := sample_shares [.cancel, .data [3, 4, 5]] fun _ _ => rfl
  obtain ⟨hresult, -, htree, -⟩ :=
    replace_any_chunkSize sampleStore "e" 0 2 cut { fs := sampleTree }
  obtain ⟨-, -, -, hinterrupted⟩ := replace_any_chunkSize sampleStore "e" 0 2
    (sampleSource [.data [3, 4]]) { fs := sampleTree }
  refine ⟨hcut, hresult ▸ hcut, htree hothers hread, ?_⟩
  apply hinterrupted
  · simp [sampleSource]
  · rfl

/-! ### A partial file out of reach -/

/-- A store among the binaries of another, with a directory elsewhere. -/
def detourStore : Store := ⟨bytesOf "m/bin"⟩

def detourTree : FileSystem where
  entries := [([bytesOf "m"], .dir), ([bytesOf "m", bytesOf "bin"], .dir),
    ([bytesOf "m", bytesOf "bin", bytesOf "bin"], .link (bytesOf "../../d")),
    ([bytesOf "d"], .dir)]

/-- The other store installs a binary in the place of the link to that directory. -/
def detourSource : Source :=
  [.data [1, 2], .outside (Store.rival ⟨bytesOf "m"⟩ "bin" [9]), .cancel, .data [3, 4]]

def detourPartial : Location := [bytesOf "d", partialMark ++ sixDigits firstPartial]

/-- A partial file that a cancelled replacement can no longer reach holds what the last read
brought, and this depends on the size of the chunks. -/
theorem replace_chunkSize_shows :
    let run (chunkSize : Nat) := detourStore.replace "e" chunkSize detourSource { fs := detourTree }
    (run 1).1 = .error .cancelled ∧ (run 2).1 = .error .cancelled ∧
      (run 1).2.fs.entry? detourPartial = some (.file ⟨[1, 2, 3], 0⟩) ∧
      (run 2).2.fs.entry? detourPartial = some (.file ⟨[1, 2, 3, 4], 0⟩) ∧
      (run 1).2.fs ≠ (run 2).2.fs ∧ (run 1).2.reads = 3 ∧ (run 2).2.reads = 2 := by
  intro run
  have hone : (run 1).2.fs.entry? detourPartial = some (.file ⟨[1, 2, 3], 0⟩) := by decide +kernel
  have htwo : (run 2).2.fs.entry? detourPartial = some (.file ⟨[1, 2, 3, 4], 0⟩) := by
    decide +kernel
  have hfs : (run 1).2.fs ≠ (run 2).2.fs := by
    intro hsame
    rw [hsame, htwo] at hone
    cases hone
  exact ⟨by decide +kernel, by decide +kernel, hone, htwo, hfs, by decide +kernel,
    by decide +kernel⟩

end Store

end EngineClient
