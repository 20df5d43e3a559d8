import Mathlib
import EngineClient.Proofs.Store.Undisturbed

/-!
# Reads, one after another

A stream that nobody disturbs answers a download read by read. The first read that brings bytes or
is interrupted after the user has cancelled, the first that fails and the first without bytes are
each the end, whichever comes first. What the stream would answer after that read makes no
difference.
-/

namespace EngineClient

open FileSystem

/-- What a stream answers to a read. -/
inductive Answer where
  | bytes (chunk : Bytes)
  | interrupted
  | failed (reason : String)
  /-- There are no bytes. -/
  | finished
deriving Repr, DecidableEq

/-- A read: its answer, and whether the user has cancelled by then. -/
structure Read where
  answer : Answer
  cancelled : Bool
deriving Repr, DecidableEq

namespace Read

/-- The bytes that a read brings. -/
def bytes (read : Read) : Bytes :=
  match read.answer with
  | .bytes chunk => chunk
  | _ => []

/-- How a download ends with a read, if it does. A cancellation shows only in reads that bring bytes
or are interrupted. -/
def ending? (read : Read) : Option Ending :=
  match read.answer with
  | .bytes _ => if read.cancelled then some .cancelled else none
  | .interrupted => if read.cancelled then some .cancelled else none
  | .failed reason => some (.failed reason)
  | .finished => some .complete

end Read

/-- The bytes that some reads bring. -/
def arrived (reads : List Read) : Bytes := reads.flatMap Read.bytes

/-- A read ends a download and none before it does. -/
structure LastRead (answers before : List Read) (last : Read) (ending : Ending) : Prop where
  follows : before ++ [last] <+: answers
  goes : ∀ read ∈ before, read.ending? = none
  ends : last.ending? = some ending

variable {own : Location} {made begun : FileSystem} {t t' t₀ : Transfer} {source : Source}
variable {chunkSize : Nat} {answers before : List Read} {last : Read} {ending : Ending}

private theorem exists_lastRead (h : ∃ read ∈ answers, read.ending? ≠ none) :
    ∃ before last ending, LastRead answers before last ending := by
  induction answers with
  | nil =>
    obtain ⟨read, hmem, -⟩ := h
    exact absurd hmem List.not_mem_nil
  | cons first rest ih =>
    cases hfirst : first.ending? with
    | some ending => exact ⟨[], first, ending, ⟨rest, rfl⟩, nofun, hfirst⟩
    | none =>
      obtain ⟨read, hmem, hread⟩ := h
      have hrest : read ∈ rest := by
        refine (List.mem_cons.mp hmem).resolve_left ?_
        rintro rfl
        exact hread hfirst
      obtain ⟨before, last, ending, ⟨after, hafter⟩, hgoes, hends⟩ := ih ⟨read, hrest, hread⟩
      refine ⟨first :: before, last, ending, ⟨after, ?_⟩, ?_, hends⟩
      · rw [List.cons_append, List.cons_append, hafter]
      · intro other hother
        rcases List.mem_cons.mp hother with rfl | hother
        · exact hfirst
        · exact hgoes other hother

private theorem arrived_concat_last (hlast : LastRead answers before last ending)
    (hending : ending ≠ .cancelled) : arrived (before ++ [last]) = arrived before := by
  have hbytes : last.bytes = [] := by
    have hends := hlast.ends
    rw [Read.ending?] at hends
    rw [Read.bytes]
    split at hends
    · split at hends
      · exact absurd (Option.some.inj hends).symm hending
      · cases hends
    · next h => rw [h]
    · next h => rw [h]
    · next h => rw [h]
  rw [arrived, arrived, List.flatMap_append, List.flatMap_singleton, hbytes, List.append_nil]

/-! ## The reads of a stream -/

private theorem mem_chunks {size : Nat} {bytes chunk : Bytes} (h : chunk ∈ chunks size bytes) :
    chunk ≠ [] ∧ chunk.length ≤ size + 1 := by
  fun_induction chunks size bytes with
  | case1 bytes hempty => exact absurd h List.not_mem_nil
  | case2 bytes hempty ih =>
    rcases List.mem_cons.mp h with rfl | hmem
    · refine ⟨?_, List.length_take_le _ _⟩
      rw [Ne, List.take_eq_nil_iff]
      simpa using hempty
    · exact ih hmem

namespace Source

/-- All that a stream answers from now on to reads of a given size, the user having cancelled or
not. -/
def readsFrom (chunkSize : Nat) : Source → (cancelled : Bool) → List Read
  | [], cancelled => [⟨.finished, cancelled⟩]
  | .data bytes :: rest, cancelled =>
    if bytes.isEmpty then ⟨.finished, cancelled⟩ :: readsFrom chunkSize rest cancelled
    else (chunks (chunkSize - 1) bytes).map (fun chunk => ⟨.bytes chunk, cancelled⟩) ++
      readsFrom chunkSize rest cancelled
  | .interrupted :: rest, cancelled =>
    ⟨.interrupted, cancelled⟩ :: readsFrom chunkSize rest cancelled
  | .fail reason :: rest, cancelled =>
    ⟨.failed reason, cancelled⟩ :: readsFrom chunkSize rest cancelled
  | .cancel :: rest, _ => readsFrom chunkSize rest true
  | .outside _ :: rest, cancelled => readsFrom chunkSize rest cancelled

/-- All that a stream answers to reads of a given size. -/
def reads (chunkSize : Nat) (source : Source) : List Read := source.readsFrom chunkSize false

private theorem finished_mem_readsFrom (chunkSize : Nat) (source : Source) (cancelled : Bool) :
    ∃ last, ⟨.finished, last⟩ ∈ source.readsFrom chunkSize cancelled := by
  induction source generalizing cancelled with
  | nil => exact ⟨cancelled, List.mem_cons_self⟩
  | cons event rest ih =>
    obtain ⟨last, hlast⟩ := ih cancelled
    cases event with
    | data bytes =>
      rw [readsFrom]
      split
      · exact ⟨cancelled, List.mem_cons_self⟩
      · exact ⟨last, List.mem_append_right _ hlast⟩
    | interrupted => exact ⟨last, List.mem_cons_of_mem _ hlast⟩
    | fail reason => exact ⟨last, List.mem_cons_of_mem _ hlast⟩
    | cancel => exact ih true
    | outside act => exact ⟨last, hlast⟩

private theorem bytes_of_mem_readsFrom {chunk : Bytes} {shown cancelled : Bool}
    (h : ⟨.bytes chunk, shown⟩ ∈ source.readsFrom chunkSize cancelled) :
    chunk ≠ [] ∧ chunk.length ≤ max chunkSize 1 := by
  induction source generalizing cancelled with
  | nil => simp [readsFrom] at h
  | cons event rest ih =>
    cases event with
    | data bytes =>
      rw [readsFrom] at h
      split at h
      · exact ih (by simpa using h)
      · rcases List.mem_append.mp h with hmem | hmem
        · obtain ⟨other, hother, heq⟩ := List.mem_map.mp hmem
          cases heq
          obtain ⟨hne, hlength⟩ := mem_chunks hother
          exact ⟨hne, by omega⟩
        · exact ih hmem
    | interrupted => exact ih (by simpa [readsFrom] using h)
    | fail reason => exact ih (by simpa [readsFrom] using h)
    | cancel => exact ih h
    | outside act => exact ih h

end Source

/-! ## Downloads, read by read -/

namespace Transfer

/-- What a read that has returned leaves. -/
def heed (own : Location) (t : Transfer) (read : Read) : Transfer :=
  let t := { t with cancelled := read.cancelled }
  match read.answer with
  | .bytes chunk => t.write own chunk
  | _ => t

/-- A transfer after some reads. -/
def afterReads (own : Location) (t : Transfer) (reads : List Read) : Transfer :=
  reads.foldl (fun t read => t.beginRead.heed own read) t

end Transfer

/-- Reads until a read is the end. -/
def follow (own : Location) : List Read → Transfer → Ending × Transfer
  | [], t => (.complete, t)
  | read :: rest, t =>
    let t := t.beginRead.heed own read
    match read.ending? with
    | some ending => (ending, t)
    | none => follow own rest t

private theorem follow_append (hgoes : ∀ read ∈ before, read.ending? = none) (t : Transfer) :
    follow own (before ++ answers) t = follow own answers (t.afterReads own before) := by
  induction before generalizing t with
  | nil => rfl
  | cons read rest ih =>
    rw [List.cons_append, follow, hgoes read List.mem_cons_self]
    exact ih (fun other hother => hgoes other (List.mem_cons_of_mem _ hother)) _

/-- What comes after the last read makes no difference. -/
theorem LastRead.follow_eq (h : LastRead answers before last ending) (own : Location)
    (t : Transfer) : follow own answers t = (ending, t.afterReads own (before ++ [last])) := by
  obtain ⟨⟨after, rfl⟩, hgoes, hends⟩ := h
  rw [List.append_assoc, follow_append hgoes, List.singleton_append, follow, hends,
    Transfer.afterReads, Transfer.afterReads, List.foldl_append]
  rfl

private theorem follow_chunks (others : List Bytes) (t : Transfer) (hc : t.cancelled = false) :
    follow own (others.map (fun chunk => ⟨.bytes chunk, false⟩) ++ answers) t =
      follow own answers (others.foldl (fun t chunk => t.beginRead.write own chunk) t) := by
  induction others generalizing t with
  | nil => rfl
  | cons chunk others ih =>
    have hheed : t.beginRead.heed own ⟨.bytes chunk, false⟩ = t.beginRead.write own chunk := by
      rw [Transfer.heed, show false = t.beginRead.cancelled from hc.symm]
    rw [List.map_cons, List.cons_append, follow, hheed]
    exact ih _ hc

/-- The loop over the events of a stream makes one read after another: by induction on the stream,
from its cancellation on. -/
theorem receive_eq_follow (own : Location) (chunkSize : Nat) (hsource : source.IsUndisturbed)
    (cancelled : Bool) (t : Transfer) :
    receive own chunkSize source { t.beginRead with cancelled := cancelled } =
      follow own (source.readsFrom chunkSize cancelled) t := by
  induction source generalizing cancelled t with
  | nil => rfl
  | cons event rest ih =>
    cases event with
    | data bytes =>
      by_cases hne : bytes = []
      · subst hne
        rw [receive_data_nil]
        rfl
      have hempty : ¬bytes.isEmpty = true := by simpa using hne
      obtain ⟨first, others, hchunks, -⟩ := exists_chunks (chunkSize - 1) hne
      rw [Source.readsFrom, if_neg hempty, receive, hchunks]
      cases cancelled with
      | true => rfl
      | false =>
        let u := ({ t.beginRead with cancelled := false } : Transfer).write own first
        let u' := others.foldl (fun t chunk => t.beginRead.write own chunk) u
        have hu' : u'.beginRead.cancelled = false := (foldl_write own others first _).2.1
        have hrest := ih hsource.tail false u'
        rw [show ({ u'.beginRead with cancelled := false } : Transfer) = u'.beginRead by
          rw [← hu']] at hrest
        exact hrest.trans (follow_chunks others u rfl).symm
    | interrupted =>
      cases cancelled with
      | true => rfl
      | false => exact ih hsource.tail false { t.beginRead with cancelled := false }
    | fail reason => rfl
    | cancel => exact ih hsource.tail true t
    | outside act => exact absurd List.mem_cons_self (hsource act)

private theorem download_eq (own : Location) (t : Transfer) (hsource : source.IsUndisturbed)
    (hc : t.cancelled = false) (hlast : LastRead (source.reads chunkSize) before last ending) :
    download own chunkSize source t = (ending, t.afterReads own (before ++ [last])) := by
  have hread := receive_eq_follow own chunkSize hsource false t
  rw [show ({ t.beginRead with cancelled := false } : Transfer) = t.beginRead by rw [← hc]; rfl]
    at hread
  rw [download, hc, if_neg Bool.false_ne_true, hread]
  exact hlast.follow_eq own t

private theorem heed_spec {data : Bytes} (htree : t.fs = made.put own (.file ⟨data, 0⟩))
    (read : Read) :
    (t.heed own read).fs = made.put own (.file ⟨data ++ read.bytes, 0⟩) ∧
      (t.heed own read).received = t.received + read.bytes.length ∧
      (t.heed own read).reads = t.reads := by
  obtain ⟨answer, cancelled⟩ := read
  cases answer with
  | bytes chunk =>
    refine ⟨?_, rfl, rfl⟩
    have hwritten : (t.heed own ⟨.bytes chunk, cancelled⟩).fs = t.fs.append own chunk := rfl
    rw [hwritten, htree, FileSystem.append, modify_put]
    rfl
  | interrupted => exact ⟨by rwa [Read.bytes, List.append_nil], rfl, rfl⟩
  | failed reason => exact ⟨by rwa [Read.bytes, List.append_nil], rfl, rfl⟩
  | finished => exact ⟨by rwa [Read.bytes, List.append_nil], rfl, rfl⟩

private theorem afterReads_spec {data : Bytes} (htree : t.fs = made.put own (.file ⟨data, 0⟩))
    (answers : List Read) :
    (t.afterReads own answers).fs = made.put own (.file ⟨data ++ arrived answers, 0⟩) ∧
      (t.afterReads own answers).received = t.received + (arrived answers).length ∧
      (t.afterReads own answers).reads = t.reads + answers.length := by
  induction answers generalizing t data with
  | nil => exact ⟨by rwa [arrived, List.flatMap_nil, List.append_nil], rfl, rfl⟩
  | cons read rest ih =>
    obtain ⟨hfs, hreceived, hreads⟩ := heed_spec (t := t.beginRead) htree read
    obtain ⟨hfs', hreceived', hreads'⟩ := ih hfs
    have harrived : arrived (read :: rest) = read.bytes ++ arrived rest := List.flatMap_cons
    have hafter : t.afterReads own (read :: rest) =
        (t.beginRead.heed own read).afterReads own rest := rfl
    have hcount : t.beginRead.received = t.received := rfl
    have hbegun : t.beginRead.reads = t.reads + 1 := rfl
    rw [hafter, harrived]
    refine ⟨?_, ?_, ?_⟩
    · rw [hfs', List.append_assoc]
    · rw [hreceived', hreceived, hcount, List.length_append, Nat.add_assoc]
    · rw [hreads', hreads, hbegun, List.length_cons]
      omega

namespace Store

variable {s : Store} {name : String} {keep : Name} {file : Path}

/-! ## After the last read -/

private theorem discard_reads (file : Path) (t : Transfer) : (discard file t).reads = t.reads := by
  rw [discard]
  cases t.fs.removeFile file <;> rfl

private theorem sweep_reads (s : Store) (keep : Name) (names : List Name) (t : Transfer) :
    (s.sweep keep names t).2.reads = t.reads := by
  induction names generalizing t with
  | nil => rfl
  | cons name rest ih =>
    by_cases hleft : s.isLeftover t.fs keep name = true
    · obtain ⟨loc, -, -, hsweep⟩ := sweep_leftover rest hleft
      rw [hsweep]
      exact ih _
    · rw [sweep_other hleft]
      exact ih t

private theorem settle_reads (s : Store) (keep : Name) (t : Transfer) :
    (s.settle keep t).2.reads = t.reads := by
  rw [settle, cleanUp]
  cases t.fs.readDir s.binDir with
  | error e => rfl
  | ok names =>
    simp only
    rw [sweep_eq_ok]
    exact sweep_reads s keep names t

private theorem install_spec (s : Store) (file : Path) (keep : Name) (t : Transfer) :
    (s.install file keep t).2.reads = t.reads ∧
      ∀ e, (s.install file keep t).1 = .error e → ∃ failure, e = .io failure := by
  have hsettle : ∀ t e, (s.settle keep t).1 = .error e → ∃ failure, e = .io failure := by
    intro t e herror
    rcases settle_cases s keep t with hok | ⟨-, failure, hfailed⟩
    · rw [hok] at herror
      cases herror
    · rw [hfailed] at herror
      exact ⟨failure, (Except.error.inj herror).symm⟩
  rw [install]
  cases s.persist file keep t.fs with
  | ok fs => exact ⟨settle_reads s keep _, hsettle _⟩
  | error failure =>
    simp only
    split
    · exact ⟨(settle_reads s keep _).trans (discard_reads file t), hsettle _⟩
    · exact ⟨discard_reads file t, fun e herror => ⟨failure, (Except.error.inj herror).symm⟩⟩

/-- A complete partial file that takes its final name brings its bytes to the place of the binary,
and nothing else changes. -/
theorem persist_complete {bin : Location} {bytes : Bytes} {fs : FileSystem}
    (hbegun : s.Begun bin own file made begun) (hkeep : Path.IsPlain keep)
    (htree : t.fs = made.put own (.file ⟨bytes, 0⟩)) (h : s.persist file keep t.fs = .ok fs) :
    fs = made.put (bin ++ [keep]) (.file ⟨bytes, 0⟩) := by
  have hown : t.fs.entry? own = some (.file ⟨bytes, 0⟩) := by
    rw [htree, entry?_put (ne_root_of_missing hbegun.missing), if_pos rfl]
  have hfresh : t.fs.FreshAt own := fun entry hentry =>
    ⟨bytes, Option.some.inj (hentry.symm.trans hown)⟩
  have hemptied : t.fs.emptied own = begun := by
    rw [htree, hbegun.tree]
    exact modify_put made own _ _
  have hbin : t.fs.DirAt s.binDir bin := (dirAt_emptied hfresh).mp (hemptied ▸ hbegun.dirAt)
  obtain ⟨loc, entry, loc', hloc, hentry, -, hloc', -, rfl⟩ := moveFile_eq_ok_iff.mp h
  rw [hbegun.resolve_file hbin] at hloc
  obtain rfl := Except.ok.inj hloc
  rw [hown] at hentry
  obtain rfl := Option.some.inj hentry
  obtain ⟨-, -, rfl⟩ := (resolve_pathOf hkeep hbin).mp hloc'
  rw [htree, put_erase, erase_of_missing hbegun.missing]

/-- What a replacement makes of the bytes that have arrived when its reads end. -/
inductive Concludes (s : Store) (name : String) (own : Location) (made begun : FileSystem)
    (bytes : Bytes) (run : Except Error Path × Transfer) : Ending → Prop
  | cancelled (result : run.1 = .error .cancelled) :
      Concludes s name own made begun bytes run .cancelled
  | failed {reason : String}
      (result : run.1 = .error (.fetch (.brokenStream name bytes.length reason))) :
      Concludes s name own made begun bytes run (.failed reason)
  | empty (hempty : bytes = []) (result : run.1 = .error (.fetch (.emptyBody name))) :
      Concludes s name own made begun bytes run .complete
  /-- The binary is complete in the partial file, which is then renamed. Where that succeeds, the
  tree is the one from before the partial file with just these bytes at the place of the binary. -/
  | renamed (hbytes : bytes ≠ []) {file : Path} {t : Transfer}
      (created : s.createPartial made = .ok (file, own, begun))
      (tree : t.fs = made.put own (.file ⟨bytes, 0⟩))
      (renames : ∀ fs, s.persist file (bytesOf name) t.fs = .ok fs →
        fs = made.put (own.dropLast ++ [bytesOf name]) (.file ⟨bytes, 0⟩))
      (result : run = s.install file (bytesOf name) t)
      (other : ∀ e, run.1 ≠ .error (.fetch e)) :
      Concludes s name own made begun bytes run .complete

private theorem concludes_of_download {bytes : Bytes} {u : Transfer}
    (hbegins : s.Begins name t₀ own made begun)
    (hcreate : s.createPartial made = .ok (file, own, begun))
    (hdownload : download own chunkSize source t = (ending, u))
    (htree : ending ≠ .cancelled → u.fs = made.put own (.file ⟨bytes, 0⟩))
    (hcount : ending ≠ .cancelled → u.received = bytes.length) :
    (s.receiveAndInstall name chunkSize source file own t).2.reads = u.reads ∧
      Concludes s name own made begun bytes (s.receiveAndInstall name chunkSize source file own t)
        ending := by
  rw [receiveAndInstall, hdownload]
  cases ending with
  | cancelled => exact ⟨discard_reads file u, .cancelled rfl⟩
  | failed reason =>
    have hending : Ending.failed reason ≠ .cancelled := by simp
    refine ⟨discard_reads file u, .failed ?_⟩
    simp only
    rw [hcount hending]
  | complete =>
    have hending : Ending.complete ≠ .cancelled := by simp
    have hzero : u.received = 0 ↔ bytes = [] := by rw [hcount hending, List.length_eq_zero_iff]
    simp only
    split
    · next hnone => exact ⟨discard_reads file u, .empty (hzero.mp hnone) rfl⟩
    · next hsome =>
      obtain ⟨hreads, hfailed⟩ := install_spec s file (bytesOf name) u
      have hbytes : bytes ≠ [] := fun hempty => hsome (hzero.mpr hempty)
      have hbegun := createPartial_begun hbegins.dirAt.1 hcreate
      refine ⟨hreads, .renamed hbytes hcreate (htree hending) (fun fs => ?_) rfl ?_⟩
      · exact persist_complete hbegun (accepts_iff.mp hbegins.accepted) (htree hending)
      · intro e herror
        obtain ⟨failure, hfailure⟩ := hfailed _ herror
        cases hfailure

/-- How a replacement ends that nobody disturbs. If the user has cancelled before, nothing is read.
Otherwise one read is the last: the first that brings bytes or is interrupted after the user has
cancelled, fails, or brings no bytes. It ends the replacement accordingly, the bytes before it are
those that have arrived, and whatever the stream would answer after it makes no difference. Reads
that bring bytes bring one at least, and no more than a chunk of them. -/
theorem replace_reads (hbegins : s.Begins name t own made begun)
    (hsource : source.IsUndisturbed) (chunkSize : Nat) :
    let run := s.replace name chunkSize source t
    (t.cancelled = true → run.1 = .error .cancelled ∧ run.2.reads = 0) ∧
      (t.cancelled = false →
        (∃ before last ending, LastRead (source.reads chunkSize) before last ending) ∧
        ∀ before last ending, LastRead (source.reads chunkSize) before last ending →
          run.2.reads = before.length + 1 ∧
          Concludes s name own made begun (arrived before) run ending ∧
          ∀ other : Source, other.IsUndisturbed →
            LastRead (other.reads chunkSize) before last ending →
            s.replace name chunkSize other t = run) ∧
      ∀ chunk shown, ⟨.bytes chunk, shown⟩ ∈ source.reads chunkSize →
        chunk ≠ [] ∧ chunk.length ≤ max chunkSize 1 := by
  intro run
  obtain ⟨-, _, hbegun⟩ := hbegins.dirAt
  obtain ⟨file, hcreate⟩ := hbegins.created
  let start := (t.restart.advance made).advance begun
  have hrun : ∀ source, s.replace name chunkSize source t =
      s.receiveAndInstall name chunkSize source file own start :=
    fun source => hbegins.replace_eq chunkSize source hcreate
  have hstart : start.fs = made.put own (.file ⟨[], 0⟩) := hbegun.tree
  refine ⟨fun hc => ?_, fun hc => ⟨?_, ?_⟩, fun _ _ => Source.bytes_of_mem_readsFrom⟩
  · have hdownload : download own chunkSize source start = (.cancelled, start) := if_pos hc
    have hcut : run = (.error .cancelled, discard file start) := by
      rw [show run = _ from hrun source, receiveAndInstall, hdownload]
    rw [hcut]
    exact ⟨rfl, discard_reads file start⟩
  · obtain ⟨shown, hfinished⟩ := Source.finished_mem_readsFrom chunkSize source false
    exact exists_lastRead ⟨_, hfinished, Option.some_ne_none _⟩
  · intro before last ending hlast
    have hdownload := download_eq own start hsource hc hlast
    obtain ⟨hfs, hreceived, hreads⟩ := afterReads_spec hstart (before ++ [last])
    have htree : ending ≠ .cancelled → (start.afterReads own (before ++ [last])).fs =
        made.put own (.file ⟨arrived before, 0⟩) := by
      intro hending
      rw [hfs, arrived_concat_last hlast hending, List.nil_append]
    have hbytes : ending ≠ .cancelled →
        (start.afterReads own (before ++ [last])).received = (arrived before).length := by
      intro hending
      rw [hreceived, arrived_concat_last hlast hending]
      exact Nat.zero_add _
    obtain ⟨hcount, hconcludes⟩ := concludes_of_download hbegins hcreate hdownload htree hbytes
    rw [show run = _ from hrun source]
    refine ⟨?_, hconcludes, ?_⟩
    · rw [hcount, hreads, List.length_append]
      exact Nat.zero_add _
    · intro other hother hlast'
      rw [hrun other, receiveAndInstall, receiveAndInstall, hdownload,
        download_eq own start hother hc hlast']

theorem replace_reads_broken_stream :
    let run := sampleStore.replace "e" 2 [.data [1, 2, 3], .interrupted, .cancel, .fail "reset"]
      { fs := sampleTree }
    run.1 = .error (.fetch (.brokenStream "e" 3 "reset")) ∧ run.2.reads = 4 ∧
      sampleStore.replace "e" 2 [.data [1, 2, 3], .interrupted, .cancel, .fail "reset", .data [4]]
        { fs := sampleTree } = run := by
  intro run
  have hsource : Source.IsUndisturbed [.data [1, 2, 3], .interrupted, .cancel, .fail "reset"] := by
    intro act hact
    simp at hact
  have hother : Source.IsUndisturbed
      [.data [1, 2, 3], .interrupted, .cancel, .fail "reset", .data [4]] := by
    intro act hact
    simp at hact
  obtain ⟨-, hlast⟩ := (replace_reads sample_begins hsource 2).2.1 rfl
  obtain ⟨hreads, hconcludes, hsame⟩ := hlast
    [⟨.bytes [1, 2], false⟩, ⟨.bytes [3], false⟩, ⟨.interrupted, false⟩] ⟨.failed "reset", true⟩
    (.failed "reset") ⟨by decide +kernel, by decide, rfl⟩
  refine ⟨?_, hreads, hsame _ hother ⟨by decide +kernel, by decide, rfl⟩⟩
  cases hconcludes with
  | failed result => exact result

end Store

end EngineClient
