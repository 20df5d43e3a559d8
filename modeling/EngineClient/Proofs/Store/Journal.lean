import Mathlib
import EngineClient.Proofs.Store.Reception

/-!
# Journals

A journal holds the trees that a transfer passes through. If a property of trees outlasts writing to
the partial file, then all trees that a stream passes through have it.
-/

namespace EngineClient

/-- The trees that have been passed through, the present one first, if a journal is kept. -/
def Transfer.visited (t : Transfer) : Option (List FileSystem) := t.journal.map (t.fs :: ·)

theorem Transfer.visited_advance (t : Transfer) (fs : FileSystem) :
    (t.advance fs).visited = t.visited.map (fs :: ·) := by
  rw [visited, visited, advance]

/-- One state of a transfer comes after another, and all trees between them, the last one included,
have a property. -/
structure Goes (P : FileSystem → Prop) (t t' : Transfer) : Prop where
  visits : ∃ new, t'.visited = t.visited.map (new ++ ·) ∧ ∀ fs ∈ new, P fs
  arrives : P t'.fs

variable {P : FileSystem → Prop} {t t' t'' : Transfer} {own : Location} {source : Source}
variable {chunkSize : Nat}

namespace Goes

theorem refl (h : P t.fs) : Goes P t t := ⟨⟨[], by simp, nofun⟩, h⟩

theorem advance {fs : FileSystem} (h : P fs) : Goes P t (t.advance fs) :=
  ⟨⟨[fs], Transfer.visited_advance t fs, by simpa using h⟩, h⟩

theorem trans (h : Goes P t t') (h' : Goes P t' t'') : Goes P t t'' := by
  obtain ⟨new, hnew, hP⟩ := h.visits
  obtain ⟨new', hnew', hP'⟩ := h'.visits
  refine ⟨⟨new' ++ new, ?_, ?_⟩, h'.arrives⟩
  · rw [hnew', hnew]
    cases t.visited <;> simp
  · intro fs hfs
    rcases List.mem_append.mp hfs with hfs | hfs
    · exact hP' fs hfs
    · exact hP fs hfs

theorem states {past : List FileSystem} (h : Goes P t t') (ht : t.visited = some past) :
    ∃ states, t'.visited = some (states ++ past) ∧ ∀ fs ∈ states, P fs := by
  obtain ⟨states, hvisited, hP⟩ := h.visits
  exact ⟨states, by rw [hvisited, ht]; rfl, hP⟩

end Goes

/-! ## Downloads -/

section Download

variable (hP : ∀ fs data, P fs → P (fs.append own data))

include hP

private theorem write_goes (h : P t.fs) (bytes : Bytes) : Goes P t (t.write own bytes) := by
  have hadvance : Goes P t (t.advance (t.fs.append own bytes)) := Goes.advance (hP _ _ h)
  exact ⟨hadvance.visits, hadvance.arrives⟩

private theorem foldl_write_goes (h : P t.fs) (chunks : List Bytes) :
    Goes P t (chunks.foldl (fun t chunk => t.beginRead.write own chunk) t) := by
  induction chunks generalizing t with
  | nil => exact Goes.refl h
  | cons chunk rest ih =>
    have hwrite : Goes P t (t.beginRead.write own chunk) := by
      have hgoes := write_goes hP (t := t.beginRead) h chunk
      exact ⟨hgoes.visits, hgoes.arrives⟩
    exact hwrite.trans (ih hwrite.arrives)

private theorem receive_goes (h : P t.fs) (hsource : source.IsUndisturbed) :
    Goes P t (receive own chunkSize source t).2 := by
  induction source generalizing t with
  | nil => exact Goes.refl h
  | cons event rest ih =>
    have hrest : ∀ {t : Transfer}, P t.fs →
        Goes P t (receive own chunkSize rest t.beginRead).2 := by
      intro t h
      have hgoes := ih (t := t.beginRead) h hsource.tail
      exact ⟨hgoes.visits, hgoes.arrives⟩
    cases event with
    | data bytes =>
      rw [receive]
      cases chunks (chunkSize - 1) bytes with
      | nil => exact Goes.refl h
      | cons first others =>
        have hfirst := write_goes hP h first
        simp only
        split
        · exact hfirst
        · have hothers := foldl_write_goes hP hfirst.arrives others
          exact (hfirst.trans hothers).trans (hrest hothers.arrives)
    | interrupted =>
      rw [receive]
      split
      · exact Goes.refl h
      · exact hrest h
    | fail reason => exact Goes.refl h
    | cancel =>
      have hgoes := ih (t := { t with cancelled := true }) h hsource.tail
      exact ⟨hgoes.visits, hgoes.arrives⟩
    | outside act => exact absurd List.mem_cons_self (hsource act)

theorem download_goes (h : P t.fs) (hsource : source.IsUndisturbed) :
    Goes P t (download own chunkSize source t).2 := by
  rw [download]
  split
  · exact Goes.refl h
  · have hgoes : Goes P t.beginRead (receive own chunkSize source t.beginRead).2 :=
      receive_goes hP h hsource
    exact ⟨hgoes.visits, hgoes.arrives⟩

end Download

theorem Store.discard_goes {file : Path} (h : P t.fs)
    (hremove : ∀ fs, t.fs.removeFile file = .ok fs → P fs) : Goes P t (discard file t) := by
  rw [discard]
  cases hfile : t.fs.removeFile file with
  | error e => exact Goes.refl h
  | ok fs => exact Goes.advance (hremove fs hfile)

end EngineClient
