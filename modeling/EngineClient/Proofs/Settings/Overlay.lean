import Mathlib
import EngineClient.Settings

/-!
# Settings laid over others

A table is known by what it answers for each name, since its entries are in order. Laying settings
over others is setting their entries one by one: a name of the upper settings has the value it has
there, and any other name the value it has in the lower ones.
-/

namespace EngineClient

/-! ## Rows -/

section Rows

variable {α : Type} {row row' : List (String × α)} {name : String} {value : α}

private theorem lookup_entry_cons (name : String) (entry : String × α) (rest : List (String × α)) :
    (entry :: rest).lookup name = if name = entry.1 then some entry.2 else rest.lookup name := by
  rw [List.lookup_cons]
  by_cases hname : name = entry.1
  · rw [if_pos hname, beq_iff_eq.mpr hname]
  · rw [if_neg hname, beq_false_of_ne hname]

private theorem lookup_insertEntry (name key : String) (value : α) (row : List (String × α)) :
    (insertEntry key value row).lookup name =
      if name = key then some value else row.lookup name := by
  induction row with
  | nil => exact lookup_entry_cons name (key, value) []
  | cons entry rest ih =>
    rw [insertEntry]
    split
    · exact lookup_entry_cons name (key, value) (entry :: rest)
    split
    · next heq =>
      rw [lookup_entry_cons, lookup_entry_cons, ← heq]
      split <;> rfl
    · next hne =>
      rw [lookup_entry_cons, ih, lookup_entry_cons name entry rest]
      by_cases hname : name = entry.1
      · have hkey : name ≠ key := fun h => hne (h.symm.trans hname)
        rw [if_pos hname, if_neg hkey, if_pos hname]
      · rw [if_neg hname, if_neg hname]

private theorem lookup_map {β : Type} (f : α → β) (name : String) (row : List (String × α)) :
    (row.map fun entry => (entry.1, f entry.2)).lookup name = (row.lookup name).map f := by
  induction row with
  | nil => rfl
  | cons entry rest ih =>
    rw [List.map_cons, lookup_entry_cons, lookup_entry_cons, ih]
    split <;> rfl

namespace InOrder

theorem lookup_eq_some_iff (h : InOrder row) :
    row.lookup name = some value ↔ (name, value) ∈ row := by
  induction row with
  | nil => simp
  | cons entry rest ih =>
    obtain ⟨hentry, hrest⟩ := List.pairwise_cons.mp h
    rw [lookup_entry_cons, List.mem_cons]
    by_cases hname : name = entry.1
    · subst hname
      have hnot : (entry.1, value) ∉ rest := by
        intro hmem
        exact String.lt_irrefl _ (hentry (entry.1, value) hmem)
      rw [if_pos rfl, or_iff_left hnot, Option.some.injEq, Prod.ext_iff]
      exact ⟨fun h => ⟨rfl, h.symm⟩, fun h => h.2.symm⟩
    · have hnot : (name, value) ≠ entry := fun h => hname (congrArg Prod.fst h)
      rw [if_neg hname, ih hrest, or_iff_right hnot]

private theorem lookup_first {entry : String × α} (h : InOrder (entry :: row)) :
    row.lookup entry.1 = none := by
  obtain ⟨hentry, -⟩ := List.pairwise_cons.mp h
  refine List.lookup_eq_none_iff.mpr fun other hother => ?_
  exact bne_iff_ne.mpr (String.ne_of_lt (hentry other hother))

private theorem nodup (h : InOrder row) : row.Nodup := by
  refine List.Pairwise.imp (fun {a b} hlt heq => ?_) h
  exact String.ne_of_lt hlt (congrArg Prod.fst heq)

private theorem ext (h : InOrder row) (h' : InOrder row')
    (hsame : ∀ name, row.lookup name = row'.lookup name) : row = row' := by
  have hperm : row.Perm row' := by
    refine (List.perm_ext_iff_of_nodup h.nodup h'.nodup).mpr fun entry => ?_
    rw [← Prod.mk.eta (p := entry), ← h.lookup_eq_some_iff, hsame, h'.lookup_eq_some_iff]
  refine List.Perm.eq_of_pairwise (fun a b _ _ hlt hlt' => ?_) h h' hperm
  exact absurd (String.lt_trans hlt hlt') (String.lt_irrefl _)

end InOrder

end Rows

/-! ## Tables -/

namespace Table

variable {α β : Type} {t t' : Table α}

private theorem ext_get? (h : ∀ key, t.get? key = t'.get? key) : t = t' := by
  obtain ⟨row, hrow⟩ := t
  obtain ⟨row', hrow'⟩ := t'
  obtain rfl := hrow.ext hrow' h
  rfl

theorem get?_insert (t : Table α) (key : String) (value : α) (name : String) :
    (t.insert key value).get? name = if name = key then some value else t.get? name :=
  lookup_insertEntry name key value t.entries

private theorem get?_overlay (t above : Table α) (name : String) :
    (t.overlay above).get? name = (above.get? name).or (t.get? name) := by
  obtain ⟨row, hrow⟩ := above
  change (row.foldl (fun t entry => t.insert entry.1 entry.2) t).get? name =
    (row.lookup name).or (t.get? name)
  induction row generalizing t with
  | nil => rfl
  | cons entry rest ih =>
    rw [List.foldl_cons, ih _ (List.pairwise_cons.mp hrow).2, get?_insert, lookup_entry_cons]
    by_cases hname : name = entry.1
    · rw [if_pos hname, if_pos hname, hname, hrow.lookup_first]
      rfl
    · rw [if_neg hname, if_neg hname]

private theorem empty_overlay (t : Table α) : empty.overlay t = t :=
  ext_get? fun key => by
    rw [get?_overlay]
    exact Option.or_none

/-- The table with a function applied to each value. -/
def map (f : α → β) (t : Table α) : Table β where
  entries := t.entries.map fun entry => (entry.1, f entry.2)
  inOrder := by
    rw [InOrder, List.pairwise_map]
    exact t.inOrder

private theorem get?_map (f : α → β) (t : Table α) (name : String) :
    (t.map f).get? name = (t.get? name).map f := lookup_map f name t.entries

theorem map_insert (f : α → β) (t : Table α) (key : String) (value : α) :
    (t.insert key value).map f = (t.map f).insert key (f value) :=
  ext_get? fun name => by
    simp only [get?_map, get?_insert]
    split <;> rfl

theorem map_overlay (f : α → β) (t above : Table α) :
    (t.overlay above).map f = (t.map f).overlay (above.map f) :=
  ext_get? fun key => by
    simp only [get?_map, get?_overlay]
    cases above.get? key <;> rfl

end Table

/-! ## Settings -/

namespace Settings

/-- What it means that settings are laid over others: a name has the value it has in the upper ones,
and the value it has in the lower ones if the upper ones do not have it. -/
structure Overlays (above base merged : Settings) : Prop where
  strings : ∀ key, merged.strings.get? key = (above.strings.get? key).or (base.strings.get? key)
  ints : ∀ key, merged.ints.get? key = (above.ints.get? key).or (base.ints.get? key)
  floats : ∀ key, merged.floats.get? key = (above.floats.get? key).or (base.floats.get? key)
  bytes : ∀ key, merged.bytes.get? key = (above.bytes.get? key).or (base.bytes.get? key)
  bools : ∀ key, merged.bools.get? key = (above.bools.get? key).or (base.bools.get? key)

theorem overlay_overlays (base above : Settings) : Overlays above base (base.overlay above) where
  strings := Table.get?_overlay _ _
  ints := Table.get?_overlay _ _
  floats := Table.get?_overlay _ _
  bytes := Table.get?_overlay _ _
  bools := Table.get?_overlay _ _

theorem empty_overlay (s : Settings) : empty.overlay s = s := by
  simp only [overlay, empty, Table.empty_overlay]

/-- The settings one by one, type by type in the order of their names. -/
def entries (s : Settings) : List Entry :=
  (s.strings.entries.map fun e => Entry.string e.1 e.2) ++
    (s.ints.entries.map fun e => Entry.int e.1 e.2) ++
    (s.floats.entries.map fun e => Entry.float e.1 e.2) ++
    (s.bytes.entries.map fun e => Entry.bytes e.1 e.2) ++
    (s.bools.entries.map fun e => Entry.bool e.1 e.2)

private theorem foldl_set_table {α : Type} (entry : String × α → Entry)
    (put : Settings → Table α → Settings) (get : Settings → Table α)
    (hset : ∀ s t e, (put s t).set (entry e) = put s (t.insert e.1 e.2))
    (hput : ∀ s, put s (get s) = s) (s : Settings) (above : Table α) :
    (above.entries.map entry).foldl set s = put s ((get s).overlay above) := by
  rw [List.foldl_map]
  nth_rewrite 1 [← hput s]
  exact List.foldl_hom (put s) (hset s)

theorem foldl_set_entries (base s : Settings) : s.entries.foldl set base = base.overlay s := by
  simp only [entries, List.foldl_append]
  rw [foldl_set_table _ (fun b t => { b with strings := t }) strings (fun _ _ _ => rfl)
      fun _ => rfl,
    foldl_set_table _ (fun b t => { b with ints := t }) ints (fun _ _ _ => rfl) fun _ => rfl,
    foldl_set_table _ (fun b t => { b with floats := t }) floats (fun _ _ _ => rfl) fun _ => rfl,
    foldl_set_table _ (fun b t => { b with bytes := t }) bytes (fun _ _ _ => rfl) fun _ => rfl,
    foldl_set_table _ (fun b t => { b with bools := t }) bools (fun _ _ _ => rfl) fun _ => rfl]
  rfl

end Settings

end EngineClient
