/-!
# Tables of settings

A table maps names to values and keeps its entries in the order of the names, so two tables with the
same values are equal.
-/

namespace EngineClient

/-- Adds an entry to a row that is in order, or replaces the entry of the same name. -/
def insertEntry {α : Type} (key : String) (value : α) : List (String × α) → List (String × α)
  | [] => [(key, value)]
  | entry :: rest =>
    if key < entry.1 then (key, value) :: entry :: rest
    else if key = entry.1 then (key, value) :: rest
    else entry :: insertEntry key value rest

theorem mem_insertEntry {α : Type} {key : String} {value : α} {row : List (String × α)}
    {e : String × α} (h : e ∈ insertEntry key value row) : e = (key, value) ∨ e ∈ row := by
  induction row with
  | nil => simpa [insertEntry] using h
  | cons entry rest ih =>
    unfold insertEntry at h
    split at h
    · simpa using h
    · split at h
      · rcases List.mem_cons.1 h with h | h
        · exact .inl h
        · exact .inr (List.mem_cons_of_mem _ h)
      · rcases List.mem_cons.1 h with h | h
        · exact .inr (h ▸ List.mem_cons_self)
        · exact (ih h).imp_right (List.mem_cons_of_mem _)

/-- The entries stand in the order of their names, and no name occurs twice. -/
def InOrder {α : Type} (row : List (String × α)) : Prop :=
  row.Pairwise fun a b => a.1 < b.1

theorem inOrder_insertEntry {α : Type} (key : String) (value : α) {row : List (String × α)}
    (h : InOrder row) : InOrder (insertEntry key value row) := by
  induction row with
  | nil => simp [insertEntry, InOrder]
  | cons entry rest ih =>
    have hrest := (List.pairwise_cons.1 h).2
    have hentry := (List.pairwise_cons.1 h).1
    unfold insertEntry
    split
    · rename_i hlt
      refine List.pairwise_cons.2 ⟨fun e he => ?_, h⟩
      rcases List.mem_cons.1 he with he | he
      · exact he ▸ hlt
      · exact String.lt_trans hlt (hentry e he)
    · split
      · rename_i heq
        exact List.pairwise_cons.2 ⟨fun e he => heq ▸ hentry e he, hrest⟩
      · rename_i hlt hne
        refine List.pairwise_cons.2 ⟨fun e he => ?_, ih hrest⟩
        rcases mem_insertEntry he with he | he
        · subst he
          rcases String.le_total key entry.1 with hle | hle
          · exact absurd (String.le_antisymm hle (String.not_lt.1 hlt)) hne
          · exact String.not_le.1 fun hle' => hne (String.le_antisymm hle' hle)
        · exact hentry e he

/-- A map from names to values with its entries in the order of the names. -/
structure Table (α : Type) where
  entries : List (String × α)
  inOrder : InOrder entries

namespace Table

variable {α : Type}

def empty : Table α := ⟨[], List.Pairwise.nil⟩

def get? (t : Table α) (key : String) : Option α := t.entries.lookup key

def insert (t : Table α) (key : String) (value : α) : Table α :=
  ⟨insertEntry key value t.entries, inOrder_insertEntry key value t.inOrder⟩

/-- Sets every value of `above` in `t`. -/
def overlay (t above : Table α) : Table α :=
  above.entries.foldl (fun t entry => t.insert entry.1 entry.2) t

end Table

end EngineClient
