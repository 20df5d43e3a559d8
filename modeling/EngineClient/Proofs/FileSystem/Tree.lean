import Mathlib
import EngineClient.Proofs.FileSystem.Directories

/-!
# Proper trees

In a tree as systems keep it every name is plain and the working directory exists, with all those
above it. Creating directories keeps a tree so, and there is a way to every directory in it.
-/

namespace EngineClient.FileSystem

/-- Whether a file system is as systems keep it. -/
structure IsTree (fs : FileSystem) : Prop where
  plain : ∀ dir name, fs.entry? (dir ++ [name]) ≠ none → Path.IsPlain name
  workDir : ∀ loc, loc <+: fs.workDir → fs.entry? loc = some .dir

variable {fs fs' : FileSystem} {follow : Bool} {n : Nat} {here loc out : Location}
variable {names : List Name} {p : Path}

private theorem Leads.plain (h : Leads fs follow n here names out)
    (hhere : ∀ name ∈ here, Path.IsPlain name)
    (hnames : ∀ name ∈ names, name ≠ [] ∧ Path.slash ∉ name) :
    ∀ name ∈ out, Path.IsPlain name := by
  have hsnoc : ∀ {dir : Location} {name : Name}, (∀ x ∈ dir, Path.IsPlain x) → IsStep name →
      name ≠ [] ∧ Path.slash ∉ name → ∀ x ∈ dir ++ [name], Path.IsPlain x := by
    intro dir name hdir hstep hname x hx
    rcases List.mem_append.mp hx with hx | hx
    · exact hdir x hx
    · obtain rfl := List.mem_singleton.mp hx
      exact ⟨hname.1, hname.2, hstep.1, hstep.2.1⟩
  induction h with
  | done here => exact hhere
  | self h ih => exact ih hhere fun x hx => hnames x (List.mem_cons_of_mem _ hx)
  | up h ih =>
    exact ih (fun x hx => hhere x (List.mem_of_mem_dropLast hx))
      fun x hx => hnames x (List.mem_cons_of_mem _ hx)
  | enter hname hdir h ih =>
    exact ih (hsnoc hhere hname (hnames _ List.mem_cons_self))
      fun x hx => hnames x (List.mem_cons_of_mem _ hx)
  | stop hname hstop => exact hsnoc hhere hname (hnames _ List.mem_cons_self)
  | @jump n here name rest out target hname hlink hon h ih =>
    apply ih
    · split
      · exact fun x hx => absurd hx List.not_mem_nil
      · exact hhere
    · intro x hx
      rcases List.mem_append.mp hx with hx | hx
      · exact Path.of_mem_steps hx
      · exact hnames x (List.mem_cons_of_mem _ hx)

theorem isTree_of_entries (hplain : ∀ e ∈ fs.entries, ∀ name ∈ e.1.getLast?, Path.IsPlain name)
    (hwork : fs.workDir = []) : fs.IsTree where
  plain := by
    intro dir name h
    obtain ⟨e, he, hname⟩ := List.mem_filterMap.mp (mem_names.mpr h)
    split at hname
    · exact hplain e he name hname
    · cases hname
  workDir := by
    intro loc hloc
    rw [hwork] at hloc
    obtain rfl := List.prefix_nil.mp hloc
    rfl

namespace IsTree

private theorem plain_workDir (h : fs.IsTree) : ∀ name ∈ fs.workDir, Path.IsPlain name := by
  intro name hname
  obtain ⟨above, below, hdir⟩ := List.append_of_mem hname
  apply h.plain above name
  rw [h.workDir (above ++ [name])]
  · nofun
  · exact ⟨below, by simp [hdir]⟩

private theorem passable_workDir (h : fs.IsTree) : fs.Passable fs.workDir := by
  intro above entry habove hentry
  rw [h.workDir above habove] at hentry
  exact (Option.some.inj hentry).symm

theorem passable (h : fs.IsTree) (hdir : fs.DirAt p loc) : fs.Passable loc := by
  obtain ⟨-, n, -, hleads⟩ := resolve_eq_ok_iff.mp hdir.1
  refine hleads.passable ?_ hdir.2
  rw [start]
  split
  · exact passable_root fs
  · exact h.passable_workDir

/-- Creating directories makes no tree improper. -/
theorem madeWay (h : fs.IsTree) (hway : MadeWay p fs fs') : fs'.IsTree := by
  have hwork : ∀ loc, loc <+: fs'.workDir → fs'.entry? loc = some .dir := by
    intro loc hloc
    rw [hway.workDir] at hloc
    exact hway.kept _ _ (h.workDir loc hloc)
  refine ⟨fun dir name hname => ?_, hwork⟩
  rcases hway.entries (dir ++ [name]) with hsame | ⟨-, q, -, hdir⟩
  · exact h.plain dir name (hsame ▸ hname)
  · obtain ⟨-, n, -, hleads⟩ := resolve_eq_ok_iff.mp hdir.1
    refine hleads.plain ?_ (fun _ => Path.of_mem_steps) name (by simp)
    rw [start]
    split
    · exact fun x hx => absurd hx List.not_mem_nil
    · rw [hway.workDir]
      exact h.plain_workDir

/-- Files under plain names make no tree improper, as long as no directory is lost. -/
theorem of_later {new : Location → Prop} (h : fs.IsTree) (hwork : fs'.workDir = fs.workDir)
    (hlater : OnlyFilesAt new fs fs')
    (hnew : ∀ dir name, new (dir ++ [name]) → Path.IsPlain name)
    (hdirs : ∀ loc, fs.entry? loc = some .dir → fs'.entry? loc = some .dir) : fs'.IsTree where
  plain := by
    intro dir name hname
    obtain ⟨entry, hentry⟩ := Option.ne_none_iff_exists'.mp hname
    rcases hlater _ entry hentry with hold | ⟨hplace, -⟩
    · exact h.plain dir name (by rw [hold]; nofun)
    · exact hnew dir name hplace
  workDir := fun loc hloc => hdirs loc (h.workDir loc (hwork ▸ hloc))

end IsTree

/-! ## Trees in which nothing stands twice -/

/-- No location is listed more than once. Each change of entries keeps it so. -/
def IsDistinct (fs : FileSystem) : Prop := (fs.entries.map Prod.fst).Nodup

namespace IsDistinct

private theorem erase (h : fs.IsDistinct) (loc : Location) : (fs.erase loc).IsDistinct :=
  h.sublist (List.filter_sublist.map _)

theorem eraseTree (h : fs.IsDistinct) (loc : Location) : (fs.eraseTree loc).IsDistinct :=
  h.sublist (List.filter_sublist.map _)

theorem put (h : fs.IsDistinct) (loc : Location) (entry : Entry) :
    (fs.put loc entry).IsDistinct := by
  refine List.nodup_cons.mpr ⟨?_, h.erase loc⟩
  rintro hmem
  obtain ⟨e, he, heq⟩ := List.mem_map.mp hmem
  have hne : e.1 ≠ loc := by simpa using (List.mem_filter.mp he).2
  exact hne heq

theorem modify (h : fs.IsDistinct) (loc : Location) (change : Entry → Entry) :
    (fs.modify loc change).IsDistinct := by
  have hkeys : (fs.modify loc change).entries.map Prod.fst = fs.entries.map Prod.fst := by
    rw [FileSystem.modify, List.map_map]
    refine List.map_congr_left fun e _ => ?_
    rw [Function.comp_apply]
    split <;> rfl
  rw [IsDistinct, hkeys]
  exact h

theorem nodup_names (h : fs.IsDistinct) (dir : Location) : (fs.names dir).Nodup := by
  let nameIn (loc : Location) : Option Name := if loc.dropLast = dir then loc.getLast? else none
  have hnames : fs.names dir = (fs.entries.map Prod.fst).filterMap nameIn := by
    rw [List.filterMap_map]
    rfl
  have hloc : ∀ {loc name}, name ∈ nameIn loc → loc = dir ++ [name] := by
    intro loc name hname
    simp only [nameIn] at hname
    split at hname
    · next hdir =>
      rw [← hdir]
      exact (List.dropLast_append_getLast? name hname).symm
    · cases hname
  rw [hnames]
  exact h.filterMap fun loc loc' name hname hname' => (hloc hname).trans (hloc hname').symm

end IsDistinct

end EngineClient.FileSystem
