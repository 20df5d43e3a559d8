import Mathlib
import EngineClient.Proofs.FileSystem.Entries
import EngineClient.Proofs.FileSystem.Paths

/-!
# Where paths lead

`Leads` tells the steps of a path that is resolved, one rule for each kind of step, with the number
of links followed. Resolving answers with a location exactly when the path leads there over few
enough links. Whatever is to be known about resolved paths is proved by induction on the steps.
-/

namespace EngineClient.FileSystem

/-- Whether the last step of a path may end at a location: nothing to be followed stands there. -/
def Stops (fs : FileSystem) (follow : Bool) (loc : Location) : Prop :=
  fs.entry? loc = none ∨ (∃ f, fs.entry? loc = some (.file f)) ∨
    follow = false ∧ ∃ target, fs.entry? loc = some (.link target)

/-- Whether a name is one that is looked up. -/
def IsStep (name : Name) : Prop := name ≠ Path.self ∧ name ≠ Path.up ∧ name.length ≤ maxName

/-- The names lead from a directory to a location, over some number of links. A link at the end
counts as a place of its own unless it is to be followed. -/
inductive Leads (fs : FileSystem) (follow : Bool) : Nat → Location → List Name → Location → Prop
  | done (here : Location) : Leads fs follow 0 here [] here
  | self {n here rest out} (h : Leads fs follow n here rest out) :
      Leads fs follow n here (Path.self :: rest) out
  | up {n here rest out} (h : Leads fs follow n here.dropLast rest out) :
      Leads fs follow n here (Path.up :: rest) out
  | enter {n here name rest out} (hname : IsStep name)
      (hdir : fs.entry? (here ++ [name]) = some .dir)
      (h : Leads fs follow n (here ++ [name]) rest out) : Leads fs follow n here (name :: rest) out
  | stop {here name} (hname : IsStep name) (hstop : fs.Stops follow (here ++ [name])) :
      Leads fs follow 0 here [name] (here ++ [name])
  | jump {n here name rest out target} (hname : IsStep name)
      (hlink : fs.entry? (here ++ [name]) = some (.link target))
      (hon : rest ≠ [] ∨ follow = true)
      (h : Leads fs follow n (if target.isAbsolute then [] else here) (target.steps ++ rest) out) :
      Leads fs follow (n + 1) here (name :: rest) out

variable {fs : FileSystem} {follow : Bool} {n m links : Nat} {here loc out out' : Location}
variable {name : Name} {names rest : List Name}

/-! ## Resolving follows the steps -/

private theorem leads_of_stepWith {bound : Nat}
    {jump : Location → Path → List Name → Except IoError Location}
    (hjump : ∀ here target rest out, jump here target rest = .ok out →
      ∃ n, n + 1 ≤ bound ∧
        Leads fs follow n (if target.isAbsolute then [] else here) (target.steps ++ rest) out)
    (h : fs.stepWith follow jump here names = .ok out) :
    ∃ n ≤ bound, Leads fs follow n here names out := by
  induction names generalizing here with
  | nil =>
    obtain rfl := Except.ok.inj h
    exact ⟨0, Nat.zero_le _, .done here⟩
  | cons name rest ih =>
    rw [stepWith] at h
    by_cases hself : name = Path.self
    · rw [if_pos hself] at h
      obtain ⟨n, hn, hleads⟩ := ih h
      exact ⟨n, hn, hself ▸ .self hleads⟩
    by_cases hup : name = Path.up
    · rw [if_neg hself, if_pos hup] at h
      obtain ⟨n, hn, hleads⟩ := ih h
      exact ⟨n, hn, hup ▸ .up hleads⟩
    by_cases hlong : maxName < name.length
    · rw [if_neg hself, if_neg hup, if_pos hlong] at h
      cases h
    rw [if_neg hself, if_neg hup, if_neg hlong] at h
    have hname : IsStep name := ⟨hself, hup, Nat.le_of_not_lt hlong⟩
    cases hentry : fs.entry? (here ++ [name]) with
    | none =>
      simp only [hentry] at h
      split at h
      · next hrest =>
        obtain rfl := List.isEmpty_iff.mp hrest
        obtain rfl := Except.ok.inj h
        exact ⟨0, Nat.zero_le _, .stop hname (Or.inl hentry)⟩
      · cases h
    | some entry =>
      cases entry with
      | dir =>
        simp only [hentry] at h
        obtain ⟨n, hn, hleads⟩ := ih h
        exact ⟨n, hn, .enter hname hentry hleads⟩
      | file f =>
        simp only [hentry] at h
        split at h
        · next hrest =>
          obtain rfl := List.isEmpty_iff.mp hrest
          obtain rfl := Except.ok.inj h
          exact ⟨0, Nat.zero_le _, .stop hname (Or.inr (Or.inl ⟨f, hentry⟩))⟩
        · cases h
      | link target =>
        simp only [hentry] at h
        split at h
        · next hrest =>
          simp only [Bool.and_eq_true, List.isEmpty_iff, Bool.not_eq_true'] at hrest
          obtain ⟨rfl, hfollow⟩ := hrest
          obtain rfl := Except.ok.inj h
          exact ⟨0, Nat.zero_le _, .stop hname (Or.inr (Or.inr ⟨hfollow, target, hentry⟩))⟩
        · next hrest =>
          obtain ⟨n, hn, hleads⟩ := hjump _ _ _ _ h
          refine ⟨n + 1, hn, .jump hname hentry ?_ hleads⟩
          by_cases hnil : rest = []
          · exact Or.inr (by simpa [hnil] using hrest)
          · exact Or.inl hnil

private theorem leads_of_walk (h : fs.walk follow links here names = .ok out) :
    ∃ n ≤ links, Leads fs follow n here names out := by
  induction links generalizing here names out with
  | zero =>
    apply leads_of_stepWith _ h
    intro here target rest out hjump
    cases hjump
  | succ links ih =>
    apply leads_of_stepWith _ h
    intro here target rest out hjump
    obtain ⟨n, hn, hleads⟩ := ih hjump
    exact ⟨n, Nat.succ_le_succ hn, hleads⟩

private theorem walk_of_leads (h : Leads fs follow n here names out) (hn : n ≤ links) :
    fs.walk follow links here names = .ok out := by
  induction h generalizing links with
  | done here => cases links <;> simp only [walk, stepWith]
  | self h ih =>
    have := ih hn
    cases links <;> simpa only [walk, stepWith, if_true] using this
  | up h ih =>
    have hne : Path.up ≠ Path.self := by decide
    have := ih hn
    cases links <;> simpa only [walk, stepWith, hne, if_false, if_true] using this
  | enter hname hdir h ih =>
    obtain ⟨hself, hup, hlen⟩ := hname
    have := ih hn
    cases links <;>
      simpa only [walk, stepWith, hself, hup, Nat.not_lt.mpr hlen, if_false, hdir] using this
  | stop hname hstop =>
    obtain ⟨hself, hup, hlen⟩ := hname
    rcases hstop with hnone | ⟨f, hfile⟩ | ⟨hfollow, target, hlink⟩
    · cases links <;>
        simp [walk, stepWith, hself, hup, Nat.not_lt.mpr hlen, hnone]
    · cases links <;>
        simp [walk, stepWith, hself, hup, Nat.not_lt.mpr hlen, hfile]
    · cases links <;>
        simp [walk, stepWith, hself, hup, Nat.not_lt.mpr hlen, hlink, hfollow]
  | @jump n here name rest out target hname hlink hon h ih =>
    obtain ⟨hself, hup, hlen⟩ := hname
    cases links with
    | zero => exact absurd hn (Nat.not_succ_le_zero _)
    | succ links =>
      have hgo : ¬(rest.isEmpty && !follow) = true := by
        rcases hon with hrest | hfollow
        · simp [hrest]
        · simp [hfollow]
      simp only [walk, stepWith, hself, hup, Nat.not_lt.mpr hlen, if_false, hlink, hgo]
      exact ih (Nat.le_of_succ_le_succ hn)

/-- A walk over at most some number of links ends where the names lead over that many. -/
theorem walk_eq_ok_iff : fs.walk follow links here names = .ok out ↔
    ∃ n ≤ links, Leads fs follow n here names out :=
  ⟨leads_of_walk, fun ⟨_, hn, hleads⟩ => walk_of_leads hleads hn⟩

theorem Leads.unique (h : Leads fs follow n here names out)
    (h' : Leads fs follow m here names out') : out = out' := by
  have hwalk := walk_of_leads h (Nat.le_max_left n m)
  rw [walk_of_leads h' (Nat.le_max_right n m)] at hwalk
  exact (Except.ok.inj hwalk).symm

/-! ## The way to a location -/

/-- Nothing but directories stands on the way to a location. -/
def Passable (fs : FileSystem) (loc : Location) : Prop :=
  ∀ above entry, above <+: loc → fs.entry? above = some entry → entry = .dir

theorem passable_root (fs : FileSystem) : fs.Passable [] := by
  intro above entry habove hentry
  obtain rfl := List.prefix_nil.mp habove
  exact (Option.some.inj hentry).symm

private theorem Passable.dropLast (h : fs.Passable loc) : fs.Passable loc.dropLast :=
  fun above entry habove => h above entry (habove.trans (List.dropLast_prefix loc))

private theorem Passable.snoc (h : fs.Passable loc) (hdir : fs.entry? (loc ++ [name]) = some .dir) :
    fs.Passable (loc ++ [name]) := by
  intro above entry habove hentry
  rcases List.prefix_concat_iff.mp habove with rfl | habove
  · rw [hdir] at hentry
    exact (Option.some.inj hentry).symm
  · exact h above entry habove hentry

private theorem Passable.jump (h : fs.Passable loc) (target : Path) :
    fs.Passable (if target.isAbsolute then [] else loc) := by
  split
  · exact passable_root fs
  · exact h

/-- A property of places that holds wherever steps go on from a place that has it. -/
structure Spreads (fs : FileSystem) (P : Location → Prop) : Prop where
  root : P []
  up : ∀ loc, P loc → P loc.dropLast
  enter : ∀ loc name, P loc → fs.entry? (loc ++ [name]) = some .dir → P (loc ++ [name])

private theorem Spreads.jump {P : Location → Prop} (h : fs.Spreads P) (hloc : P loc)
    (target : Path) :
    P (if target.isAbsolute then [] else loc) := by
  split
  · exact h.root
  · exact hloc

private theorem spreads_passable (fs : FileSystem) : fs.Spreads fs.Passable where
  root := passable_root fs
  up _ := Passable.dropLast
  enter _ _ := Passable.snoc

/-- A location stands below directories only, and is one. -/
def Standing (fs : FileSystem) (loc : Location) : Prop :=
  ∀ above, above <+: loc → fs.entry? above = some .dir

theorem spreads_standing (fs : FileSystem) : fs.Spreads fs.Standing where
  root := by
    intro above habove
    obtain rfl := List.prefix_nil.mp habove
    rfl
  up := by
    intro loc hloc above habove
    exact hloc above (habove.trans (List.dropLast_prefix loc))
  enter := by
    intro loc name hloc hdir above habove
    cases List.prefix_concat_iff.mp habove with
    | inl heq => rw [heq, hdir]
    | inr habove => exact hloc above habove

/-! ## Steps taken apart and put together -/

theorem Leads.last (hname : IsStep name) : Leads fs false 0 here [name] (here ++ [name]) := by
  cases hentry : fs.entry? (here ++ [name]) with
  | none => exact .stop hname (Or.inl hentry)
  | some entry =>
    cases entry with
    | dir => exact .enter hname hentry (.done _)
    | file f => exact .stop hname (Or.inr (Or.inl ⟨f, hentry⟩))
    | link target => exact .stop hname (Or.inr (Or.inr ⟨rfl, target, hentry⟩))

theorem Leads.append (h : Leads fs true n here names loc) (hdir : fs.entry? loc = some .dir)
    (hrest : rest ≠ []) (h' : Leads fs follow m loc rest out) :
    Leads fs follow (n + m) here (names ++ rest) out := by
  induction h with
  | done here => simpa using h'
  | self h ih => exact .self (ih hdir h')
  | up h ih => exact .up (ih hdir h')
  | enter hname hentry h ih => exact .enter hname hentry (ih hdir h')
  | stop hname hstop =>
    rcases hstop with hnone | ⟨f, hfile⟩ | ⟨hfollow, -⟩
    · rw [hnone] at hdir
      cases hdir
    · rw [hfile] at hdir
      cases hdir
    · cases hfollow
  | @jump n here name names' out target hname hlink hon h ih =>
    have hleads := ih hdir h'
    rw [List.append_assoc] at hleads
    rw [Nat.add_right_comm]
    exact .jump hname hlink (Or.inl (by simp [hrest])) hleads

/-- Steps that can be followed can be followed in two parts, with a place in between to go on
from. -/
theorem Leads.split (hrest : rest ≠ []) (h : Leads fs follow n here (names ++ rest) out) :
    ∃ k m loc, k + m = n ∧ Leads fs true k here names loc ∧ Leads fs follow m loc rest out ∧
      ∀ P, fs.Spreads P → P here → P loc := by
  generalize hall : names ++ rest = all at h
  induction h generalizing names with
  | done here => exact absurd (List.append_eq_nil_iff.mp hall).2 hrest
  | @self n here rest' out h ih =>
    cases names with
    | nil =>
      obtain rfl : rest = Path.self :: rest' := hall
      exact ⟨0, n, here, Nat.zero_add n, .done here, .self h, fun _ _ hhere => hhere⟩
    | cons first names =>
      obtain ⟨rfl, htail⟩ := List.cons.inj hall
      obtain ⟨k, m, loc, hsum, hfirst, hthen, hpass⟩ := ih htail
      exact ⟨k, m, loc, hsum, .self hfirst, hthen, hpass⟩
  | @up n here rest' out h ih =>
    cases names with
    | nil =>
      obtain rfl : rest = Path.up :: rest' := hall
      exact ⟨0, n, here, Nat.zero_add n, .done here, .up h, fun _ _ hhere => hhere⟩
    | cons first names =>
      obtain ⟨rfl, htail⟩ := List.cons.inj hall
      obtain ⟨k, m, loc, hsum, hfirst, hthen, hpass⟩ := ih htail
      exact ⟨k, m, loc, hsum, .up hfirst, hthen, fun P hP hhere => hpass P hP (hP.up _ hhere)⟩
  | @enter n here name rest' out hname hdir h ih =>
    cases names with
    | nil =>
      obtain rfl : rest = name :: rest' := hall
      exact ⟨0, n, here, Nat.zero_add n, .done here, .enter hname hdir h, fun _ _ hhere => hhere⟩
    | cons first names =>
      obtain ⟨rfl, htail⟩ := List.cons.inj hall
      obtain ⟨k, m, loc, hsum, hfirst, hthen, hpass⟩ := ih htail
      exact ⟨k, m, loc, hsum, .enter hname hdir hfirst, hthen,
        fun P hP hhere => hpass P hP (hP.enter _ _ hhere hdir)⟩
  | @stop here name hname hstop =>
    cases names with
    | nil =>
      obtain rfl : rest = [name] := hall
      exact ⟨0, 0, here, rfl, .done here, .stop hname hstop, fun _ _ hhere => hhere⟩
    | cons first names =>
      obtain ⟨-, htail⟩ := List.cons.inj hall
      exact absurd (List.append_eq_nil_iff.mp htail).2 hrest
  | @jump n here name rest' out target hname hlink hon h ih =>
    cases names with
    | nil =>
      obtain rfl : rest = name :: rest' := hall
      exact ⟨0, n + 1, here, Nat.zero_add _, .done here, .jump hname hlink hon h,
        fun _ _ hhere => hhere⟩
    | cons first names =>
      obtain ⟨rfl, htail⟩ := List.cons.inj hall
      have hall : (target.steps ++ names) ++ rest = target.steps ++ rest' := by
        rw [List.append_assoc]
        exact congrArg _ htail
      obtain ⟨k, m, loc, hsum, hfirst, hthen, hpass⟩ := ih hall
      exact ⟨k + 1, m, loc, by omega, .jump hname hlink (Or.inr rfl) hfirst, hthen,
        fun P hP hhere => hpass P hP (hP.jump hhere target)⟩

theorem Leads.passable (h : Leads fs follow n here names out) (hhere : fs.Passable here)
    (hdir : fs.entry? out = some .dir) : fs.Passable out := by
  induction h with
  | done here => exact hhere
  | self h ih => exact ih hhere hdir
  | up h ih => exact ih hhere.dropLast hdir
  | enter hname hentry h ih => exact ih (hhere.snoc hentry) hdir
  | stop hname hstop => exact hhere.snoc hdir
  | @jump n here name rest out target hname hlink hon h ih => exact ih (hhere.jump target) hdir

theorem Leads.eq_last (hself : name ≠ Path.self) (hup : name ≠ Path.up)
    (h : Leads fs false n here [name] out) : out = here ++ [name] ∧ IsStep name := by
  cases h with
  | self h => exact absurd rfl hself
  | up h => exact absurd rfl hup
  | enter hname hdir h =>
    cases h
    exact ⟨rfl, hname⟩
  | stop hname hstop => exact ⟨rfl, hname⟩
  | jump hname hlink hon h =>
    rcases hon with hnil | hfollow
    · exact absurd rfl hnil
    · cases hfollow

/-! ## Links at the end -/

theorem Leads.unfollowed {entry : Entry} (h : Leads fs true n here names out)
    (hentry : fs.entry? out = some entry) :
    ∃ m ≤ n, ∃ named, Leads fs false m here names named ∧
      (named = out ∨ ∃ target, fs.entry? named = some (.link target)) := by
  induction h with
  | done here => exact ⟨0, Nat.le_refl 0, here, .done here, Or.inl rfl⟩
  | self h ih =>
    obtain ⟨m, hm, named, hleads, hnamed⟩ := ih hentry
    exact ⟨m, hm, named, .self hleads, hnamed⟩
  | up h ih =>
    obtain ⟨m, hm, named, hleads, hnamed⟩ := ih hentry
    exact ⟨m, hm, named, .up hleads, hnamed⟩
  | enter hname hdir h ih =>
    obtain ⟨m, hm, named, hleads, hnamed⟩ := ih hentry
    exact ⟨m, hm, named, .enter hname hdir hleads, hnamed⟩
  | stop hname hstop => exact ⟨0, Nat.le_refl 0, _, Leads.last hname, Or.inl rfl⟩
  | @jump n here name rest out target hname hlink hon h ih =>
    by_cases hrest : rest = []
    · subst hrest
      exact ⟨0, Nat.zero_le _, _, Leads.last hname, Or.inr ⟨target, hlink⟩⟩
    · obtain ⟨m, hm, named, hleads, hnamed⟩ := ih hentry
      exact ⟨m + 1, Nat.succ_le_succ hm, named, .jump hname hlink (Or.inl hrest) hleads, hnamed⟩

theorem Leads.followed (h : Leads fs false n here names out)
    (hout : ∀ target, fs.entry? out ≠ some (.link target)) : Leads fs true n here names out := by
  induction h with
  | done here => exact .done here
  | self h ih => exact .self (ih hout)
  | up h ih => exact .up (ih hout)
  | enter hname hdir h ih => exact .enter hname hdir (ih hout)
  | stop hname hstop =>
    rcases hstop with hnone | hfile | ⟨-, target, hlink⟩
    · exact .stop hname (Or.inl hnone)
    · exact .stop hname (Or.inr (Or.inl hfile))
    · exact absurd hlink (hout target)
  | jump hname hlink hon h ih => exact .jump hname hlink (Or.inr rfl) (ih hout)

/-! ## Files that are removed -/

/-- A directory is not reached through a file. What stands at a name that leads to a file can be
removed without moving any directory. -/
theorem Leads.erase {bin file : Location} {f : File} (hbin : fs.Passable bin)
    (hfile : Leads fs true m bin [name] file) (hentry : fs.entry? file = some (.file f))
    (h : Leads fs follow n here names out) (hdir : fs.entry? out = some .dir) :
    Leads (fs.erase (bin ++ [name])) follow n here names out := by
  have hplace : bin ++ [name] ≠ [] := by simp
  induction h with
  | done here => exact .done here
  | self h ih => exact .self (ih hdir)
  | up h ih => exact .up (ih hdir)
  | @enter n here name' rest out hname hdir' h ih =>
    refine .enter hname ?_ (ih hdir)
    rw [entry?_erase hplace, if_neg, hdir']
    intro heq
    obtain ⟨rfl, hnames⟩ := List.append_inj' heq rfl
    obtain rfl : name' = name := by simpa using hnames
    have hsame := hfile.unique (.enter hname hdir' (.done _))
    rw [hsame, hdir'] at hentry
    cases hentry
  | stop hname hstop =>
    rcases hstop with hnone | ⟨g, hfile'⟩ | ⟨-, target, hlink⟩
    · rw [hnone] at hdir
      cases hdir
    · rw [hfile'] at hdir
      cases hdir
    · rw [hlink] at hdir
      cases hdir
  | @jump n here name' rest out target hname hlink hon h ih =>
    refine .jump hname ?_ hon (ih hdir)
    rw [entry?_erase hplace, if_neg, hlink]
    intro heq
    obtain ⟨rfl, hnames⟩ := List.append_inj' heq rfl
    obtain rfl : name' = name := by simpa using hnames
    have hall : Leads fs follow (n + 1) here ([name'] ++ rest) out := .jump hname hlink hon h
    by_cases hrest : rest = []
    · subst hrest
      obtain rfl : follow = true := hon.resolve_left fun hne => hne rfl
      obtain rfl := hall.unique hfile
      rw [hdir] at hentry
      cases hentry
    · obtain ⟨k, m', mid, -, hmid, -, hpass⟩ := hall.split hrest
      obtain rfl := hmid.unique hfile
      cases hpass _ (spreads_passable fs) hbin mid _ (List.prefix_refl mid) hentry

/-! ## Trees that have changed -/

/-- Nothing but files has come to a tree, and these only at new places. -/
def OnlyFilesAt (new : Location → Prop) (fs fs' : FileSystem) : Prop :=
  ∀ loc entry, fs'.entry? loc = some entry →
    fs.entry? loc = some entry ∨ new loc ∧ ∃ f, entry = .file f

/-- What is found after a change that brought nothing but files was found there before, or it is one
of the new files. -/
theorem Leads.of_later {fs' : FileSystem} {new : Location → Prop} {entry : Entry}
    (hlater : OnlyFilesAt new fs fs') (h : Leads fs' follow n here names out)
    (hentry : fs'.entry? out = some entry) :
    (new out ∧ ∃ f, entry = .file f) ∨
      Leads fs follow n here names out ∧ fs.entry? out = some entry := by
  induction h with
  | done here =>
    rcases hlater _ _ hentry with hold | hnew
    · exact Or.inr ⟨.done here, hold⟩
    · exact Or.inl hnew
  | self h ih => exact (ih hentry).imp_right fun ⟨hleads, hold⟩ => ⟨.self hleads, hold⟩
  | up h ih => exact (ih hentry).imp_right fun ⟨hleads, hold⟩ => ⟨.up hleads, hold⟩
  | enter hname hdir h ih =>
    rcases hlater _ _ hdir with hdir | ⟨-, f, hfile⟩
    · exact (ih hentry).imp_right fun ⟨hleads, hold⟩ => ⟨.enter hname hdir hleads, hold⟩
    · cases hfile
  | stop hname hstop =>
    rcases hlater _ _ hentry with hold | hnew
    · refine Or.inr ⟨.stop hname ?_, hold⟩
      rcases hstop with hnone | ⟨f, hfile⟩ | ⟨hfollow, target, hlink⟩
      · rw [hnone] at hentry
        cases hentry
      · exact Or.inr (Or.inl ⟨f, hold.trans (hentry.symm.trans hfile)⟩)
      · exact Or.inr (Or.inr ⟨hfollow, target, hold.trans (hentry.symm.trans hlink)⟩)
    · exact Or.inl hnew
  | jump hname hlink hon h ih =>
    rcases hlater _ _ hlink with hlink | ⟨-, f, hfile⟩
    · exact (ih hentry).imp_right fun ⟨hleads, hold⟩ => ⟨.jump hname hlink hon hleads, hold⟩
    · cases hfile

end EngineClient.FileSystem
