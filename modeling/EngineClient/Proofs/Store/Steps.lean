import Mathlib
import EngineClient.Proofs.Store.Replace

/-!
# The steps of a replacement

While a replacement runs, others act on the tree between its steps. Whatever they do, every step of
its own is one of four: it creates its partial file, writes to it, renames it or removes a file, and
the last two happen in the directory that the path of the binary leads to at that moment.
-/

namespace EngineClient

open FileSystem

/-! ## Own steps and acts of others -/

/-- A tree is reached by steps of its own and by acts of others between them, the acts in this
order. -/
inductive Interleaved (step : FileSystem → FileSystem → Prop) :
    List Act → FileSystem → FileSystem → Prop
  | done (fs : FileSystem) : Interleaved step [] fs fs
  | own {acts fs mid fs'} (h : step fs mid) (hthen : Interleaved step acts mid fs') :
      Interleaved step acts fs fs'
  | other {act : Act} {acts fs fs'} (hthen : Interleaved step acts (act fs).1 fs') :
      Interleaved step (act :: acts) fs fs'

/-- An act leaves a proper tree as a proper one. -/
def KeepsTree (act : Act) : Prop := ∀ fs : FileSystem, fs.IsTree → (act fs).1.IsTree

/-- The acts of others that are told of on a stream. -/
def Source.others (source : Source) : List Act :=
  source.filterMap fun
    | .outside act => some act
    | _ => none

theorem Source.mem_others {source : Source} {act : Act} :
    act ∈ source.others ↔ .outside act ∈ source := by
  rw [others, List.mem_filterMap]
  constructor
  · intro h
    obtain ⟨event, hevent, heq⟩ := h
    cases event with
    | outside other =>
      cases heq
      exact hevent
    | _ => cases heq
  · intro h
    exact ⟨_, h, rfl⟩

theorem Source.IsUndisturbed.others_eq_nil {source : Source} (h : source.IsUndisturbed) :
    source.others = [] := by
  apply List.eq_nil_iff_forall_not_mem.mpr
  intro act hact
  exact h act (Source.mem_others.mp hact)

namespace Interleaved

variable {step step' : FileSystem → FileSystem → Prop} {acts acts' : List Act}
variable {fs mid fs' : FileSystem}

private theorem one (h : step fs fs') : Interleaved step [] fs fs' := .own h (.done fs')

private theorem trans (h : Interleaved step acts fs mid) (h' : Interleaved step acts' mid fs') :
    Interleaved step (acts ++ acts') fs fs' := by
  induction h with
  | done fs => exact h'
  | own hstep hthen ih => exact .own hstep (ih h')
  | other hthen ih => exact .other (ih h')

theorem mono (hstep : ∀ fs fs', step fs fs' → step' fs fs') (h : Interleaved step acts fs fs') :
    Interleaved step' acts fs fs' := by
  induction h with
  | done fs => exact .done fs
  | own hown hthen ih => exact .own (hstep _ _ hown) ih
  | other hthen ih => exact .other ih

/-- What the own steps and the acts of others keep is kept. -/
theorem keeps {P : FileSystem → Prop} (hstep : ∀ fs fs', step fs fs' → P fs → P fs')
    (hacts : ∀ act ∈ acts, ∀ fs, P fs → P (act fs).1) (h : Interleaved step acts fs fs')
    (hP : P fs) : P fs' := by
  induction h with
  | done fs => exact hP
  | own hown hthen ih => exact ih hacts (hstep _ _ hown hP)
  | other hthen ih =>
    apply ih
    · intro act hact
      exact hacts act (List.mem_cons_of_mem _ hact)
    · exact hacts _ List.mem_cons_self _ hP

end Interleaved

/-! ## Places that paths name -/

namespace FileSystem.IsTree

variable {s : Store} {fs : FileSystem} {name : Name} {loc : Location}

private theorem standing_start (h : fs.IsTree) (p : Path) : fs.Standing (fs.start p) := by
  rw [start]
  split
  · exact (spreads_standing fs).root
  · exact h.workDir

theorem dirAt_of_pathOf (h : fs.IsTree) (hname : Path.IsPlain name)
    (hloc : fs.resolve false (s.pathOf name) = .ok loc) :
    ∃ bin, fs.DirAt s.binDir bin ∧ loc = bin ++ [name] := by
  obtain ⟨⟨hnul, -, hlength⟩, n, hn, hleads⟩ := resolve_eq_ok_iff.mp hloc
  have hstart : fs.start (s.pathOf name) = fs.start s.binDir := by
    rw [start, start, Store.isAbsolute_pathOf s hname.2.1]
  rw [Store.steps_pathOf s hname, hstart] at hleads
  obtain ⟨k, m, bin, hsum, hbin, hlast, hspreads⟩ := hleads.split (List.cons_ne_nil _ _)
  have hstanding := hspreads _ (spreads_standing fs) (h.standing_start s.binDir)
  have hpath : s.pathOf name = s.binDir ++ Path.slash :: name :=
    Path.join_eq s.binDir_ne_nil s.endsOpen_binDir hname.2.1
  have hspelled : s.binDir.IsSpelled := by
    rw [hpath] at hnul hlength
    refine ⟨?_, s.binDir_ne_nil, ?_⟩
    · simp only [List.contains_eq_mem, List.mem_append, decide_eq_false_iff_not, not_or] at hnul
      simpa using hnul.1
    · rw [List.length_append] at hlength
      omega
  refine ⟨bin, ⟨resolve_eq_ok_iff.mpr ⟨hspelled, k, by omega, hbin⟩, ?_⟩, ?_⟩
  · exact hstanding bin (List.prefix_refl bin)
  · exact (hlast.eq_last hname.2.2.1 hname.2.2.2).1

private theorem plain_of_mem_names (h : fs.IsTree) {dir : Location} (hname : name ∈ fs.names dir) :
    Path.IsPlain name :=
  h.plain dir name (mem_names.mp hname)

end FileSystem.IsTree

namespace Store

variable {s : Store} {own bin : Location} {fs fs' : FileSystem}
variable {t : Transfer} {draw key : Name} {source : Source}

/-! ## The four steps -/

/-- What a replacement with its partial file at `own` does to a tree in one step. -/
inductive OwnStep (s : Store) (own : Location) (fs : FileSystem) : FileSystem → Prop
  | create (hbin : fs.DirAt s.binDir own.dropLast) (hwithin : Within own.dropLast own)
      (hnone : fs.entry? own = none) : OwnStep s own fs (fs.put own (.file ⟨[], 0⟩))
  | write (data : Bytes) : OwnStep s own fs (fs.append own data)
  | remove {bin name} (hbin : fs.DirAt s.binDir bin) (hname : Path.IsPlain name)
      (hfile : fs.entry? (bin ++ [name]) ≠ some .dir) :
      OwnStep s own fs (fs.erase (bin ++ [name]))
  | rename {bin draw name entry} (hbin : fs.DirAt s.binDir bin) (hdraw : own.getLast? = some draw)
      (hname : Path.IsPlain name) (hentry : fs.entry? (bin ++ [draw]) = some entry)
      (hfile : entry ≠ .dir) (hplace : fs.entry? (bin ++ [name]) ≠ some .dir) :
      OwnStep s own fs ((fs.erase (bin ++ [draw])).put (bin ++ [name]) entry)

/-- Nothing has changed in one step but what stands right in the directory that the path of the
binary leads to, and the partial file, and no directory has come or gone. -/
structure Confines (s : Store) (own : Location) (fs fs' : FileSystem) : Prop where
  workDir : fs'.workDir = fs.workDir
  entries : ∀ loc, fs'.entry? loc = fs.entry? loc ∨
    fs.entry? loc ≠ some .dir ∧ fs'.entry? loc ≠ some .dir ∧
      (loc = own ∨ ∃ bin, fs.DirAt s.binDir bin ∧ Within bin loc)

section Own

variable (hown : Within bin own)

include hown

theorem OwnStep.confines (h : OwnStep s own fs fs') : s.Confines own fs fs' := by
  obtain ⟨draw, hplain, rfl⟩ := hown
  cases h with
  | create hbin hwithin hnone =>
    refine ⟨rfl, fun loc => ?_⟩
    rw [entry?_put (List.concat_ne_nil _ _)]
    by_cases hloc : loc = bin ++ [draw]
    · rw [if_pos hloc, hloc, hnone]
      exact .inr ⟨by simp, by simp, .inl rfl⟩
    · rw [if_neg hloc]
      exact .inl rfl
  | write data =>
    refine ⟨rfl, fun loc => ?_⟩
    rw [FileSystem.append, entry?_modify (List.concat_ne_nil _ _)]
    by_cases hloc : loc = bin ++ [draw]
    · rw [if_pos hloc]
      cases hentry : fs.entry? loc with
      | none => exact .inl rfl
      | some entry =>
        cases entry with
        | file f => exact .inr ⟨by simp, by simp [Entry.extend], .inl hloc⟩
        | dir => exact .inl rfl
        | link target => exact .inl rfl
    · rw [if_neg hloc]
      exact .inl rfl
  | @remove dir name hbin hname hfile =>
    refine ⟨rfl, fun loc => ?_⟩
    rw [entry?_erase (List.concat_ne_nil _ _)]
    by_cases hloc : loc = dir ++ [name]
    · rw [if_pos hloc, hloc]
      exact .inr ⟨hfile, by simp, .inr ⟨dir, hbin, name, hname, rfl⟩⟩
    · rw [if_neg hloc]
      exact .inl rfl
  | @rename dir draw' name entry hbin hdraw hname hentry hfile hplace =>
    obtain rfl : draw = draw' := by simpa using hdraw
    refine ⟨rfl, fun loc => ?_⟩
    rw [entry?_put (List.concat_ne_nil _ _), entry?_erase (List.concat_ne_nil _ _)]
    by_cases hloc : loc = dir ++ [name]
    · rw [if_pos hloc, hloc]
      exact .inr ⟨hplace, by simpa using hfile, .inr ⟨dir, hbin, name, hname, rfl⟩⟩
    · rw [if_neg hloc]
      by_cases hfrom : loc = dir ++ [draw]
      · rw [if_pos hfrom, hfrom, hentry]
        exact .inr ⟨by simpa using hfile, by simp, .inr ⟨dir, hbin, draw, hplain, rfl⟩⟩
      · rw [if_neg hfrom]
        exact .inl rfl

private theorem Confines.isTree (h : s.Confines own fs fs') (htree : fs.IsTree) : fs'.IsTree where
  plain dir name hname := by
    cases h.entries (dir ++ [name]) with
    | inl hsame =>
      rw [hsame] at hname
      exact htree.plain dir name hname
    | inr hchanged =>
      obtain ⟨-, -, hplace⟩ := hchanged
      have hwithin : ∃ bin, Within bin (dir ++ [name]) := by
        cases hplace with
        | inl heq => exact ⟨bin, heq ▸ hown⟩
        | inr hbin =>
          obtain ⟨bin, -, hwithin⟩ := hbin
          exact ⟨bin, hwithin⟩
      obtain ⟨bin, other, hplain, heq⟩ := hwithin
      obtain ⟨-, hname⟩ := List.append_inj' heq rfl
      cases hname
      exact hplain
  workDir loc hloc := by
    rw [h.workDir] at hloc
    cases h.entries loc with
    | inl hsame => rw [hsame, htree.workDir loc hloc]
    | inr hchanged => exact absurd (htree.workDir loc hloc) hchanged.1

private theorem OwnStep.isTree (h : OwnStep s own fs fs') (htree : fs.IsTree) : fs'.IsTree :=
  (h.confines hown).isTree hown htree

end Own

/-! ## Runs -/

private theorem receive_interleaved (s : Store) (own : Location) (chunkSize : Nat) (source : Source)
    (t : Transfer) : ∃ acts, acts <+: source.others ∧
      Interleaved (s.OwnStep own) acts t.fs (receive own chunkSize source t).2.fs := by
  induction source generalizing t with
  | nil => exact ⟨[], List.nil_prefix, .done _⟩
  | cons event rest ih =>
    cases event with
    | data bytes =>
      by_cases hne : bytes = []
      · rw [hne, receive_data_nil]
        exact ⟨[], List.nil_prefix, .done _⟩
      · cases hc : t.cancelled with
        | true =>
          obtain ⟨first, hreceive⟩ := receive_data_cancelled own chunkSize rest hne hc
          rw [hreceive]
          exact ⟨[], List.nil_prefix, .one (.write first)⟩
        | false =>
          obtain ⟨t', -, hfs, -, hreceive⟩ := receive_data own chunkSize rest hne hc
          obtain ⟨acts, hacts, hrun⟩ := ih t'
          rw [hreceive]
          rw [hfs] at hrun
          exact ⟨acts, hacts, .own (.write bytes) hrun⟩
    | interrupted =>
      rw [receive]
      split
      · exact ⟨[], List.nil_prefix, .done _⟩
      · exact ih t.beginRead
    | fail reason => exact ⟨[], List.nil_prefix, .done _⟩
    | cancel => exact ih { t with cancelled := true }
    | outside act =>
      cases hreport : (act t.fs).2 with
      | none =>
        obtain ⟨acts, hacts, hrun⟩ := ih (t.advance (act t.fs).1)
        rw [receive_outside_none hreport]
        exact ⟨act :: acts, List.cons_prefix_cons.mpr ⟨rfl, hacts⟩, .other hrun⟩
      | some reason =>
        rw [receive_outside_some hreport]
        exact ⟨[act], List.cons_prefix_cons.mpr ⟨rfl, List.nil_prefix⟩, .other (.done _)⟩

private theorem download_interleaved (s : Store) (own : Location) (chunkSize : Nat)
    (source : Source) (t : Transfer) : ∃ acts, acts <+: source.others ∧
      Interleaved (s.OwnStep own) acts t.fs (download own chunkSize source t).2.fs := by
  rw [download]
  split
  · exact ⟨[], List.nil_prefix, .done _⟩
  · exact receive_interleaved s own chunkSize source t.beginRead

private theorem discard_interleaved (htree : t.fs.IsTree) (hdraw : Path.IsPlain draw) :
    Interleaved (s.OwnStep own) [] t.fs (discard (s.pathOf draw) t).fs := by
  rw [discard]
  cases hremove : t.fs.removeFile (s.pathOf draw) with
  | error e => exact .done _
  | ok fs =>
    obtain ⟨loc, entry, hloc, hentry, hfile, rfl⟩ := removeFile_eq_ok_iff.mp hremove
    obtain ⟨bin, hbin, rfl⟩ := htree.dirAt_of_pathOf hdraw hloc
    exact .one (.remove hbin hdraw (by simpa [hentry] using hfile))

section Own

variable (hown : Within bin own)

include hown

private theorem sweep_interleaved {names : List Name} (htree : t.fs.IsTree)
    (hnames : ∀ name ∈ names, Path.IsPlain name) :
    Interleaved (s.OwnStep own) [] t.fs (s.sweep key names t).2.fs := by
  induction names generalizing t with
  | nil => exact .done _
  | cons name rest ih =>
    obtain ⟨hname, hrest⟩ := List.forall_mem_cons.mp hnames
    by_cases hleft : s.isLeftover t.fs key name = true
    · obtain ⟨loc, hloc, hdir, hsweep⟩ := sweep_leftover rest hleft
      obtain ⟨dir, hbin, rfl⟩ := htree.dirAt_of_pathOf hname hloc
      have hstep : s.OwnStep own t.fs (t.fs.erase (dir ++ [name])) := .remove hbin hname hdir
      rw [hsweep]
      exact .own hstep (ih (t := t.advance _) (hstep.isTree hown htree) hrest)
    · rw [sweep_other hleft]
      exact ih htree hrest

private theorem settle_interleaved (htree : t.fs.IsTree) :
    Interleaved (s.OwnStep own) [] t.fs (s.settle key t).2.fs := by
  rw [settle, cleanUp]
  cases hread : t.fs.readDir s.binDir with
  | error e => exact .done _
  | ok names =>
    obtain ⟨dir, -, rfl⟩ := readDir_eq_ok_iff.mp hread
    have hnames : ∀ name ∈ t.fs.names dir, Path.IsPlain name := by
      intro name hname
      exact htree.plain_of_mem_names hname
    have hrun : Interleaved (s.OwnStep own) [] t.fs (s.sweep key (t.fs.names dir) t).2.fs :=
      sweep_interleaved hown htree hnames
    simp only
    rwa [sweep_eq_ok]

variable (hdraw : Path.IsPlain draw) (hlast : own.getLast? = some draw)

include hdraw hlast

private theorem install_interleaved (htree : t.fs.IsTree) (hkey : Path.IsPlain key) :
    Interleaved (s.OwnStep own) [] t.fs (s.install (s.pathOf draw) key t).2.fs := by
  rw [install, persist]
  cases hmove : t.fs.moveFile (s.pathOf draw) (s.pathOf key) with
  | ok fs =>
    obtain ⟨loc, entry, loc', hloc, hentry, hfile, hloc', hplace, rfl⟩ :=
      moveFile_eq_ok_iff.mp hmove
    obtain ⟨dir, hbin, rfl⟩ := htree.dirAt_of_pathOf hdraw hloc
    obtain ⟨dir', hbin', rfl⟩ := htree.dirAt_of_pathOf hkey hloc'
    obtain rfl := hbin.unique hbin'
    have hstep := OwnStep.rename hbin hlast hkey hentry hfile hplace
    exact .own hstep (settle_interleaved (t := t.advance _) hown (hstep.isTree hown htree))
  | error e =>
    have hdiscard : Interleaved (s.OwnStep own) [] t.fs (discard (s.pathOf draw) t).fs :=
      discard_interleaved htree hdraw
    have htree' : (discard (s.pathOf draw) t).fs.IsTree :=
      hdiscard.keeps (fun _ _ hstep => hstep.isTree hown) (by simp) htree
    simp only
    split
    · exact hdiscard.trans (settle_interleaved hown htree')
    · exact hdiscard

/-- A stream is received and installed in own steps between the acts that are told of on it. -/
theorem receiveAndInstall_interleaved {name : String} (chunkSize : Nat) (htree : t.fs.IsTree)
    (hkey : Path.IsPlain (bytesOf name)) (hothers : ∀ act ∈ source.others, KeepsTree act) :
    ∃ acts, acts <+: source.others ∧ Interleaved (s.OwnStep own) acts t.fs
      (s.receiveAndInstall name chunkSize source (s.pathOf draw) own t).2.fs := by
  obtain ⟨acts, hacts, hdownload⟩ := download_interleaved s own chunkSize source t
  have htree' : (download own chunkSize source t).2.fs.IsTree :=
    hdownload.keeps (fun _ _ hstep => hstep.isTree hown)
      (fun act hact => hothers act (hacts.subset hact)) htree
  refine ⟨acts, hacts, ?_⟩
  rw [← List.append_nil acts]
  cases receiveAndInstall_cases s name chunkSize source (s.pathOf draw) own t with
  | inl hfailed =>
    obtain ⟨e, hrun⟩ := hfailed
    rw [hrun]
    exact hdownload.trans (discard_interleaved htree' hdraw)
  | inr hcomplete =>
    rw [hcomplete.2]
    exact hdownload.trans (install_interleaved hown hdraw hlast htree' hkey)

end Own

section Begun

variable {name : String} {made begun : FileSystem}

/-- A replacement that begins takes nothing but own steps from the tree that has the directory. -/
theorem Begins.interleaved (h : s.Begins name t own made begun) (hmade : made.IsTree)
    (chunkSize : Nat) (hothers : ∀ act ∈ source.others, KeepsTree act) :
    Within own.dropLast own ∧ ∃ acts, acts <+: source.others ∧
      Interleaved (s.OwnStep own) acts made (s.replace name chunkSize source t).2.fs := by
  obtain ⟨file, hbegun, hrun⟩ := h.replace chunkSize source
  obtain ⟨draw, hdraw, hplace, rfl, -⟩ := hbegun.name
  have hwithin : Within own.dropLast own := ⟨draw, hdraw, hplace⟩
  have hlast : own.getLast? = some draw := by
    rw [hplace]
    exact List.getLast?_concat
  have hcreate : s.OwnStep own made begun := by
    rw [hbegun.tree]
    exact .create h.dirAt.1 hwithin hbegun.missing
  obtain ⟨acts, hacts, hthen⟩ := receiveAndInstall_interleaved (s := s)
    (t := (t.restart.advance made).advance begun) hwithin hdraw hlast chunkSize
    (hcreate.isTree hwithin hmade) (accepts_iff.mp h.accepted) hothers
  rw [hrun]
  exact ⟨hwithin, acts, hacts, .own hcreate hthen⟩

/-- A replacement leaves a proper tree if those beside it do. -/
theorem replace_isTree (htree : t.fs.IsTree) (chunkSize : Nat)
    (hothers : ∀ act ∈ source.others, KeepsTree act) :
    (s.replace name chunkSize source t).2.fs.IsTree := by
  have hmade := htree.madeWay (ensureDirectory_spec s t.fs).1
  by_cases hbegins : ∃ own made begun, s.Begins name t own made begun
  · obtain ⟨own, made, begun, hbegins⟩ := hbegins
    rw [hbegins.ensured] at hmade
    obtain ⟨hwithin, acts, hacts, hrun⟩ := hbegins.interleaved hmade chunkSize hothers
    exact hrun.keeps (fun _ _ hstep => hstep.isTree hwithin)
      (fun act hact => hothers act (hacts.subset hact)) hmade
  · push Not at hbegins
    rw [(replace_of_not_begins chunkSize source hbegins).2]
    split
    · exact hmade
    · exact htree

theorem rival_keepsTree (s : Store) (name : String) (data : Bytes) :
    KeepsTree (s.rival name data) := by
  intro fs htree
  rw [rival_fst]
  apply replace_isTree htree
  simp [Source.others]

end Begun

end Store

end EngineClient
