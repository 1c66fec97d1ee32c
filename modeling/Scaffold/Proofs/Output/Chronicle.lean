import Mathlib.Data.List.Pairwise
import Scaffold.Proofs.Output.Again
import Scaffold.Proofs.Output.Interrupted

/-! Histories of an output root: writes under it, and changes from outside (`Chronicle`). What the ledger has recorded
    for a file stays recorded (`Remembers`) over whatever else happens, as long as no write generates the file and
    nothing else is put in the place of the ledger (`Chronicle.remembers`). -/

namespace Scaffold.Output
open Disk Scaffold.Path

/-! ### What happens under a root -/

/-- A write that is asked for. -/
structure Request where
  files : List GeneratedFile
  moduleRoot : String
  dryRun : Bool
  now : Instant

/-- The answer to a request under a root, and the disk after it. -/
def Request.run (r : Request) (root : String) (d : Disk) : Logged (List (Outcome × String)) × Disk :=
  (write r.files root r.moduleRoot r.dryRun r.now : StateM Disk _) d

/-- The files are generated for a project that was loaded. -/
def Request.Generated (r : Request) : Prop :=
  ∃ bytes resolved p, Project.load bytes resolved = .ok p ∧ p.Generates r.files

/-- What happens to a disk: a write, or a change from outside. -/
inductive Event where
  | write (r : Request)
  | edit

/-- An event with the disks around it. -/
structure Moment where
  before : Disk
  event : Event
  after : Disk

/-- What happens under a root, from one disk to another. -/
inductive Chronicle (root : String) (d₀ : Disk) : List Moment → Disk → Prop where
  | start : Chronicle root d₀ [] d₀
  | write {ms : List Moment} {d : Disk} (h : Chronicle root d₀ ms d) (r : Request) :
      Chronicle root d₀ (ms ++ [⟨d, .write r, (r.run root d).2⟩]) (r.run root d).2
  | edit {ms : List Moment} {d : Disk} (h : Chronicle root d₀ ms d) (d' : Disk) :
      Chronicle root d₀ (ms ++ [⟨d, .edit, d'⟩]) d'

theorem Request.writeCase (r : Request) (root : String) (d : Disk) :
    WriteCase r.files root r.moduleRoot r.dryRun r.now d (r.run root d).2 (r.run root d).1 := writeCase_of_run rfl

theorem Request.keeps (r : Request) (root : String) (d : Disk) : Keeps d (r.run root d).2 := (r.writeCase root d).keeps

section Chronicle
variable {root : String} {d₀ d : Disk} {ms before after : List Moment} {m : Moment}

theorem Chronicle.valid (h : Chronicle root d₀ ms d) :
    ∀ m ∈ ms, ∀ r, m.event = .write r → m.after = (r.run root m.before).2 := by
  induction h with
  | start => simp
  | write _ r ih =>
    refine List.forall_mem_append.mpr ⟨ih, List.forall_mem_singleton.mpr fun r' hevent => ?_⟩
    cases hevent
    rfl
  | edit _ d' ih => exact List.forall_mem_append.mpr ⟨ih, List.forall_mem_singleton.mpr fun r' hevent => by cases hevent⟩

/-- The last moment of a history is one that is in it, or the last one after that. -/
theorem last_of_concat {n : Moment} (h : before ++ m :: after = ms ++ [n]) :
    (after = [] ∧ before = ms ∧ m = n) ∨ ∃ rest, after = rest ++ [n] ∧ before ++ m :: rest = ms := by
  rcases List.eq_nil_or_concat after with rfl | ⟨rest, z, rfl⟩
  · obtain ⟨hbefore, hm⟩ := List.append_inj' h rfl
    exact Or.inl ⟨rfl, hbefore, (List.cons.inj hm).1⟩
  · rw [List.concat_eq_append] at h ⊢
    rw [← List.cons_append, ← List.append_assoc] at h
    obtain ⟨hrest, hz⟩ := List.append_inj' h rfl
    exact Or.inr ⟨rest, by rw [(List.cons.inj hz).1], hrest⟩

theorem Chronicle.split (h : Chronicle root d₀ (before ++ m :: after) d) :
    Chronicle root d₀ before m.before ∧ Chronicle root m.after after d := by
  generalize hms : before ++ m :: after = ms at h
  induction h generalizing after with
  | start => simp at hms
  | write h r ih =>
    rcases last_of_concat hms with ⟨rfl, rfl, rfl⟩ | ⟨rest, rfl, hrest⟩
    · exact ⟨h, .start⟩
    · obtain ⟨hbefore, hafter⟩ := ih hrest
      exact ⟨hbefore, hafter.write r⟩
  | edit h d' ih =>
    rcases last_of_concat hms with ⟨rfl, rfl, rfl⟩ | ⟨rest, rfl, hrest⟩
    · exact ⟨h, .start⟩
    · obtain ⟨hbefore, hafter⟩ := ih hrest
      exact ⟨hbefore, hafter.edit d'⟩

theorem Chronicle.current (h : Chronicle root d₀ ms d)
    (hedits : ∀ m ∈ ms, m.event = .edit → m.after.current = m.before.current) : d.current = d₀.current := by
  induction h with
  | start => rfl
  | write _ r ih => rw [(r.keeps root _).current, ih (List.forall_mem_append.mp hedits).1]
  | edit _ d' ih =>
    obtain ⟨hbefore, hlast⟩ := List.forall_mem_append.mp hedits
    exact (hlast _ (List.mem_singleton_self _) rfl).trans (ih hbefore)

end Chronicle

/-! ### Files that are generated together -/

section Separate
variable {d : Disk} {root moduleRoot : String} {t u : Target} {ts : List Target}

theorem Separate.locate_ne (h : Separate d ts) (ht : t ∈ ts) (hu : u ∈ ts) (hne : t ≠ u) :
    d.locate t.path ≠ d.locate u.path := by
  have hsymm : Std.Symm fun t u : Target => d.locate t.path ≠ d.locate u.path := ⟨fun _ _ => Ne.symm⟩
  exact h.paths.forall ht hu hne

theorem Separate.eq_of_rel (h : Separate d ts) (hunder : ∀ t ∈ ts, t.Under root) (ht : t ∈ ts) (hu : u ∈ ts)
    (hrel : t.rel = u.rel) : t = u := by
  by_contra hne
  exact h.locate_ne ht hu hne (by rw [(hunder t ht).path_eq (hunder u hu) hrel])

theorem mem_zip_targets {files : List GeneratedFile} {os : List (Outcome × String)} {file : GeneratedFile}
    {o : Outcome × String} (h : (file, o) ∈ files.zip os) :
    (targetOf root moduleRoot file, o) ∈ (files.map (targetOf root moduleRoot)).zip os := by
  rw [List.zip_map_left]
  exact List.mem_map_of_mem (f := Prod.map (targetOf root moduleRoot) id) h

end Separate

/-! ### What a run records -/

section Run
variable {d d' : Disk} {t : Target} {ts : List Target} {dryRun : Bool} {ledger ledger' : Ledger} {ws : List String}
  {o : Outcome} {os : List (Outcome × String)} {rel digest : String}

theorem StepCase.digest?_of_text (h : StepCase t dryRun ledger d d' ⟨ws, .ok (o, ledger')⟩)
    (hrecorded : ledger.digest? rel = some digest) (htext : t.rel = rel → Sha256.ofText t.text = digest) :
    ledger'.digest? rel = some digest := by
  by_cases hrel : t.rel = rel
  · have hrecord : (ledger.record t.rel (Sha256.ofText t.text)).digest? rel = some digest := by
      rw [digest?_record, if_pos hrel.symm, htext hrel]
    cases h with
    | kept | pending => exact hrecorded
    | matched | placed => exact hrecord
  · rw [h.digest?_of_ne (Ne.symm hrel), hrecorded]

theorem Run.digest?_of_text (h : Run dryRun ts ledger d ws os ledger' d') (hrecorded : ledger.digest? rel = some digest)
    (htext : ∀ t ∈ ts, t.rel = rel → Sha256.ofText t.text = digest) : ledger'.digest? rel = some digest := by
  induction h with
  | nil => exact hrecorded
  | cons first _ ih =>
    obtain ⟨hhead, htail⟩ := List.forall_mem_cons.mp htext
    exact ih ((stepCase_of_run first).digest?_of_text hrecorded hhead) htail

theorem Run.recorded {r : Outcome × String} (h : Run false ts ledger d ws os ledger' d') (hmem : (t, r) ∈ ts.zip os)
    (hkept : r.1 ≠ .skipped) (htext : ∀ u ∈ ts, u.rel = t.rel → Sha256.ofText u.text = Sha256.ofText t.text) :
    ledger'.digest? t.rel = some (Sha256.ofText t.text) := by
  induction h with
  | nil => cases hmem
  | cons first rest ih =>
    obtain ⟨-, htail⟩ := List.forall_mem_cons.mp htext
    rw [List.zip_cons_cons, List.mem_cons, Prod.mk.injEq] at hmem
    rcases hmem with ⟨rfl, rfl⟩ | hmem
    · exact rest.digest?_of_text ((stepCase_of_run first).recordedFor hkept) htail
    · exact ih hmem htail

end Run

/-! ### What is recorded -/

section Remembers
variable {d d' : Disk} {root rel digest : String} {r : Request} {ledger : Ledger}

/-- The ledger of a root is found and has a digest for a file. -/
def Remembers (d : Disk) (root rel digest : String) : Prop :=
  ∃ f text ledger, Present d (ledgerPath root) (some f) ∧ Text.decode? f.bytes = some text ∧
    Ledger.parse? text = some ledger ∧ ledger.digest? rel = some digest

theorem Remembers.loadLedger (h : Remembers d root rel digest) (now : Instant) :
    ∃ ledger, (loadLedger root now : StateM Disk (Except Failure Ledger)) d = (.ok ledger, d) ∧
      ledger.digest? rel = some digest := by
  obtain ⟨f, text, ledger, hpresent, htext, hparse, hdigest⟩ := h
  exact ⟨ledger, loadLedger_of_file hpresent.1 hpresent.2 htext hparse now, hdigest⟩

theorem Remembers.keep (h : Remembers d root rel digest) (hk : Keeps d d')
    (hsame : ∀ f, d.get? (d.locate (ledgerPath root)) = some (.file f) →
      d'.get? (d.locate (ledgerPath root)) = some (.file f)) : Remembers d' root rel digest := by
  obtain ⟨f, text, ledger, hpresent, hrest⟩ := h
  exact ⟨f, text, ledger, hpresent.keep hk (by rw [hsame f hpresent.2, hpresent.2]), hrest⟩

theorem Recorded.remembers (h : Recorded d d' root ledger) (hdigest : ledger.digest? rel = some digest) :
    Remembers d' root rel digest := by
  obtain ⟨mode, hfile⟩ := h.file
  have hparse := Ledger.parse?_toText ledger
  generalize ledger.toText = text at hfile hparse
  rw [← h.keeps.locate] at hfile
  exact ⟨_, text, ledger, ⟨h.holds, hfile⟩, Text.decode?_encode text, hparse, hdigest⟩

theorem locate_draftPath_ne_ledgerPath (d : Disk) (path root : String) :
    d.locate (draftPath path) ≠ d.locate (ledgerPath root) := by
  obtain ⟨dir, base, hends⟩ := exists_ends_draftPath path
  rw [locate_of_ends hends (not_isDots_append_draftEnd base), locate_ledgerPath]
  intro heq
  refine ledgerNames_not_draft.1 ((List.cons.inj heq).1 ▸ ?_)
  have hname : (String.ofList (base ++ draftEnd)).toList = base ++ draftEnd := String.toList_ofList
  rw [IsDraftName, hname]
  exact List.suffix_append ..

/-- No file of a request goes to the place of the ledger. -/
def Request.SparesLedger (r : Request) (root : String) (d : Disk) : Prop :=
  r.Generated ∨ ∀ file ∈ r.files, d.locate (pathFor root r.moduleRoot file) ≠ d.locate (ledgerPath root)

theorem Request.SparesLedger.targets {ts : List Target} (h : r.SparesLedger root d)
    (htargets : r.files.mapM (target root r.moduleRoot) = .ok ts) :
    ∀ t ∈ ts, d.locate (ledgerPath root) ≠ d.locate t.path ∧
      d.locate (ledgerPath root) ≠ d.locate (draftPath t.path) := by
  intro t ht
  refine ⟨Ne.symm ?_, (locate_draftPath_ne_ledgerPath d t.path root).symm⟩
  rcases h with ⟨_, _, p, hload, hfiles⟩ | haway
  · exact ((planned_of_generates hfiles htargets t ht).ne_ledger d root).1
  · obtain ⟨rfl, -⟩ := mapM_target_eq_ok htargets
    obtain ⟨file, hfile, rfl⟩ := List.mem_map.mp ht
    exact haway file hfile

/-- A write of other files, be it real or dry, does not change what is recorded for a file, whether or not it succeeds. -/
theorem Remembers.write (h : Remembers d root rel digest) (hspares : r.SparesLedger root d)
    (hrel : ∀ file ∈ r.files, file.relativePath r.moduleRoot ≠ rel) : Remembers (r.run root d).2 root rel digest := by
  have hcase := r.writeCase root d
  generalize (r.run root d).2 = d', (r.run root d).1 = log at hcase
  cases hcase with
  | unloaded | refused | previewed => exact h
  | stopped _ htargets hstops =>
    exact h.keep hstops.keeps fun f hf => by
      rw [hstops.get?_of_isSome (by simp [hf]) (hspares.targets htargets), hf]
  | unsaved _ htargets hrun _ hsave =>
    have hmid := h.keep hrun.keeps fun f hf => by
      rw [hrun.get?_of_isSome (by simp [hf]) (hspares.targets htargets), hf]
    exact hmid.keep hsave.keeps fun f hf => (hsave.other _ (ledgerPath_ne_ledgerDraftPath _ root)).get?_file hf
  | saved hload htargets hrun _ hsave =>
    obtain ⟨ledger, hloaded, hdigest⟩ := h.loadLedger r.now
    rw [hload] at hloaded
    cases hloaded
    refine hsave.remembers ?_
    obtain ⟨rfl, -⟩ := mapM_target_eq_ok htargets
    have hsame := hrun.digest?_of_ne (List.forall_mem_map.mpr fun file hfile => (hrel file hfile).symm)
    exact hsame.trans hdigest

/-- A moment after which the ledger has what it had for a file: a write of other files, or a change from outside after
    which the ledger is found as it was. -/
def Moment.Spares (root rel : String) (m : Moment) : Prop :=
  match m.event with
  | .write r => r.SparesLedger root m.before ∧ ∀ file ∈ r.files, file.relativePath r.moduleRoot ≠ rel
  | .edit => ∀ f, Present m.before (ledgerPath root) (some f) → Present m.after (ledgerPath root) (some f)

theorem Chronicle.remembers {d₀ : Disk} {ms : List Moment} (h : Chronicle root d₀ ms d)
    (hstart : Remembers d₀ root rel digest) (hspares : ∀ m ∈ ms, m.Spares root rel) : Remembers d root rel digest := by
  induction h with
  | start => exact hstart
  | write _ r ih =>
    obtain ⟨hbefore, hlast⟩ := List.forall_mem_append.mp hspares
    obtain ⟨haway, hrel⟩ := hlast _ (List.mem_singleton_self _)
    exact (ih hbefore).write haway hrel
  | edit _ d' ih =>
    obtain ⟨hbefore, hlast⟩ := List.forall_mem_append.mp hspares
    obtain ⟨f, text, ledger, hpresent, hrest⟩ := ih hbefore
    exact ⟨f, text, ledger, hlast _ (List.mem_singleton_self _) f hpresent, hrest⟩

end Remembers

end Scaffold.Output
