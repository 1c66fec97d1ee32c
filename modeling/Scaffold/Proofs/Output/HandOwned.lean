import Scaffold.Proofs.Output.Settled

/-! Files that belong to their editor. A planned file that may be kept has a name that no other planned file, no
    draft and no ledger has, so that a run comes to its location only to leave it alone (`StepCase.get?_of_kept`).
    For a run to find it there the root must climb only out of directories that are there; it does, because a run
    begins with a file that is not kept. Over a history of writes this is `history_get?_of_kept`. -/

namespace Scaffold.Output
open Disk Scaffold.Path

/-! ### Locations of files that may be kept -/

/-- A location at which a planned file may be kept. -/
def KeptAt (l : Location) : Prop := ∃ name, (name, true) ∈ plannedNames ∧ l.head? = some name

theorem keptAt_of_planned {p : Project} {file : PlannedFile} (h : file ∈ p.plan) (hskip : file.skipIfExists = true)
    (root moduleRoot : String) (d : Disk) : KeptAt (d.locate (Path.join root (file.relativePath moduleRoot))) := by
  obtain ⟨dir, name, hends, hmem⟩ := ends_of_planned h moduleRoot
  rw [hskip] at hmem
  have hjoined : ∃ dir', Ends (Path.join root (file.relativePath moduleRoot)).toList dir' name.toList := by
    by_cases habs : IsAbsolute (file.relativePath moduleRoot)
    · have hhead : (file.relativePath moduleRoot).toList.head? = some '/' := habs
      exact ⟨dir, by simpa [Path.join, hhead] using hends⟩
    · exact ⟨_, hends.join habs⟩
  obtain ⟨dir', hends'⟩ := hjoined
  refine ⟨name, hmem, ?_⟩
  rw [locate_of_ends hends' (notDots_of_mem_plannedNames hmem), String.ofList_toList]
  rfl

/-! ### One file -/

variable {d d' : Disk} {t : Target} {root : String} {dryRun : Bool} {ledger ledger' : Ledger} {ws : List String}
  {l : Location} {f : File}

/-- A step leaves a file that may be kept as it is, if it finds it. -/
theorem StepCase.get?_of_kept {log : Logged (Outcome × Ledger)} (h : StepCase t dryRun ledger d d' log)
    (hplanned : t.Planned root) (hclimb : t.file.skipIfExists = true → d.Climbable root) (hl : KeptAt l)
    (hfile : d.get? l = some (.file f)) : d'.get? l = some (.file f) := by
  obtain ⟨name, hname, hlocations⟩ := hplanned.locations
  obtain ⟨kept, hkept, hhead⟩ := hl
  by_cases heq : l = d.locate t.path
  · -- the names are equal, so this file may be kept, and is
    have hskip : t.file.skipIfExists = true := by
      have hnames : kept = name := by rw [heq, (hlocations d).1] at hhead; exact (Option.some.inj hhead).symm
      exact (Prod.mk.inj (plannedNames_functional _ hkept _ hname hnames)).2.symm
    subst heq
    have hfind : ∀ f?, Present d t.path f? → Kept d t := fun f? hpresent => by
      refine ⟨hskip, ?_⟩
      cases f? with
      | some g => exact ⟨_, find_of_holds hpresent.1 hpresent.2⟩
      | none =>
        obtain ⟨dir, base, hends, hmem⟩ := hplanned.name
        have hjoined : Ends t.path.toList (parts root.toList ++ dir) base.toList :=
          hplanned.under.path ▸ hends.join hplanned.under.relative
        have hnone := get?_locate_of_notFound (by rw [aim_of_ends hjoined (notDots_of_mem_plannedNames hmem)])
          (hplanned.under.climbable_iff.mpr (hclimb hskip)) hpresent
        rw [hnone] at hfile
        cases hfile
    cases h with
    | kept | unread | pending => exact hfile
    | matched hnot hpresent => exact absurd (hfind _ hpresent) hnot
    | placed hnot hpresent => exact absurd (hfind _ hpresent) hnot
    | broken hnot hpresent => exact absurd (hfind _ hpresent) hnot
  · have hbeside : l ≠ d.locate (draftPath t.path) := fun heq =>
      plannedNames_not_draft _ hkept (hplanned.isDraftName d (heq ▸ hhead))
    exact file?_eq_some.mp ((h.file?_eq heq hbeside).trans (file?_eq_some.mpr hfile))

/-! ### Runs -/

section Run
variable {ts : List Target} {os : List (Outcome × String)}

/-- If the first file may not be kept, the root climbs only out of directories that are there from the second on. -/
theorem Run.get?_of_kept (h : Run false ts ledger d ws os ledger' d') (hplanned : ∀ t ∈ ts, t.Planned root)
    (hclimb : ∀ t ∈ ts.head?, t.file.skipIfExists = true → d.Climbable root) (hl : KeptAt l)
    (hfile : d.get? l = some (.file f)) : d'.get? l = some (.file f) := by
  induction h with
  | nil => exact hfile
  | cons first _ ih =>
    obtain ⟨hfirst, hrest⟩ := List.forall_mem_cons.mp hplanned
    have hstep := stepCase_of_run first
    exact ih hrest (fun _ _ _ => hstep.climbable hfirst.under) (hstep.get?_of_kept hfirst (hclimb _ rfl) hl hfile)

theorem Stops.get?_of_kept {e : Failure} (h : Stops false ts ledger d ws e d') (hplanned : ∀ t ∈ ts, t.Planned root)
    (hclimb : ∀ t ∈ ts.head?, t.file.skipIfExists = true → d.Climbable root) (hl : KeptAt l)
    (hfile : d.get? l = some (.file f)) : d'.get? l = some (.file f) := by
  induction h with
  | here step =>
    exact (stepCase_of_run step).get?_of_kept (hplanned _ (List.mem_cons_self ..)) (hclimb _ rfl) hl hfile
  | later first _ ih =>
    obtain ⟨hfirst, hrest⟩ := List.forall_mem_cons.mp hplanned
    have hstep := stepCase_of_run first
    exact ih hrest (fun _ _ _ => hstep.climbable hfirst.under) (hstep.get?_of_kept hfirst (hclimb _ rfl) hl hfile)

end Run

/-! ### Writes -/

theorem keptAt_ne_ledger (hl : KeptAt l) (d : Disk) (root : String) :
    l ≠ d.locate (ledgerPath root) ∧ l ≠ d.locate (ledgerDraftPath root) := by
  obtain ⟨name, hname, hhead⟩ := hl
  obtain ⟨hne, hne'⟩ := plannedNames_ne_ledger _ hname
  rw [locate_ledgerPath, locate_ledgerDraftPath]
  exact ⟨fun h => hne (by simpa [h] using hhead.symm), fun h => hne' (by simpa [h] using hhead.symm)⟩

theorem head_of_generates {p : Project} {files : List GeneratedFile} {moduleRoot : String} {ts : List Target}
    (hfiles : p.Generates files) (h : files.mapM (target root moduleRoot) = .ok ts) :
    ∀ t ∈ ts.head?, t.file.skipIfExists = false := by
  obtain ⟨rfl, -⟩ := mapM_target_eq_ok h
  have hplan := hfiles.planned
  cases files with
  | nil => cases hplan
  | cons file files =>
    intro t ht
    obtain rfl : targetOf root moduleRoot file = t := Option.some.inj ht
    exact congrArg PlannedFile.skipIfExists (List.cons.inj hplan).1

theorem write_get?_of_kept {p : Project} {files : List GeneratedFile} {moduleRoot : String} {now : Instant}
    {log : Logged (List (Outcome × String))} (hfiles : p.Generates files)
    (hrun : (write files root moduleRoot dryRun now : StateM Disk _) d = (log, d')) (hl : KeptAt l)
    (hfile : d.get? l = some (.file f)) : d'.get? l = some (.file f) := by
  have hclimb : ∀ {ts : List Target}, files.mapM (target root moduleRoot) = .ok ts →
      ∀ t ∈ ts.head?, t.file.skipIfExists = true → d.Climbable root := fun htargets t ht hskip => by
    rw [head_of_generates hfiles htargets t ht] at hskip
    cases hskip
  cases writeCase_of_run hrun with
  | unloaded | refused | previewed => exact hfile
  | stopped _ htargets hstops =>
    cases dryRun with
    | true => exact hstops.dry ▸ hfile
    | false => exact hstops.get?_of_kept (planned_of_generates hfiles htargets) (hclimb htargets) hl hfile
  | unsaved _ htargets hwrites hreal hsave =>
    subst hreal
    exact (hsave.other l (keptAt_ne_ledger hl _ root).2).get?_file
      (hwrites.get?_of_kept (planned_of_generates hfiles htargets) (hclimb htargets) hl hfile)
  | saved _ htargets hwrites hreal hsave =>
    subst hreal
    obtain ⟨hne, hne'⟩ := keptAt_ne_ledger hl _ root
    exact (hsave.other l hne hne').get?_file
      (hwrites.get?_of_kept (planned_of_generates hfiles htargets) (hclimb htargets) hl hfile)

/-! ### Histories -/

/-- A write of the generated files of a project that was loaded. -/
structure Attempt where
  project : Project
  loaded : ∃ bytes resolved, Project.load bytes resolved = .ok project
  files : List GeneratedFile
  generated : project.Generates files
  moduleRoot : String
  dryRun : Bool
  now : Instant

/-- The disk after a write under a root, whether or not it succeeds. -/
def Attempt.after (a : Attempt) (root : String) (d : Disk) : Disk :=
  ((write a.files root a.moduleRoot a.dryRun a.now : StateM Disk (Logged (List (Outcome × String)))) d).2

/-- The disk after writes under a root one after another. -/
def history (root : String) (attempts : List Attempt) (d : Disk) : Disk :=
  attempts.foldl (fun d a => a.after root d) d

theorem history_of_kept (attempts : List Attempt) (hl : KeptAt l) :
    ∀ {d : Disk}, d.get? l = some (.file f) → (history root attempts d).get? l = some (.file f) := by
  induction attempts with
  | nil => exact fun hfile => hfile
  | cons a attempts ih => exact fun hfile => ih (write_get?_of_kept a.generated rfl hl hfile)

/-- Once there is a file where a write plans one that may be kept, be it a write of the history or not, no later
    write of the history changes it. -/
theorem history_get?_of_kept {before after : List Attempt} {a : Attempt} {file : GeneratedFile} (hmem : file ∈ a.files)
    (hskip : file.skipIfExists = true)
    (hfile : (history root before d).get? (d.locate (pathFor root a.moduleRoot file)) = some (.file f)) :
    (history root (before ++ after) d).get? (d.locate (pathFor root a.moduleRoot file)) =
      some (.file f) := by
  rw [history, List.foldl_append]
  exact history_of_kept after (keptAt_of_planned (mem_plan_of_mem a.generated hmem) hskip root a.moduleRoot d) hfile

/-- A write of the files of the sample project. -/
def sampleAttempt : Attempt where
  project := Project.sample
  loaded := ⟨_, _, Project.load_sample⟩
  files := Project.sampleFiles "x"
  generated := Project.generates_sampleFiles _ (by simp)
  moduleRoot := "m"
  dryRun := false
  now := .epoch

/-- A configuration with an editor's text stays as it is. -/
theorem history_keeps_configuration :
    (history "out" ([] ++ [sampleAttempt, sampleAttempt]) (diskOf [("out/pkg/config/config.go", "mine", false)])).get?
        ((diskOf [("out/pkg/config/config.go", "mine", false)]).locate (pathFor "out" "m"
          ⟨⟨"m/pkg/config/config.go", "code/config.go.tera", true, false, .project⟩, "x"⟩)) =
      some (.file ⟨Text.encode "mine", 0o644⟩) :=
  history_get?_of_kept (a := sampleAttempt) (by decide +kernel) rfl (by decide +kernel)

end Scaffold.Output
