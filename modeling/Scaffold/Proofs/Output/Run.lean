import Scaffold.Proofs.Output.Step

/-! Runs: files written one after another (`Run`). A run that fails is a run on the files before the one that
    failed (`writeTargets_run`). What a step leaves alone a run does: files that are not the run's own
    (`Run.file?_eq`), and whatever stands apart from them (`Run.get?_eq_of_apart`) if the root climbs only out of
    directories that are there. After the first file it does. -/

namespace Scaffold.Output
open Disk Scaffold.Path

variable {d d' : Disk} {t : Target} {dryRun : Bool} {ledger : Ledger} {log : Logged (Outcome × Ledger)}

/-! ### What a step leaves alone -/

theorem StepCase.keeps (h : StepCase t dryRun ledger d d' log) : Keeps d d' := by
  cases h with
  | kept | unread | pending => exact Keeps.refl d
  | matched _ hpresent _ hmarked _ => exact hmarked.keeps (by simp [hpresent.2])
  | placed _ _ _ _ hplaced => exact hplaced.keeps
  | broken _ _ _ _ _ hbroken => exact hbroken.keeps

theorem StepCase.dry (h : StepCase t true ledger d d' log) : d' = d := by
  cases h with
  | kept | unread | pending => rfl
  | matched _ _ _ _ hdry => exact hdry rfl
  | placed _ _ _ hreal _ => cases hreal
  | broken _ _ _ hreal _ _ => cases hreal

theorem SameOrNew.refl (d : Disk) (path : String) (l : Location) : SameOrNew d d path l := Or.inl rfl

/-- Beside the file a step at most removes its draft. -/
theorem StepCase.beside (h : StepCase t dryRun ledger d d' log) {l : Location} (hl : l ≠ d.locate t.path) :
    SameOrNew d d' t.path l ∨ (l = d.locate (draftPath t.path) ∧ d'.get? l = none) := by
  cases h with
  | kept | unread | pending => exact Or.inl (SameOrNew.refl d _ l)
  | matched _ _ _ hmarked _ => exact Or.inl (Or.inl (hmarked.get?_of_ne hl))
  | placed _ _ _ _ hplaced =>
    by_cases hdraft : l = d.locate (draftPath t.path)
    · exact Or.inr ⟨hdraft, hdraft ▸ hplaced.draft⟩
    · exact Or.inl (hplaced.other l hl hdraft)
  | broken _ _ _ _ _ hbroken => exact hbroken.other l

theorem SameOrNew.file?_eq {path : String} {l : Location} (h : SameOrNew d d' path l) : d'.file? l = d.file? l := by
  rcases h with heq | ⟨-, hnone, hdir⟩
  · exact file?_eq_of_get? heq
  · simp [file?, hnone, hdir]

theorem SameOrNew.get?_file {path : String} {l : Location} {f : File} (h : SameOrNew d d' path l) (hfile : d.get? l = some (.file f)) :
    d'.get? l = some (.file f) := by
  rw [← file?_eq_some, h.file?_eq, file?_eq_some, hfile]

theorem StepCase.file?_eq (h : StepCase t dryRun ledger d d' log) {l : Location} (hl : l ≠ d.locate t.path)
    (hdraft : l ≠ d.locate (draftPath t.path)) : d'.file? l = d.file? l := by
  rcases h.beside hl with hsame | ⟨heq, -⟩
  · exact hsame.file?_eq
  · exact absurd heq hdraft

theorem StepCase.opens {outcome : Outcome} {ledger' : Ledger} {ws : List String}
    (h : StepCase t false ledger d d' ⟨ws, .ok (outcome, ledger')⟩) : d'.Opens t.path := by
  cases h with
  | kept hkept =>
    obtain ⟨r, hfind⟩ := hkept.2
    exact (find_eq_ok.mp hfind).1
  | matched _ hpresent _ hmarked _ => exact (hpresent.1.keep (hmarked.keeps (by simp [hpresent.2]))).opens
  | pending _ _ _ hdry => cases hdry
  | placed _ _ _ _ hplaced => exact hplaced.holds.opens

/-! ### Runs -/

/-- Steps on files one after another, all of which succeed. -/
inductive Run (dryRun : Bool) :
    List Target → Ledger → Disk → List String → List (Outcome × String) → Ledger → Disk → Prop where
  | nil (ledger : Ledger) (d : Disk) : Run dryRun [] ledger d [] [] ledger d
  | cons {t : Target} {ts : List Target} {l₀ l₁ l₂ : Ledger} {d₀ d₁ d₂ : Disk} {ws ws' : List String} {o : Outcome}
      {os : List (Outcome × String)}
      (first : (writeUnlessKept t dryRun l₀ : StateM Disk _) d₀ = (⟨ws, .ok (o, l₁)⟩, d₁))
      (rest : Run dryRun ts l₁ d₁ ws' os l₂ d₂) :
      Run dryRun (t :: ts) l₀ d₀ (ws ++ ws') ((o, t.path) :: os) l₂ d₂

/-- Steps on files one after another, the last of which fails. -/
inductive Stops (dryRun : Bool) : List Target → Ledger → Disk → List String → Failure → Disk → Prop where
  | here {t : Target} {ts : List Target} {l : Ledger} {d d' : Disk} {ws : List String} {e : Failure}
      (step : (writeUnlessKept t dryRun l : StateM Disk _) d = (⟨ws, .error e⟩, d')) :
      Stops dryRun (t :: ts) l d ws e d'
  | later {t : Target} {ts : List Target} {l₀ l₁ : Ledger} {d₀ d₁ d₂ : Disk} {ws ws' : List String} {o : Outcome}
      {e : Failure} (first : (writeUnlessKept t dryRun l₀ : StateM Disk _) d₀ = (⟨ws, .ok (o, l₁)⟩, d₁))
      (rest : Stops dryRun ts l₁ d₁ ws' e d₂) : Stops dryRun (t :: ts) l₀ d₀ (ws ++ ws') e d₂

theorem writeTargets_cons_ok {ts : List Target} {l₁ : Ledger} {ws : List String} {o : Outcome}
    (h : (writeUnlessKept t dryRun ledger : StateM Disk _) d = (⟨ws, .ok (o, l₁)⟩, d')) :
    (writeTargets dryRun (t :: ts) ledger : StateM Disk _) d =
      let more := (writeTargets dryRun ts l₁ : StateM Disk _) d'
      (⟨ws ++ more.1.warnings, more.1.result.map fun (outcomes, ledger) => ((o, t.path) :: outcomes, ledger)⟩,
        more.2) := by
  simp only [writeTargets, bind_run, h, pure_run]

theorem writeTargets_run (dryRun : Bool) : ∀ (ts : List Target) (ledger : Ledger) (d : Disk),
    ∃ ws r d', (writeTargets dryRun ts ledger : StateM Disk _) d = (⟨ws, r⟩, d') ∧
      ((∃ os ledger', r = .ok (os, ledger') ∧ Run dryRun ts ledger d ws os ledger' d') ∨
        (∃ e, r = .error e ∧ Stops dryRun ts ledger d ws e d'))
  | [], ledger, d => ⟨[], .ok ([], ledger), d, rfl, Or.inl ⟨_, _, rfl, .nil ledger d⟩⟩
  | t :: ts, ledger, d => by
    obtain ⟨⟨ws, r⟩, d₁, hfirst, -⟩ := writeUnlessKept_run t dryRun ledger d
    cases r with
    | error e =>
      refine ⟨ws, .error e, d₁, ?_, Or.inr ⟨e, rfl, .here hfirst⟩⟩
      simp only [writeTargets, bind_run, hfirst, pure_run]
    | ok answer =>
      obtain ⟨o, l₁⟩ := answer
      obtain ⟨ws', r, d₂, hrest, hcase⟩ := writeTargets_run dryRun ts l₁ d₁
      refine ⟨ws ++ ws', _, d₂, by rw [writeTargets_cons_ok hfirst, hrest], ?_⟩
      rcases hcase with ⟨os, l₂, rfl, hrun⟩ | ⟨e, rfl, hstops⟩
      · exact Or.inl ⟨_, _, rfl, .cons hfirst hrun⟩
      · exact Or.inr ⟨e, rfl, .later hfirst hstops⟩

theorem stepCase_of_run (h : (writeUnlessKept t dryRun ledger : StateM Disk _) d = (log, d')) :
    StepCase t dryRun ledger d d' log := by
  obtain ⟨log', d'', hrun, hcase⟩ := writeUnlessKept_run t dryRun ledger d
  rw [h] at hrun
  cases hrun
  exact hcase

section Run
variable {ts : List Target} {l₀ l₁ : Ledger} {ws : List String} {os : List (Outcome × String)}

theorem Run.writeTargets_eq (h : Run dryRun ts l₀ d ws os l₁ d') :
    (writeTargets dryRun ts l₀ : StateM Disk _) d = (⟨ws, .ok (os, l₁)⟩, d') := by
  induction h with
  | nil => rfl
  | cons first _ ih => rw [writeTargets_cons_ok first, ih]; rfl

theorem Run.keeps (h : Run dryRun ts l₀ d ws os l₁ d') : Keeps d d' := by
  induction h with
  | nil => exact Keeps.refl _
  | cons first _ ih => exact (stepCase_of_run first).keeps.trans ih

theorem Stops.keeps {e : Failure} (h : Stops dryRun ts l₀ d ws e d') : Keeps d d' := by
  induction h with
  | here step => exact (stepCase_of_run step).keeps
  | later first _ ih => exact (stepCase_of_run first).keeps.trans ih

theorem Run.dry (h : Run true ts l₀ d ws os l₁ d') : d' = d := by
  induction h with
  | nil => rfl
  | cons first _ ih => rw [ih, (stepCase_of_run first).dry]

theorem Run.file?_eq (h : Run dryRun ts l₀ d ws os l₁ d') {l : Location}
    (hapart : ∀ t ∈ ts, l ≠ d.locate t.path ∧ l ≠ d.locate (draftPath t.path)) : d'.file? l = d.file? l := by
  induction h with
  | nil => rfl
  | cons first _ ih =>
    obtain ⟨hhead, htail⟩ := List.forall_mem_cons.mp hapart
    have hstep := stepCase_of_run first
    rw [ih fun t ht => by simpa only [hstep.keeps.locate] using htail t ht, hstep.file?_eq hhead.1 hhead.2]

theorem Stops.dry {e : Failure} (h : Stops true ts l₀ d ws e d') : d' = d := by
  induction h with
  | here step => exact (stepCase_of_run step).dry
  | later first _ ih => rw [ih, (stepCase_of_run first).dry]

theorem Stops.after_run {e : Failure} (h : Stops dryRun ts l₀ d ws e d') :
    ∃ before t after ws₁ os l₁ mid ws₂, ts = before ++ t :: after ∧ Run dryRun before l₀ d ws₁ os l₁ mid ∧
      StepCase t dryRun l₁ mid d' ⟨ws₂, .error e⟩ ∧ ws = ws₁ ++ ws₂ := by
  induction h with
  | here step => exact ⟨[], _, _, [], [], _, _, _, rfl, .nil .., stepCase_of_run step, rfl⟩
  | later first _ ih =>
    obtain ⟨before, t, after, ws₁, os, l₁, mid, ws₂, rfl, hrun, hstep, rfl⟩ := ih
    exact ⟨_ :: before, t, after, _, _, l₁, mid, ws₂, rfl, .cons first hrun, hstep, (List.append_assoc ..).symm⟩

theorem Stops.file?_eq {e : Failure} (h : Stops dryRun ts l₀ d ws e d') {l : Location}
    (hapart : ∀ t ∈ ts, l ≠ d.locate t.path ∧ l ≠ d.locate (draftPath t.path)) : d'.file? l = d.file? l := by
  obtain ⟨before, t, after, _, _, _, mid, _, rfl, hrun, hstep, -⟩ := h.after_run
  obtain ⟨hpath, hdraft⟩ := hapart t (by simp)
  rw [hstep.file?_eq (by rwa [hrun.keeps.locate]) (by rwa [hrun.keeps.locate]),
    hrun.file?_eq fun t ht => hapart t (List.mem_append_left _ ht)]

end Run

/-! ### Under a root -/

/-- A file that goes somewhere under a root. -/
structure Target.Under (root : String) (t : Target) : Prop where
  path : t.path = Path.join root t.rel
  relative : ¬IsAbsolute t.rel
  inside : ['.', '.'] ∉ parts t.rel.toList

theorem Target.Under.parts_path {root : String} (h : t.Under root) :
    parts t.path.toList = parts root.toList ++ parts t.rel.toList := by
  rw [h.path, parts_join h.relative]

theorem Target.Under.start_path {root : String} (h : t.Under root) (d : Disk) : d.start t.path = d.start root := by
  rw [h.path]
  exact start_of_isAbsolute_iff (isAbsolute_join h.relative)

theorem Target.Under.path_eq {root : String} {u : Target} (h : t.Under root) (hu : u.Under root) (hrel : t.rel = u.rel) :
    t.path = u.path := by
  rw [h.path, hu.path, hrel]

theorem Target.Under.climbable_iff {root : String} (h : t.Under root) : d.Climbable t.path ↔ d.Climbable root := by
  unfold Climbable
  rw [h.start_path, h.parts_path]
  exact ⟨Climbs.of_append, fun hclimb => hclimb.append h.inside⟩

theorem StepCase.climbable {root : String} {outcome : Outcome} {ledger' : Ledger} {ws : List String}
    (h : StepCase t false ledger d d' ⟨ws, .ok (outcome, ledger')⟩) (hunder : t.Under root) : d'.Climbable root :=
  hunder.climbable_iff.mp h.opens.climbable

/-! ### Locations apart -/

/-- Neither of two locations lies in the other. -/
def Apart (l l' : Location) : Prop := ¬l <:+ l' ∧ ¬l' <:+ l

theorem Apart.symm {l l' : Location} (h : Apart l l') : Apart l' l := ⟨h.2, h.1⟩

theorem Apart.ne {l l' : Location} (h : Apart l l') : l ≠ l' := fun heq => h.1 (heq ▸ List.suffix_refl l)

/-- The locations that belong to a file. -/
def footprint (d : Disk) (t : Target) : List Location := [d.locate t.path, d.locate (draftPath t.path)]

/-- What is new on the way of a path that climbs only out of directories lies around its end. -/
theorem SameOrNew.of_climbable {path : String} {l : Location} (h : SameOrNew d d' path l) (hclimb : d.Climbable path) :
    d'.get? l = d.get? l ∨ (l <:+ d.locate path ∧ d.get? l = none ∧ d'.get? l = some .directory) :=
  h.imp id fun ⟨hway, hnone, hdir⟩ => ⟨hway.suffix_of_missing hclimb hnone, hnone, hdir⟩

theorem StepCase.get?_eq_of_apart (h : StepCase t dryRun ledger d d' log) (hclimb : d.Climbable t.path) {l : Location}
    (hapart : ∀ m ∈ footprint d t, Apart l m) : d'.get? l = d.get? l := by
  have hfile := hapart (d.locate t.path) (by simp [footprint])
  have hdraft := hapart (d.locate (draftPath t.path)) (by simp [footprint])
  rcases h.beside hfile.ne with hsame | ⟨heq, -⟩
  · exact (hsame.of_climbable hclimb).elim id fun hnew => absurd hnew.1 hfile.1
  · exact absurd heq hdraft.ne

theorem footprint_of_keeps (h : Keeps d d') (t : Target) : footprint d' t = footprint d t := by
  simp only [footprint, h.locate]

section Run
variable {root : String} {ts : List Target} {l₀ l₁ : Ledger} {ws : List String} {os : List (Outcome × String)}

theorem Run.get?_eq_of_apart (h : Run dryRun ts l₀ d ws os l₁ d') (hunder : ∀ t ∈ ts, t.Under root)
    (hclimb : d.Climbable root) {l : Location} (hapart : ∀ t ∈ ts, ∀ m ∈ footprint d t, Apart l m) :
    d'.get? l = d.get? l := by
  induction h with
  | nil => rfl
  | cons first _ ih =>
    obtain ⟨hhead, htail⟩ := List.forall_mem_cons.mp hapart
    obtain ⟨hroot, hrest⟩ := List.forall_mem_cons.mp hunder
    have hstep := stepCase_of_run first
    rw [ih hrest (hstep.keeps.climbable hclimb) fun t ht => by simpa only [footprint_of_keeps hstep.keeps] using htail t ht,
      hstep.get?_eq_of_apart (hroot.climbable_iff.mpr hclimb) hhead]

end Run

end Scaffold.Output
