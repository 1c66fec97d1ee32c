import Scaffold.Output.Compare
import Scaffold.Proofs.Output.Again

/-! Comparing and a dry run. Both look at each file on the disk as it is, a dry run by digests and apart from files
    that are missing, a comparison by texts, with an empty one for a file that is missing. So a comparison reports the
    files that a dry run would write (`compareTarget_run`), but for empty ones that are missing (`Reported`). -/

namespace Scaffold.Output
open Disk Scaffold.Path

variable {d d' : Disk} {t : Target} {ledger ledger' : Ledger} {ws : List String} {o : Outcome}

/-- Nothing is found at the end of a path. -/
def isMissing (d : Disk) (path : String) : Bool :=
  match d.find path with
  | .error .notFound => true
  | _ => false

theorem isMissing_iff {path : String} : isMissing d path = true ↔ Present d path none := by
  unfold isMissing Present
  split
  · rename_i hfind
    simp [hfind]
  · rename_i hfind
    exact iff_of_false (by simp) hfind

/-- Whether a comparison reports a file: it would be written, and would not be a new empty one. -/
def Reported (d : Disk) (t : Target) (o : Outcome) : Prop :=
  o = .wouldWrite ∧ ¬(isMissing d t.path = true ∧ t.text = "")

instance (d : Disk) (t : Target) (o : Outcome) : Decidable (Reported d t o) :=
  inferInstanceAs (Decidable (_ ∧ ¬(_ ∧ _)))

/-- What a comparison says of a file in whose place a text stands. -/
def diffOf (t : Target) (old : String) : FileDiff :=
  ⟨t.path, Diff.unified ("a/" ++ t.rel) ("b/" ++ t.rel) old t.text⟩

theorem compareTarget_of_kept (h : Kept d t) : (compareTarget t : StateM Disk _) d = (.ok none, d) := by
  obtain ⟨b, hrun, hb⟩ := isKept_run t d
  obtain rfl := hb.mpr h
  unfold compareTarget
  simp only [bind_run, hrun, ↓reduceIte, pure_run]

theorem compareTarget_of_present {f? : Option File} (hkept : ¬Kept d t) (h : Present d t.path f?) :
    (compareTarget t : StateM Disk _) d =
      (.ok (if (f?.map textOf).getD "" = t.text then none else some (diffOf t ((f?.map textOf).getD ""))), d) := by
  obtain ⟨b, hrun, hb⟩ := isKept_run t d
  obtain rfl : b = false := by rwa [← Bool.not_eq_true, hb]
  obtain ⟨r, hread, hcase⟩ := existingText_run t.path d
  obtain ⟨f?', hpresent, rfl⟩ : ∃ f?', Present d t.path f?' ∧ r = .ok (f?'.map textOf) :=
    hcase.resolve_right fun ⟨_, habsent⟩ => habsent _ h
  obtain rfl := h.eq hpresent
  unfold compareTarget
  simp only [bind_run, hrun, Bool.false_eq_true, ↓reduceIte, hread]
  by_cases hsame : (f?'.map textOf).getD "" = t.text
  · rw [if_pos hsame]
    exact congrFun (if_pos hsame) d
  · rw [if_neg hsame]
    exact congrFun (if_neg hsame) d

/-- A comparison reports a file if a dry run would write it, unless it is empty and missing. -/
theorem compareTarget_run (h : StepCase t true ledger d d' ⟨ws, .ok (o, ledger')⟩) (htold : Told d t) :
    ∃ old, (compareTarget t : StateM Disk _) d = (.ok (if Reported d t o then some (diffOf t old) else none), d) := by
  cases h with
  | kept hkept => exact ⟨"", by rw [compareTarget_of_kept hkept, if_neg (by simp [Reported])]⟩
  | @matched f _ hkept hpresent hsame _ _ =>
    have htext : textOf f = t.text := htold f hpresent.2 (Option.some.inj hsame)
    refine ⟨"", ?_⟩
    rw [compareTarget_of_present hkept hpresent, if_pos (by simpa using htext), if_neg (by simp [Reported])]
  | @pending f? hkept hpresent hdiffers _ =>
    refine ⟨(f?.map textOf).getD "", ?_⟩
    rw [compareTarget_of_present hkept hpresent]
    cases f? with
    | none =>
      by_cases hempty : t.text = ""
      · simp [Reported, isMissing_iff.mpr hpresent, hempty]
      · simp [Reported, hempty, Ne.symm hempty]
    | some f =>
      have hthere : isMissing d t.path = false := by
        rw [← Bool.not_eq_true, isMissing_iff]
        exact fun hmissing => nomatch hpresent.eq hmissing
      have htext : textOf f ≠ t.text := fun heq => hdiffers (congrArg (some ∘ Sha256.ofText) heq)
      simp [Reported, hthere, htext]
  | placed _ _ _ hreal => cases hreal

/-- The files that are reported, with the results of a dry run. -/
def reported (d : Disk) (ts : List Target) (os : List (Outcome × String)) : List (Target × Outcome × String) :=
  (ts.zip os).filter fun (t, o) => Reported d t o.1

theorem compare_run {root moduleRoot : String} : ∀ {files : List GeneratedFile} {ts : List Target}
    {ledger ledger' : Ledger} {ws : List String} {os : List (Outcome × String)},
    files.mapM (target root moduleRoot) = .ok ts → Run true ts ledger d ws os ledger' d → (∀ t ∈ ts, Told d t) →
      ∃ diffs, (compare root moduleRoot files : StateM Disk _) d = (.ok diffs, d) ∧
        diffs.map FileDiff.path = (reported d ts os).map (·.2.2)
  | [], ts, _, _, _, _, htargets, hrun, _ => by
    cases htargets
    cases hrun
    exact ⟨[], rfl, rfl⟩
  | file :: files, _, _, _, _, _, htargets, hrun, htold => by
    rw [List.mapM_cons] at htargets
    obtain ⟨t, ht, htargets⟩ := bind_eq_ok.mp htargets
    obtain ⟨ts, hts, htargets⟩ := bind_eq_ok.mp htargets
    cases htargets
    obtain ⟨hfirst, hlater⟩ := List.forall_mem_cons.mp htold
    cases hrun with
    | @cons _ _ _ _ _ _ _ _ _ _ o os first rest =>
      have hstep := stepCase_of_run first
      rw [hstep.dry] at rest
      obtain ⟨old, hcompare⟩ := compareTarget_run hstep hfirst
      obtain ⟨diffs, hcompares, hpaths⟩ := compare_run hts rest hlater
      refine ⟨_, by unfold compare; simp only [ht, bind_run, hcompare, hcompares, pure_run]; rfl, ?_⟩
      rw [reported] at hpaths ⊢
      by_cases hreported : Reported d t o
      · simp [hreported, diffOf, hpaths]
      · simp [hreported, hpaths]

/-- Where a dry run succeeds a comparison does. It reports the files that the dry run would write, in their order, but
    for those that are missing and have an empty text. -/
theorem compare_of_dry {files : List GeneratedFile} {root moduleRoot : String} {now : Instant}
    {results : List (Outcome × String)} (htold : ∀ file ∈ files, Told d (targetOf root moduleRoot file))
    (hrun : (write files root moduleRoot true now : StateM Disk _) d = (⟨ws, .ok results⟩, d')) :
    ∃ diffs, (compare root moduleRoot files : StateM Disk _) d = (.ok diffs, d) ∧
      diffs.map FileDiff.path = (reported d (files.map (targetOf root moduleRoot)) results).map (·.2.2) := by
  cases writeCase_of_run hrun with
  | previewed _ htargets hwrites =>
    obtain ⟨rfl, -⟩ := mapM_target_eq_ok htargets
    exact compare_run htargets hwrites (List.forall_mem_map.mpr htold)
  | saved _ _ _ hreal => cases hreal

/-- A disk with an own `main.go`. -/
def mainDisk : Disk := diskOf [("main.go", "mine", false)]

/-- All files of the sample project would be written on this disk, and a comparison reports only the one that is not
    missing. -/
theorem compare_of_dry_sample : ∃ ws results diffs,
    Project.load (Text.encode "apiVersion: a/v1\nkind: K\n") (.ok "m") = .ok Project.sample ∧
    Project.sample.Generates (Project.sampleFiles "") ∧
    (write (Project.sampleFiles "") "" "m" true .epoch : StateM Disk _) mainDisk = (⟨ws, .ok results⟩, mainDisk) ∧
    results = (Project.sampleFiles "").map (fun file => (.wouldWrite, pathFor "" "m" file)) ∧
    (compare "" "m" (Project.sampleFiles "") : StateM Disk _) mainDisk = (.ok diffs, mainDisk) ∧
    diffs.map FileDiff.path = ["main.go"] := by
  have hresults :
      ((write (Project.sampleFiles "") "" "m" true .epoch : StateM Disk _) mainDisk).1.result.toOption.bind some =
        some ((Project.sampleFiles "").map fun file => (.wouldWrite, pathFor "" "m" file)) := by decide +kernel
  obtain ⟨ws, results, hrun, heq⟩ := exists_dry_of_ok hresults
  cases heq
  obtain ⟨diffs, hcompare, hpaths⟩ := compare_of_dry (by decide +kernel) hrun
  refine ⟨ws, _, diffs, Project.load_sample, Project.generates_sampleFiles _ (by simp), hrun, rfl, hcompare,
    hpaths.trans ?_⟩
  decide +kernel

end Scaffold.Output
