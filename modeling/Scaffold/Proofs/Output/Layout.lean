import Scaffold.Proofs.Output.Target
import Scaffold.Proofs.Plan.Names

/-! The layout of a project under its root. No file, draft or ledger stands at a location inside another one
    (`pairwise_apart`), whatever the kind, the version and the phases are: paths part at a name that is written in
    the plan, or at the packages of two phases. -/

namespace Scaffold.Output
open Disk Scaffold.Path

/-! ### Names that part -/

/-- Neither of two lists of names begins with the other. -/
def Diverge {α : Type} (l m : List α) : Prop := ¬l <+: m ∧ ¬m <+: l

theorem diverge_cons {α : Type} {a b : α} {l m : List α} : Diverge (a :: l) (b :: m) ↔ a = b → Diverge l m := by
  unfold Diverge
  rw [List.cons_prefix_cons, List.cons_prefix_cons]
  constructor
  · rintro ⟨h, h'⟩ rfl
    exact ⟨fun hl => h ⟨rfl, hl⟩, fun hm => h' ⟨rfl, hm⟩⟩
  · exact fun h => ⟨fun ⟨heq, hl⟩ => (h heq).1 hl, fun ⟨heq, hm⟩ => (h heq.symm).2 hm⟩

theorem diverge_append {α : Type} {k l m : List α} : Diverge (k ++ l) (k ++ m) ↔ Diverge l m := by
  simp only [Diverge, List.prefix_append_right_inj]

theorem Diverge.apart {l m : List String} (h : Diverge l m) (loc : Location) : Apart (placeAt loc l) (placeAt loc m) := by
  have inward : ∀ {l m : List String}, placeAt loc l <:+ placeAt loc m → l <+: m := fun {l m} hsuffix => by
    rw [placeAt, placeAt, ← List.reverse_prefix, List.reverse_append, List.reverse_append, List.reverse_reverse,
      List.reverse_reverse, List.prefix_append_right_inj] at hsuffix
    exact hsuffix
  exact ⟨fun hl => h.1 (inward hl), fun hm => h.2 (inward hm)⟩

/-- A name in a directory. -/
abbrev Spot := List String × String

/-- The names that lead to a file and to its draft. -/
def Spot.marks (s : Spot) : List (List String) := [s.1 ++ [s.2], s.1 ++ [s.2 ++ ".pilot.tmp"]]

/-- What belongs to one file is not inside what belongs to another. -/
def Spot.Apart (s s' : Spot) : Prop := ∀ x ∈ s.marks, ∀ y ∈ s'.marks, Diverge x y

/-- The spots of the files that every project has. -/
def projectSpots (inner : List String) : List Spot :=
  [([], "main.go"), (["pkg", "scheduler"], "scheduler.go"), (["pkg", "config"], "config.go"),
    ("pkg" :: "apis" :: inner, "doc.go"), ("pkg" :: "apis" :: inner, "phases.go"),
    ("pkg" :: "apis" :: inner, "register.go"), ("pkg" :: "apis" :: inner, "spec.go"),
    ("pkg" :: "apis" :: inner, "types.go"), (["build"], "Dockerfile"), (["build", "bin"], "user_setup"),
    (["build", "bin"], "entrypoint")]

/-- The spots of the files of a phase. -/
def phaseSpots (package : String) : List Spot :=
  [(["pkg", "workers", package], "parameters.go"), (["pkg", "workers", package], "worker.go")]

theorem projectSpots_pairwise (inner : List String) : (projectSpots inner).Pairwise Spot.Apart := by
  simp [projectSpots, Spot.Apart, Spot.marks, diverge_cons, diverge_append]

theorem phaseSpots_pairwise (package : String) : (phaseSpots package).Pairwise Spot.Apart := by
  simp [phaseSpots, Spot.Apart, Spot.marks, diverge_cons]

theorem phaseSpots_apart {package package' : String} (hne : package ≠ package') :
    ∀ s ∈ phaseSpots package, ∀ s' ∈ phaseSpots package', s.Apart s' := by
  simp [phaseSpots, Spot.Apart, Spot.marks, diverge_cons, hne]

theorem projectSpots_apart_phaseSpots (inner : List String) (package : String) :
    ∀ s ∈ projectSpots inner, ∀ s' ∈ phaseSpots package, s.Apart s' := by
  simp [projectSpots, phaseSpots, Spot.Apart, Spot.marks, diverge_cons]

/-- All spots of a project are apart if its phases have packages of their own. -/
theorem spots_pairwise (inner : List String) {packages : List String} (h : packages.Pairwise (· ≠ ·)) :
    (projectSpots inner ++ packages.flatMap phaseSpots).Pairwise Spot.Apart := by
  refine List.pairwise_append.mpr ⟨projectSpots_pairwise inner, ?_, fun s hs s' hs' => ?_⟩
  · exact List.pairwise_flatMap.mpr ⟨fun package _ => phaseSpots_pairwise package, h.imp fun hne => phaseSpots_apart hne⟩
  · obtain ⟨package, -, hs'⟩ := List.mem_flatMap.mp hs'
    exact projectSpots_apart_phaseSpots inner package s hs s' hs'

theorem spots_diverge_ledger (inner packages rest : List String) :
    ∀ s ∈ projectSpots inner ++ packages.flatMap phaseSpots, ∀ x ∈ s.marks, Diverge x (".pilot" :: rest) := by
  have hproject : ∀ s ∈ projectSpots inner, ∀ x ∈ s.marks, Diverge x (".pilot" :: rest) := by
    simp [projectSpots, Spot.marks, diverge_cons]
  have hphase : ∀ package, ∀ s ∈ phaseSpots package, ∀ x ∈ s.marks, Diverge x (".pilot" :: rest) := by
    simp [phaseSpots, Spot.marks, diverge_cons]
  intro s hs
  rcases List.mem_append.mp hs with hs | hs
  · exact hproject s hs
  · obtain ⟨package, -, hs⟩ := List.mem_flatMap.mp hs
    exact hphase package s hs

/-! ### Spots of planned files -/

/-- The spot that a path leads to. -/
def spotOf (rel : String) : Spot :=
  (namesIn (parts rel.toList).dropLast, String.ofList ((parts rel.toList).getLast?.getD []))

theorem spotOf_of_ends {rel name : String} {dir : List (List Char)} (h : Ends rel.toList dir name.toList) :
    spotOf rel = (namesIn dir, name) := by
  simp [spotOf, h.parts_eq]

theorem spotOf_append {path text name : String} {front : List String} (htext : text = "/" ++ name)
    (hslash : '/' ∉ name.toList) (hne : name.toList ≠ []) (hfront : namesIn (parts path.toList) = front) :
    spotOf (path ++ text) = (front, name) := by
  have h : Ends (path ++ text).toList (parts path.toList) name.toList :=
    ⟨hslash, hne, Or.inr ⟨path.toList, by simp [htext], rfl⟩⟩
  rw [spotOf_of_ends h, hfront]

theorem projectPaths_spots (inner : String) :
    (projectPaths inner).map spotOf = projectSpots (namesIn (parts inner.toList)) := by
  have hinner : namesIn (parts ("pkg/apis/" ++ inner).toList) = "pkg" :: "apis" :: namesIn (parts inner.toList) := by
    have h : ("pkg/apis/" ++ inner).toList = "pkg".toList ++ '/' :: ("apis".toList ++ '/' :: inner.toList) := by simp
    rw [h, parts_append_cons, parts_append_cons, namesIn_append, namesIn_append]
    rfl
  simp only [projectPaths, projectSpots, List.map_cons, List.map_nil, List.cons.injEq, and_true]
  refine ⟨rfl, rfl, rfl, spotOf_append ?_ ?_ ?_ hinner, spotOf_append ?_ ?_ ?_ hinner, spotOf_append ?_ ?_ ?_ hinner,
    spotOf_append ?_ ?_ ?_ hinner, spotOf_append ?_ ?_ ?_ hinner, rfl, rfl, rfl⟩
  all_goals decide

theorem phasePaths_spots {phase : Phase} (h : isIdentifier phase.workerPackage.toList = true) :
    (phasePaths phase).map spotOf = if phase.generatesFiles then phaseSpots phase.workerPackage else [] := by
  obtain ⟨hne, hslash, hdot⟩ := ne_of_isIdentifier h
  have hpackage : namesIn (parts ("pkg/workers/" ++ phase.workerPackage).toList) =
      ["pkg", "workers", phase.workerPackage] := by
    have h : ("pkg/workers/" ++ phase.workerPackage).toList =
        "pkg".toList ++ '/' :: ("workers".toList ++ '/' :: phase.workerPackage.toList) := by simp
    have hdots : ¬IsDots phase.workerPackage.toList := by
      rintro (heq | heq) <;> rw [heq] at hdot <;> simp at hdot
    rw [h, parts_append_cons, parts_append_cons, namesIn_append, namesIn_append, parts_of_notMem hslash hne,
      namesIn_name hdots, String.ofList_toList]
    rfl
  unfold phasePaths
  split
  · simp only [phaseSpots, List.map_cons, List.map_nil, List.cons.injEq, and_true]
    refine ⟨spotOf_append ?_ ?_ ?_ hpackage, spotOf_append ?_ ?_ ?_ hpackage⟩
    all_goals decide
  · rfl

/-- The packages of the phases that have files. -/
def packagesOf (phases : List Phase) : List String := (phases.filter (·.generatesFiles)).map (·.workerPackage)

theorem phases_spots : ∀ {phases : List Phase}, (∀ phase ∈ phases, isIdentifier phase.workerPackage.toList = true) →
    (phases.flatMap phasePaths).map spotOf = (packagesOf phases).flatMap phaseSpots
  | [], _ => rfl
  | phase :: rest, h => by
    obtain ⟨hfirst, hrest⟩ := List.forall_mem_cons.mp h
    rw [List.flatMap_cons, List.map_append, phasePaths_spots hfirst, phases_spots hrest]
    by_cases hfiles : phase.generatesFiles <;> simp [packagesOf, hfiles]

theorem spots_plan {p : Project} (h : p.Loaded) : ∃ inner,
    (p.plan.map (·.relativePath p.moduleRoot)).map spotOf =
      projectSpots inner ++ (packagesOf p.descriptor.phases).flatMap phaseSpots := by
  obtain ⟨inner, hpaths⟩ := relativePath_plan h
  refine ⟨namesIn (parts inner.toList), ?_⟩
  rw [hpaths, List.map_append, projectPaths_spots, phases_spots h.packaged.identifiers]

theorem packages_pairwise {p : Project} (h : p.Loaded) : (packagesOf p.descriptor.phases).Pairwise (· ≠ ·) :=
  List.pairwise_map.mpr (h.packaged.distinct.sublist List.filter_sublist)

/-! ### Targets -/

/-- Files that go under a root, each to its own place and none into the directory of the ledger. -/
structure Laid (d : Disk) (root : String) (ts : List Target) : Prop where
  under : ∀ t ∈ ts, t.Under root
  named : ∀ t ∈ ts, (aim t.path).2.1.isSome
  apart : ts.Pairwise fun t t' => ∀ l ∈ footprint d t, ∀ m ∈ footprint d t', Apart l m
  ledger : ∀ t ∈ ts, ∀ l ∈ footprint d t, Apart l (d.locate (ledgerPath root)) ∧ Apart l (d.locate (ledgerDraftPath root))

theorem footprint_eq {root : String} {t : Target} (h : t.Under root) {dir : List (List Char)} {name : String}
    (hends : Ends t.rel.toList dir name.toList) (hname : ¬IsDots name.toList) (d : Disk) :
    footprint d t = (spotOf t.rel).marks.map (placeAt (d.locate root)) := by
  have hdraft : String.ofList (name.toList ++ draftEnd) = name ++ ".pilot.tmp" := by
    rw [String.ofList_append, String.ofList_toList]
    rfl
  rw [footprint, h.locate_path hends hname, h.locate_draft hends, hdraft, String.ofList_toList, spotOf_of_ends hends]
  rfl

theorem footprint_of_planned {p : Project} {root moduleRoot : String} {file : GeneratedFile}
    (h : file.toPlannedFile ∈ p.plan) (hunder : (targetOf root moduleRoot file).Under root) (d : Disk) :
    footprint d (targetOf root moduleRoot file) =
      (spotOf (file.relativePath moduleRoot)).marks.map (placeAt (d.locate root)) := by
  obtain ⟨dir, name, hends, hname⟩ := ends_of_planned h moduleRoot
  exact footprint_eq hunder hends (notDots_of_mem_plannedNames hname) d

theorem laid_of_generates {p : Project} {files : List GeneratedFile} {root : String} {ts : List Target}
    (hloaded : p.Loaded) (hfiles : p.Generates files) (h : files.mapM (target root p.moduleRoot) = .ok ts) (d : Disk) :
    Laid d root ts := by
  obtain ⟨rfl, hunder⟩ := mapM_target_eq_ok h
  have hplanned : ∀ file ∈ files, file.toPlannedFile ∈ p.plan := fun file hmem => mem_plan_of_mem hfiles hmem
  have hfoot : ∀ file ∈ files, footprint d (targetOf root p.moduleRoot file) =
      (spotOf (file.relativePath p.moduleRoot)).marks.map (placeAt (d.locate root)) := fun file hmem =>
    footprint_of_planned (hplanned file hmem) (hunder _ (List.mem_map_of_mem hmem)) d
  obtain ⟨inner, hspots⟩ := spots_plan hloaded
  have hlist : files.map (fun file => spotOf (file.relativePath p.moduleRoot)) =
      projectSpots inner ++ (packagesOf p.descriptor.phases).flatMap phaseSpots := by
    rw [← hspots, ← hfiles.planned, List.map_map, List.map_map]
    rfl
  -- the spots of the paths are apart, and so are the places at the root that they stand for
  refine ⟨hunder, fun t ht => ?_, ?_, fun t ht l hl => ?_⟩
  · obtain ⟨file, hmem, rfl⟩ := List.mem_map.mp ht
    obtain ⟨dir, name, hends, hname⟩ := ends_of_planned (hplanned file hmem) p.moduleRoot
    have hjoined : Ends (targetOf root p.moduleRoot file).path.toList _ _ := hends.join (hunder _ ht).relative
    rw [aim_of_ends hjoined (notDots_of_mem_plannedNames hname)]
    rfl
  · have hpairs := spots_pairwise inner (packages_pairwise hloaded)
    rw [← hlist] at hpairs
    refine List.pairwise_map.mpr ((List.pairwise_map.mp hpairs).imp_of_mem fun hf hg hapart l hl m hm => ?_)
    rw [hfoot _ hf] at hl
    rw [hfoot _ hg] at hm
    obtain ⟨x, hx, rfl⟩ := List.mem_map.mp hl
    obtain ⟨y, hy, rfl⟩ := List.mem_map.mp hm
    exact (hapart x hx y hy).apart _
  · obtain ⟨file, hmem, rfl⟩ := List.mem_map.mp ht
    rw [hfoot file hmem] at hl
    obtain ⟨x, hx, rfl⟩ := List.mem_map.mp hl
    have hspot : spotOf (file.relativePath p.moduleRoot) ∈
        projectSpots inner ++ (packagesOf p.descriptor.phases).flatMap phaseSpots := by
      rw [← hlist]
      exact List.mem_map.mpr ⟨file, hmem, rfl⟩
    have hdiverge : ∀ rest, Diverge x (".pilot" :: rest) := fun rest =>
      spots_diverge_ledger inner (packagesOf p.descriptor.phases) rest _ hspot x hx
    rw [locate_ledgerPath, locate_ledgerDraftPath, locate_ledgerDir]
    exact ⟨(hdiverge ["hashes.json"]).apart _, (hdiverge ["hashes.json.tmp"]).apart _⟩

namespace Laid
variable {d d' : Disk} {root : String} {t : Target} {ts : List Target}

theorem tail (h : Laid d root (t :: ts)) : Laid d root ts where
  under := fun t' ht => h.under t' (List.mem_cons_of_mem _ ht)
  named := fun t' ht => h.named t' (List.mem_cons_of_mem _ ht)
  apart := (List.pairwise_cons.mp h.apart).2
  ledger := fun t' ht => h.ledger t' (List.mem_cons_of_mem _ ht)

theorem keep (h : Laid d root ts) (hk : Keeps d d') : Laid d' root ts := by
  have hfoot := footprint_of_keeps hk
  exact ⟨h.under, h.named, by simpa only [hfoot] using h.apart, by simpa only [hfoot, hk.locate] using h.ledger⟩

theorem apart_head (h : Laid d root (t :: ts)) {l : Location} (hl : l ∈ footprint d t) :
    ∀ t' ∈ ts, ∀ m ∈ footprint d t', Apart l m := fun t' ht m hm => (List.pairwise_cons.mp h.apart).1 t' ht l hl m hm

end Laid

/-! ### Names at the end -/

/-- A file with a planned name under a root. -/
structure Target.Planned (root : String) (t : Target) : Prop where
  under : t.Under root
  name : ∃ dir name, Ends t.rel.toList dir name.toList ∧ (name, t.file.skipIfExists) ∈ plannedNames

theorem plannedNames_functional :
    ∀ a ∈ plannedNames, ∀ b ∈ plannedNames, a.1 = b.1 → a = b := by decide

/-- A name of a draft. -/
def IsDraftName (name : String) : Prop := ".pilot.tmp".toList <:+ name.toList

theorem isDraftName_append (name : String) : IsDraftName (name ++ ".pilot.tmp") := by
  unfold IsDraftName
  rw [String.toList_append]
  exact List.suffix_append ..

theorem plannedNames_not_draft : ∀ a ∈ plannedNames, ¬IsDraftName a.1 := by
  unfold IsDraftName
  decide

theorem ledgerNames_not_draft : ¬IsDraftName "hashes.json" ∧ ¬IsDraftName "hashes.json.tmp" := by
  unfold IsDraftName
  decide

theorem plannedNames_ne_ledger : ∀ a ∈ plannedNames, a.1 ≠ "hashes.json" ∧ a.1 ≠ "hashes.json.tmp" := by decide

theorem Target.Planned.locations {root : String} {t : Target} (h : t.Planned root) :
    ∃ name, (name, t.file.skipIfExists) ∈ plannedNames ∧ ∀ d : Disk, (d.locate t.path).head? = some name ∧
      (d.locate (draftPath t.path)).head? = some (name ++ ".pilot.tmp") := by
  obtain ⟨dir, name, hends, hmem⟩ := h.name
  refine ⟨name, hmem, fun d => ?_⟩
  have hdraft : String.ofList (name.toList ++ draftEnd) = name ++ ".pilot.tmp" := by
    rw [String.ofList_append, String.ofList_toList]
    rfl
  rw [h.under.locate_path hends (notDots_of_mem_plannedNames hmem), h.under.locate_draft hends, hdraft, String.ofList_toList]
  simp [placeAt]

section Places
variable {root : String} {t : Target} {name : String} (d : Disk)

theorem Target.Planned.isDraftName (h : t.Planned root) (hl : (d.locate (draftPath t.path)).head? = some name) :
    IsDraftName name := by
  obtain ⟨n, -, hlocations⟩ := h.locations
  rw [(hlocations d).2, Option.some.injEq] at hl
  exact hl ▸ isDraftName_append n

theorem Target.Planned.not_isDraftName (h : t.Planned root) (hl : (d.locate t.path).head? = some name) :
    ¬IsDraftName name := by
  obtain ⟨n, hn, hlocations⟩ := h.locations
  rw [(hlocations d).1, Option.some.injEq] at hl
  exact hl ▸ plannedNames_not_draft _ hn

theorem Target.Planned.ne_draft {root' : String} {t' : Target} (h : t.Planned root) (h' : t'.Planned root') :
    d.locate t.path ≠ d.locate (draftPath t'.path) := fun heq => by
  obtain ⟨n, -, hlocations⟩ := h'.locations
  have hhead := (hlocations d).2
  exact h.not_isDraftName d (heq ▸ hhead) (h'.isDraftName d hhead)

theorem Target.Planned.ne_ledger (h : t.Planned root) (root' : String) :
    d.locate t.path ≠ d.locate (ledgerPath root') ∧ d.locate t.path ≠ d.locate (ledgerDraftPath root') := by
  obtain ⟨n, hn, hlocations⟩ := h.locations
  have hhead := (hlocations d).1
  obtain ⟨hne, hne'⟩ := plannedNames_ne_ledger _ hn
  rw [locate_ledgerPath, locate_ledgerDraftPath]
  exact ⟨fun heq => hne (by simpa [heq] using hhead.symm), fun heq => hne' (by simpa [heq] using hhead.symm)⟩

theorem Target.Planned.draft_ne_ledger (h : t.Planned root) (root' : String) :
    d.locate (draftPath t.path) ≠ d.locate (ledgerPath root') := fun heq => by
  refine ledgerNames_not_draft.1 (h.isDraftName d ?_)
  rw [heq, locate_ledgerPath]
  rfl

end Places

theorem planned_of_generates {p : Project} {root : String} {files : List GeneratedFile} {moduleRoot : String} {ts : List Target}
    (hfiles : p.Generates files) (h : files.mapM (target root moduleRoot) = .ok ts) : ∀ t ∈ ts, t.Planned root := by
  obtain ⟨rfl, hunder⟩ := mapM_target_eq_ok h
  intro t ht
  obtain ⟨file, hmem, rfl⟩ := List.mem_map.mp ht
  exact ⟨hunder _ ht, ends_of_planned (mem_plan_of_mem hfiles hmem) moduleRoot⟩

end Scaffold.Output
