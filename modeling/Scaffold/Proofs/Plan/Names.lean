import Scaffold.Plan.Generate
import Scaffold.Proofs.Disk.Walk
import Scaffold.Proofs.Project.Loaded

/-! The names of planned files. Whatever module root a path is taken relative to, its last name is the file's own
    (`ends_relativePath`), which says whether the file may be kept (`name_of_planned`). Relative to the module root of
    the project itself the paths are known (`relativePath_plan`). -/

namespace Scaffold
open Disk Scaffold.Path

/-- Files that are generated for a project, from whatever templates. -/
def Project.Generates (p : Project) (files : List GeneratedFile) : Prop :=
  ∃ (σ : Type) (store : Template.Store (StateM σ)) (s s' : σ), p.generate store s = (.ok files, s')

theorem Project.planned_of_generateFiles {σ : Type} {p : Project} {store : Template.Store (StateM σ)} :
    ∀ {plan : List PlannedFile} {files : List GeneratedFile} {s s' : σ},
      p.generateFiles store plan s = (.ok files, s') → files.map (·.toPlannedFile) = plan
  | [], files, s, s', h => by
    cases h
    rfl
  | f :: plan, files, s, s', h => by
    unfold generateFiles at h
    rw [bind_run] at h
    cases hfirst : (Template.output store f.templateId (p.contextOf f.scope) s).1 with
    | error e =>
      rw [hfirst] at h
      cases h
    | ok content =>
      rw [hfirst] at h
      simp only [bind_run] at h
      cases hrest : p.generateFiles store plan (Template.output store f.templateId (p.contextOf f.scope) s).2 with
      | mk r s'' =>
        rw [hrest] at h
        cases r with
        | error e => cases h
        | ok rest =>
          cases h
          rw [List.map_cons, planned_of_generateFiles hrest]

theorem Project.Generates.planned {p : Project} {files : List GeneratedFile} (h : p.Generates files) :
    files.map (·.toPlannedFile) = p.plan := by
  obtain ⟨σ, store, s, s', h⟩ := h
  exact planned_of_generateFiles h

theorem mem_plan_of_mem {p : Project} {files : List GeneratedFile} (h : p.Generates files) {file : GeneratedFile}
    (hmem : file ∈ files) : file.toPlannedFile ∈ p.plan := by
  rw [← h.planned]
  exact List.mem_map_of_mem hmem

theorem Project.generateFiles_plain {content : String}
    (hplain : ∀ id ctx, Template.outputOf id content ctx = .ok content) (p : Project) : ∀ plan : List PlannedFile,
      p.generateFiles (m := StateM Unit) (fun _ => pure (.ok content)) plan () =
        (.ok (plan.map fun f => ⟨f, content⟩), ())
  | [] => rfl
  | f :: plan => by
    have hfirst : (Template.output (fun _ => pure (.ok content)) f.templateId (p.contextOf f.scope) :
        StateM Unit (Except Template.OutputError String)) () = (.ok content, ()) :=
      congrArg (·, ()) (hplain f.templateId (p.contextOf f.scope))
    unfold generateFiles
    simp only [bind_run, hfirst, generateFiles_plain hplain p plan, pure_run, List.map_cons]

/-- A text without markup that stands for every template is the content of every file. -/
theorem Project.generates_of_plain {content : String} (p : Project)
    (hplain : ∀ id ctx, Template.outputOf id content ctx = .ok content) :
    p.Generates (p.plan.map fun f => ⟨f, content⟩) :=
  ⟨Unit, _, (), (), generateFiles_plain hplain p p.plan⟩

/-- The files of the sample project, all with the same content. -/
def Project.sampleFiles (content : String) : List GeneratedFile := sample.plan.map fun f => ⟨f, content⟩

theorem Project.generates_sampleFiles : ∀ content ∈ ["", "x", "y", "x\r\r\ny"], sample.Generates (sampleFiles content) := by
  simp only [List.forall_mem_cons, List.not_mem_nil, false_implies, implies_true, and_true]
  refine ⟨generates_of_plain _ fun _ _ => ?_, generates_of_plain _ fun _ _ => ?_, generates_of_plain _ fun _ _ => ?_,
    generates_of_plain _ fun _ _ => ?_⟩
  all_goals with_unfolding_all rfl

/-! ### Relative paths -/

theorem relativePath_of_append {f : PlannedFile} {root rest : String} (h : f.outputPath = root ++ "/" ++ rest) :
    f.relativePath root = rest := by
  have htext : f.outputPath.toList = (root.toList ++ ['/']) ++ rest.toList := by rw [h]; simp
  unfold PlannedFile.relativePath
  rw [htext, Text.dropStart?_append]
  exact String.ofList_toList

theorem ends_relativePath {f : PlannedFile} {dir : List (List Char)} {base : List Char}
    (h : Ends f.outputPath.toList dir base) (root : String) :
    ∃ dir', Ends (f.relativePath root).toList dir' base ∧
      (dir' = dir ∨ (dir = parts root.toList ++ dir' ∧ f.outputPath.toList = root.toList ++ '/' :: (f.relativePath root).toList)) := by
  unfold PlannedFile.relativePath
  split
  · rename_i rest hrest
    have htext := Text.dropStart?_eq_some hrest
    rw [List.append_assoc, List.singleton_append] at htext
    obtain ⟨dir', hends, hdir⟩ := Ends.of_append_cons (htext ▸ h)
    exact ⟨dir', by simpa using hends, Or.inr ⟨hdir, by simpa using htext⟩⟩
  · exact ⟨dir, h, Or.inl rfl⟩

/-! ### Names -/

/-- The names of files that are planned, and whether they are kept. -/
def plannedNames : List (String × Bool) :=
  [("main.go", false), ("scheduler.go", false), ("config.go", true), ("doc.go", false), ("phases.go", false),
    ("register.go", false), ("spec.go", true), ("types.go", false), ("Dockerfile", false), ("user_setup", false),
    ("entrypoint", false), ("parameters.go", false), ("worker.go", true)]

theorem ends_of_append {root text name : String} (front : List Char) (htext : text.toList = front ++ '/' :: name.toList)
    (hslash : '/' ∉ name.toList) (hne : name.toList ≠ []) :
    Ends (root ++ text).toList (parts (root.toList ++ front)) name.toList :=
  ⟨hslash, hne, Or.inr ⟨_, by simp [htext], rfl⟩⟩

theorem name_of_planned {p : Project} {f : PlannedFile} (h : f ∈ p.plan) :
    ∃ dir name, Ends f.outputPath.toList dir name.toList ∧ (name, f.skipIfExists) ∈ plannedNames := by
  rcases List.mem_append.mp h with h | h
  · simp only [Project.projectFiles, List.mem_cons, List.not_mem_nil, or_false] at h
    rcases h with rfl | rfl | rfl | rfl | rfl | rfl | rfl | rfl | rfl | rfl | rfl
    · exact ⟨_, "main.go", ends_of_append [] rfl (by decide) (by decide), by simp [plannedNames]⟩
    · exact ⟨_, "scheduler.go", ends_of_append [] rfl (by decide) (by decide), by simp [plannedNames]⟩
    · exact ⟨_, "config.go", ends_of_append [] rfl (by decide) (by decide), by simp [plannedNames]⟩
    · exact ⟨_, "doc.go", ends_of_append [] rfl (by decide) (by decide), by simp [plannedNames]⟩
    · exact ⟨_, "phases.go", ends_of_append [] rfl (by decide) (by decide), by simp [plannedNames]⟩
    · exact ⟨_, "register.go", ends_of_append [] rfl (by decide) (by decide), by simp [plannedNames]⟩
    · exact ⟨_, "spec.go", ends_of_append [] rfl (by decide) (by decide), by simp [plannedNames]⟩
    · exact ⟨_, "types.go", ends_of_append [] rfl (by decide) (by decide), by simp [plannedNames]⟩
    · exact ⟨_, "Dockerfile", ends_of_append "/build".toList rfl (by decide) (by decide), by simp [plannedNames]⟩
    · exact ⟨_, "user_setup", ends_of_append "/build/bin".toList rfl (by decide) (by decide), by simp [plannedNames]⟩
    · exact ⟨_, "entrypoint", ends_of_append "/build/bin".toList rfl (by decide) (by decide), by simp [plannedNames]⟩
  · obtain ⟨phase, -, h⟩ := List.mem_flatMap.mp h
    unfold Project.phaseFiles at h
    split at h
    · rcases List.mem_cons.mp h with rfl | h
      · exact ⟨_, "parameters.go", ends_of_append [] rfl (by decide) (by decide), by simp [plannedNames]⟩
      · obtain rfl := List.mem_singleton.mp h
        exact ⟨_, "worker.go", ends_of_append [] rfl (by decide) (by decide), by simp [plannedNames]⟩
    · cases h

theorem notDots_of_mem_plannedNames {name : String} {kept : Bool} (h : (name, kept) ∈ plannedNames) :
    ¬IsDots name.toList := by
  have hall : ∀ entry ∈ plannedNames, ¬(entry.1.toList = ['.'] ∨ entry.1.toList = ['.', '.']) := by decide
  exact hall _ h

theorem ends_of_planned {p : Project} {f : PlannedFile} (h : f ∈ p.plan) (moduleRoot : String) :
    ∃ dir name, Ends (f.relativePath moduleRoot).toList dir name.toList ∧ (name, f.skipIfExists) ∈ plannedNames := by
  obtain ⟨dir, name, hends, hmem⟩ := name_of_planned h
  obtain ⟨dir', hends', -⟩ := ends_relativePath hends moduleRoot
  exact ⟨dir', name, hends', hmem⟩

/-! ### Paths in the module -/

/-- The paths of the files that every project has; the types are in the directory `inner` of the APIs. -/
def projectPaths (inner : String) : List String :=
  ["main.go", "pkg/scheduler/scheduler.go", "pkg/config/config.go", "pkg/apis/" ++ inner ++ "/doc.go",
    "pkg/apis/" ++ inner ++ "/phases.go", "pkg/apis/" ++ inner ++ "/register.go", "pkg/apis/" ++ inner ++ "/spec.go",
    "pkg/apis/" ++ inner ++ "/types.go", "build/Dockerfile", "build/bin/user_setup", "build/bin/entrypoint"]

/-- The paths of the files of a phase. -/
def phasePaths (phase : Phase) : List String :=
  if phase.generatesFiles then
    ["pkg/workers/" ++ phase.workerPackage ++ "/parameters.go", "pkg/workers/" ++ phase.workerPackage ++ "/worker.go"]
  else []

theorem outputPath_plan {p : Project} (h : p.Loaded) {inner : String}
    (htypes : p.typesImportPath = p.moduleRoot ++ "/pkg/apis/" ++ inner) :
    p.plan.map (·.outputPath) =
      (projectPaths inner ++ p.descriptor.phases.flatMap phasePaths).map (p.moduleRoot ++ "/" ++ ·) := by
  have inModule : ∀ {text rest : String}, text = "/" ++ rest → p.moduleRoot ++ text = p.moduleRoot ++ ("/" ++ rest) :=
    congrArg _
  unfold Project.plan
  rw [List.map_append, List.map_append, List.map_flatMap, List.map_flatMap]
  congr 1
  · simp only [Project.projectFiles, projectPaths, List.map_cons, List.map_nil, h.scheduler, h.config, htypes,
      String.append_assoc, List.cons.injEq, and_true]
    refine ⟨inModule ?_, inModule ?_, inModule ?_, inModule ?_, inModule ?_, inModule ?_, inModule ?_, inModule ?_,
      inModule ?_, inModule ?_, inModule ?_⟩
    all_goals rfl
  · congr 1
    funext phase
    unfold Project.phaseFiles phasePaths
    split
    · simp only [List.map_cons, List.map_nil, Project.workerImportPath, String.append_assoc,
        List.cons.injEq, and_true]
      refine ⟨inModule ?_, inModule ?_⟩
      all_goals rfl
    · rfl

theorem outputPath_eq_relativePath {p : Project} (h : p.Loaded) {f : PlannedFile} (hf : f ∈ p.plan) :
    f.outputPath = p.moduleRoot ++ "/" ++ f.relativePath p.moduleRoot := by
  obtain ⟨inner, htypes⟩ := h.types
  have hmem := List.mem_map_of_mem (f := PlannedFile.outputPath) hf
  rw [outputPath_plan h htypes] at hmem
  obtain ⟨rel, -, hrel⟩ := List.mem_map.mp hmem
  rw [relativePath_of_append hrel.symm, hrel]

theorem relativePath_plan_of_types {p : Project} (h : p.Loaded) {inner : String}
    (htypes : p.typesImportPath = p.moduleRoot ++ "/pkg/apis/" ++ inner) :
    p.plan.map (·.relativePath p.moduleRoot) = projectPaths inner ++ p.descriptor.phases.flatMap phasePaths := by
  have hpaths : (p.plan.map (·.relativePath p.moduleRoot)).map (p.moduleRoot ++ "/" ++ ·) =
      (projectPaths inner ++ p.descriptor.phases.flatMap phasePaths).map (p.moduleRoot ++ "/" ++ ·) := by
    rw [← outputPath_plan h htypes, List.map_map]
    exact List.map_congr_left fun f hf => (outputPath_eq_relativePath h hf).symm
  exact (List.map_inj_right fun _ _ heq => (String.append_right_inj _).mp heq).mp hpaths

theorem relativePath_plan {p : Project} (h : p.Loaded) : ∃ inner,
    p.plan.map (·.relativePath p.moduleRoot) = projectPaths inner ++ p.descriptor.phases.flatMap phasePaths :=
  h.types.imp fun _ htypes => relativePath_plan_of_types h htypes

/-! ### Different files -/

/-- The name at the end of a planned path. -/
def nameOf (f : PlannedFile) : String := String.ofList ((parts f.outputPath.toList).getLast?.getD [])

theorem nameOf_of_ends {f : PlannedFile} {dir : List (List Char)} {name : String}
    (h : Ends f.outputPath.toList dir name.toList) : nameOf f = name := by
  simp [nameOf, h.parts_eq]

theorem nameOf_append {f : PlannedFile} {root text : String} (name : String) (front : List Char)
    (hpath : f.outputPath = root ++ text) (htext : text.toList = front ++ '/' :: name.toList) (hslash : '/' ∉ name.toList)
    (hne : name.toList ≠ []) : nameOf f = name :=
  nameOf_of_ends (hpath ▸ ends_of_append front htext hslash hne)

theorem projectFiles_names (p : Project) : p.projectFiles.map nameOf =
    ["main.go", "scheduler.go", "config.go", "doc.go", "phases.go", "register.go", "spec.go", "types.go", "Dockerfile",
      "user_setup", "entrypoint"] := by
  simp only [Project.projectFiles, List.map_cons, List.map_nil, List.cons.injEq, and_true]
  refine ⟨nameOf_append _ [] rfl ?_ ?_ ?_, nameOf_append _ [] rfl ?_ ?_ ?_, nameOf_append _ [] rfl ?_ ?_ ?_,
    nameOf_append _ [] rfl ?_ ?_ ?_, nameOf_append _ [] rfl ?_ ?_ ?_, nameOf_append _ [] rfl ?_ ?_ ?_,
    nameOf_append _ [] rfl ?_ ?_ ?_, nameOf_append _ [] rfl ?_ ?_ ?_, nameOf_append _ "/build".toList rfl ?_ ?_ ?_,
    nameOf_append _ "/build/bin".toList rfl ?_ ?_ ?_, nameOf_append _ "/build/bin".toList rfl ?_ ?_ ?_⟩
  all_goals decide

theorem phaseFiles_names (p : Project) (phase : Phase) : (p.phaseFiles phase).map nameOf =
    if phase.generatesFiles then ["parameters.go", "worker.go"] else [] := by
  unfold Project.phaseFiles
  split
  · simp only [List.map_cons, List.map_nil, List.cons.injEq, and_true]
    refine ⟨nameOf_append _ [] rfl ?_ ?_ ?_, nameOf_append _ [] rfl ?_ ?_ ?_⟩
    all_goals decide
  · rfl

/-- The names in the path of a planned file. -/
def namesTo (f : PlannedFile) (moduleRoot : String) : List String := namesIn (parts (f.relativePath moduleRoot).toList)

theorem getLast?_namesTo {p : Project} {f : PlannedFile} (h : f ∈ p.plan) (moduleRoot : String) :
    (namesTo f moduleRoot).getLast? = some (nameOf f) := by
  obtain ⟨dir, name, hends, hmem⟩ := name_of_planned h
  obtain ⟨dir', hends', -⟩ := ends_relativePath hends moduleRoot
  rw [namesTo, hends'.parts_eq, namesIn_append, namesIn_name (notDots_of_mem_plannedNames hmem), nameOf_of_ends hends]
  simp

/-- A name that may stand between slashes. -/
def IsName (piece : List Char) : Prop := '/' ∉ piece ∧ piece ≠ [] ∧ ¬IsDots piece

/-- The path of a file in the directory `dir/package` has the name of the package before that of the file, unless it is
    taken relative to that directory. -/
theorem namesTo_of_package {f : PlannedFile} {dir package name : String} (hpath : f.outputPath = dir ++ "/" ++ package ++ "/" ++ name)
    (hpackage : IsName package.toList)
    (hname : IsName name.toList) (moduleRoot : String) :
    (∃ front, namesTo f moduleRoot = front ++ [package, name]) ∨
      (namesTo f moduleRoot = [name] ∧ moduleRoot = dir ++ "/" ++ package) := by
  have htext : f.outputPath.toList = (dir.toList ++ '/' :: package.toList) ++ '/' :: name.toList := by simp [hpath]
  have hpiece : parts name.toList = [name.toList] := parts_of_notMem hname.1 hname.2.1
  have hinner : ∀ around, namesIn (parts (around ++ '/' :: name.toList)) = namesIn (parts around) ++ [name] := fun around => by
    rw [parts_append_cons, hpiece, namesIn_append, namesIn_name hname.2.2, String.ofList_toList]
  have hdir : Ends (dir.toList ++ '/' :: package.toList) (parts dir.toList) package.toList :=
    ⟨hpackage.1, hpackage.2.1, Or.inr ⟨_, rfl, rfl⟩⟩
  unfold namesTo PlannedFile.relativePath
  split
  · rename_i rest hrest
    have hcut : moduleRoot.toList ++ '/' :: rest = (dir.toList ++ '/' :: package.toList) ++ '/' :: name.toList := by
      simpa using (Text.dropStart?_eq_some hrest).symm.trans htext
    rw [String.toList_ofList]
    rcases cut_before_name hname.1 hcut with ⟨hroot, rfl⟩ | ⟨mid, haround, rfl⟩
    · right
      refine ⟨?_, ?_⟩
      · rw [hpiece, namesIn_name hname.2.2, String.ofList_toList]
      · rw [← String.toList_inj, hroot]
        simp
    · left
      obtain ⟨inner, hends, -⟩ := Ends.of_append_cons (haround ▸ hdir)
      refine ⟨namesIn inner, ?_⟩
      rw [hinner, hends.parts_eq, namesIn_append, namesIn_name hpackage.2.2, String.ofList_toList]
      simp
  · left
    refine ⟨namesIn (parts dir.toList), ?_⟩
    rw [htext, hinner, hdir.parts_eq, namesIn_append, namesIn_name hpackage.2.2, String.ofList_toList]
    simp

theorem namesTo_ne_of_package {f g : PlannedFile} {dir package package' name name' : String}
    (hf : f.outputPath = dir ++ "/" ++ package ++ "/" ++ name) (hg : g.outputPath = dir ++ "/" ++ package' ++ "/" ++ name')
    (hpackage : IsName package.toList)
    (hpackage' : IsName package'.toList)
    (hname : IsName name.toList)
    (hname' : IsName name'.toList)
    (hne : package ≠ package') (moduleRoot : String) : namesTo f moduleRoot ≠ namesTo g moduleRoot := by
  rcases namesTo_of_package hf hpackage hname moduleRoot with ⟨front, hfront⟩ | ⟨hsingle, hroot⟩ <;>
  rcases namesTo_of_package hg hpackage' hname' moduleRoot with ⟨front', hfront'⟩ | ⟨hsingle', hroot'⟩
  · rw [hfront, hfront']
    intro heq
    exact hne (List.cons.inj (List.append_inj_right' heq rfl)).1
  · rw [hfront, hsingle']
    intro heq
    simpa using congrArg List.length heq
  · rw [hsingle, hfront']
    intro heq
    simpa using congrArg List.length heq
  · rw [hroot] at hroot'
    refine absurd ?_ hne
    rw [← String.toList_inj] at hroot' ⊢
    simpa using hroot'

theorem isName_package {phase : Phase} (h : isIdentifier phase.workerPackage.toList = true) :
    IsName phase.workerPackage.toList := by
  obtain ⟨hne, hslash, hdot⟩ := ne_of_isIdentifier h
  refine ⟨hslash, hne, ?_⟩
  rintro (heq | heq) <;> rw [heq] at hdot <;> simp at hdot

theorem name_of_mem_phaseFiles {p : Project} {phase : Phase} {f : PlannedFile} (h : f ∈ p.phaseFiles phase) :
    nameOf f = "parameters.go" ∨ nameOf f = "worker.go" := by
  have hmem := List.mem_map_of_mem (f := nameOf) h
  rw [phaseFiles_names] at hmem
  split at hmem
  · simpa using hmem
  · cases hmem

theorem path_of_mem_phaseFiles {p : Project} {phase : Phase} {f : PlannedFile} (h : f ∈ p.phaseFiles phase) :
    f.outputPath = p.moduleRoot ++ "/pkg/workers" ++ "/" ++ phase.workerPackage ++ "/" ++ nameOf f := by
  have hends : ∃ text, f.outputPath = p.workerImportPath phase ++ text ∧ text = "/" ++ nameOf f := by
    unfold Project.phaseFiles at h
    split at h
    · rcases List.mem_cons.mp h with rfl | h
      · exact ⟨"/parameters.go", rfl, by rw [nameOf_append "parameters.go" [] rfl (by decide) (by decide) (by decide)]; rfl⟩
      · obtain rfl := List.mem_singleton.mp h
        exact ⟨"/worker.go", rfl, by rw [nameOf_append "worker.go" [] rfl (by decide) (by decide) (by decide)]; rfl⟩
    · cases h
  obtain ⟨text, hpath, htext⟩ := hends
  rw [hpath, htext, Project.workerImportPath, ← String.toList_inj]
  simp

theorem namesTo_pairwise {p : Project} (h : p.Loaded) (moduleRoot : String) :
    p.plan.Pairwise fun f g => namesTo f moduleRoot ≠ namesTo g moduleRoot := by
  have ofNames : ∀ {f g}, f ∈ p.plan → g ∈ p.plan → nameOf f ≠ nameOf g → namesTo f moduleRoot ≠ namesTo g moduleRoot :=
    fun hf hg hne heq => hne (Option.some.inj (by
      rw [← getLast?_namesTo hf moduleRoot, ← getLast?_namesTo hg moduleRoot, heq]))
  have ofPhase : ∀ {phase f}, phase ∈ p.descriptor.phases → f ∈ p.phaseFiles phase → f ∈ p.plan := fun hphase hf =>
    List.mem_append_right _ (List.mem_flatMap.mpr ⟨_, hphase, hf⟩)
  have hname : ∀ {phase f}, f ∈ p.phaseFiles phase → IsName (nameOf f).toList := fun hf => by
    rcases name_of_mem_phaseFiles hf with heq | heq <;> rw [heq] <;> unfold IsName IsDots <;> decide
  refine List.pairwise_append.mpr ⟨?_, List.pairwise_flatMap.mpr ⟨fun phase hphase => ?_, ?_⟩, fun f hf g hg => ?_⟩
  · have hnames : (p.projectFiles.map nameOf).Pairwise (· ≠ ·) := by
      rw [projectFiles_names]
      decide
    exact (List.pairwise_map.mp hnames).imp_of_mem fun hf hg =>
      ofNames (List.mem_append_left _ hf) (List.mem_append_left _ hg)
  · have hnames : ((p.phaseFiles phase).map nameOf).Pairwise (· ≠ ·) := by
      rw [phaseFiles_names]
      split <;> decide
    exact (List.pairwise_map.mp hnames).imp_of_mem fun hf hg =>
      ofNames (ofPhase hphase hf) (ofPhase hphase hg)
  · refine h.packaged.distinct.imp_of_mem fun ha hb hne f hf g hg => ?_
    exact namesTo_ne_of_package (path_of_mem_phaseFiles hf) (path_of_mem_phaseFiles hg) (isName_package (h.packaged.identifiers _ ha))
      (isName_package (h.packaged.identifiers _ hb)) (hname hf) (hname hg) hne moduleRoot
  · obtain ⟨phase, hphase, hg⟩ := List.mem_flatMap.mp hg
    refine ofNames (List.mem_append_left _ hf) (ofPhase hphase hg) ?_
    have hproject := List.mem_map_of_mem (f := nameOf) hf
    rw [projectFiles_names] at hproject
    have hother : ∀ name ∈ ["main.go", "scheduler.go", "config.go", "doc.go", "phases.go", "register.go", "spec.go",
        "types.go", "Dockerfile", "user_setup", "entrypoint"], name ≠ "parameters.go" ∧ name ≠ "worker.go" := by decide
    rcases name_of_mem_phaseFiles hg with heq | heq <;> rw [heq]
    · exact (hother _ hproject).1
    · exact (hother _ hproject).2

end Scaffold
