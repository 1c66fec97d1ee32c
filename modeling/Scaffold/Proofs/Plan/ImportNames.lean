import Scaffold.Proofs.Plan.Packages

/-! The names that the imports of the scheduler bind (`Project.scheduler_binds`). Loading keeps the worker packages apart
    from each other, but beside the workers the scheduler imports five packages, one of them under the version as its
    name. So all names are different exactly if the version is none of the other four names and no phase with planned
    files has one of the five as its worker package. -/

namespace Scaffold
open Template Form

/-! ### Imports -/

/-- An import of a Go file. -/
structure GoImport where
  alias? : Option String
  path : String

namespace GoImport

/-- The line of an import. -/
def line (i : GoImport) : String :=
  match i.alias? with
  | none => "\t\"" ++ i.path ++ "\""
  | some name => "\t" ++ name ++ " \"" ++ i.path ++ "\""

/-- The name that an import binds: the one it is given, or else that of the package in the directory. -/
def name (i : GoImport) : String := i.alias?.getD (packageOf i.path)

end GoImport

section
variable (p : Project)

/-- The phases with planned files. -/
def Project.workingPhases : List Phase := p.descriptor.phases.filter (p.filesOf · ≠ [])

/-- The imports of the scheduler. -/
def Project.schedulerImports : List GoImport :=
  [⟨none, "context"⟩, ⟨none, "fmt"⟩, ⟨none, "time"⟩, ⟨none, p.configImportPath⟩,
    ⟨some p.version, p.typesImportPath⟩] ++ p.workingPhases.map fun phase => ⟨none, p.workerImportPath phase⟩

/-- The names that every scheduler binds, but for the version. -/
def fixedNames : List String := ["context", "fmt", "time", "config"]

end

/-- What the imports of the scheduler bind. -/
structure Project.SchedulerBinds (p : Project) (files : List GeneratedFile) : Prop where
  file : ∃ f ∈ files, f.outputPath = p.schedulerImportPath ++ "/scheduler.go" ∧
    f.content = "\n".intercalate p.schedulerLines
  /-- the imports, apart from an empty line between them -/
  lines : (linesBetween "import (" ")" p.schedulerLines).filter (· ≠ "") = p.schedulerImports.map GoImport.line
  names : p.schedulerImports.map GoImport.name =
    fixedNames ++ p.version :: p.workingPhases.map (·.workerPackage)
  /-- the packages of the module have these names, as their files say -/
  clauses : ∀ f ∈ files, f.isGo = true → f.directory ∈ p.configImportPath :: p.workingPhases.map p.workerImportPath →
    packageClause? (p.linesOf f.toPlannedFile) = some ("package " ++ packageOf f.directory)
  workers : (p.workingPhases.map (·.workerPackage)).Nodup
  distinct : (p.schedulerImports.map GoImport.name).Nodup ↔ p.version ∉ fixedNames ∧
    ∀ phase ∈ p.descriptor.phases, p.filesOf phase ≠ [] →
      phase.workerPackage ∉ fixedNames ∧ phase.workerPackage ≠ p.version

section
variable {p : Project}

theorem mem_workingPhases {phase : Phase} :
    phase ∈ p.workingPhases ↔ phase ∈ p.descriptor.phases ∧ p.filesOf phase ≠ [] := by
  rw [Project.workingPhases, List.mem_filter, decide_eq_true_iff]

theorem workerPackage_nodup (h : Descriptor.Packaged p.descriptor.phases) :
    (p.workingPhases.map (·.workerPackage)).Nodup :=
  (List.pairwise_map.mpr h.distinct).sublist (List.filter_sublist.map _)

theorem schedulerImports_lines (h : Descriptor.Packaged p.descriptor.phases) :
    (linesBetween "import (" ")" p.schedulerLines).filter (· ≠ "") = p.schedulerImports.map GoImport.line := by
  have hfixed : p.fixedImports.filter (· ≠ "") =
      ["\t\"context\"", "\t\"fmt\"", "\t\"time\"", "\t\"" ++ p.configImportPath ++ "\"",
        "\t" ++ p.version ++ " \"" ++ p.typesImportPath ++ "\""] := by
    simp (disch := decide) [Project.fixedImports, append_ne_of_headsDiffer, String.append_assoc]
  have hworkers : (p.workingPhases.map p.workerImport).filter (· ≠ "") = p.workingPhases.map p.workerImport := by
    rw [List.filter_eq_self, List.forall_mem_map]
    simp (disch := decide) [Project.workerImport, append_ne_of_headsDiffer, String.append_assoc]
  rw [imports_of_packaged h, List.filter_append, hfixed, ← Project.workingPhases, hworkers, Project.schedulerImports,
    List.map_append, List.map_map]
  rfl

theorem packageOf_configImportPath (h : p.Loaded) : packageOf p.configImportPath = "config" := by
  have hpath : p.configImportPath = p.moduleRoot ++ "/pkg" ++ "/" ++ "config" := by
    rw [h.config, ← String.toList_inj]
    simp
  rw [hpath, packageOf_append _ (by decide)]

theorem packageOf_workerImportPath (h : p.Loaded) {phase : Phase} (hphase : phase ∈ p.descriptor.phases) :
    packageOf (p.workerImportPath phase) = phase.workerPackage := by
  have hpath : p.workerImportPath phase = p.moduleRoot ++ "/pkg/workers" ++ "/" ++ phase.workerPackage := by
    rw [Project.workerImportPath, ← String.toList_inj]
    simp
  rw [hpath, packageOf_append _ (ne_of_isIdentifier (h.packaged.identifiers phase hphase)).2.1]

theorem schedulerImports_names (h : p.Loaded) : p.schedulerImports.map GoImport.name =
    fixedNames ++ p.version :: p.workingPhases.map (·.workerPackage) := by
  have hlibraries : packageOf "context" = "context" ∧ packageOf "fmt" = "fmt" ∧ packageOf "time" = "time" := by decide
  have hworkers : (p.workingPhases.map fun phase => (⟨none, p.workerImportPath phase⟩ : GoImport)).map GoImport.name =
      p.workingPhases.map (·.workerPackage) := by
    rw [List.map_map]
    exact List.map_congr_left fun phase hphase => packageOf_workerImportPath h (mem_workingPhases.mp hphase).1
  rw [Project.schedulerImports, List.map_append, hworkers]
  simp [GoImport.name, hlibraries, packageOf_configImportPath h, fixedNames]

theorem clause_of_imported (h : p.Loaded) (htyped : p.Typed) {f : PlannedFile} (hf : f ∈ p.plan) (hgo : f.isGo = true)
    (hdirectory : f.directory ∈ p.configImportPath :: p.workingPhases.map p.workerImportPath) :
    packageClause? (p.linesOf f) = some ("package " ++ packageOf f.directory) := by
  -- only `main.go` has another package than its directory says, and it lies above what is imported
  have hbelow : ∃ rest, f.directory = p.moduleRoot ++ "/pkg" ++ rest := by
    rcases List.mem_cons.mp hdirectory with heq | hmem
    · exact ⟨"/config", by rw [heq, h.config, ← String.toList_inj]; simp⟩
    · obtain ⟨phase, -, heq⟩ := List.mem_map.mp hmem
      exact ⟨"/workers/" ++ phase.workerPackage, by rw [← heq, Project.workerImportPath, ← String.toList_inj]; simp⟩
  have hmain : f.outputPath ≠ p.moduleRoot ++ "/main.go" := by
    intro hpath
    obtain ⟨rest, hbelow⟩ := hbelow
    have hparts : f.outputPath = p.moduleRoot ++ "/" ++ "main.go" := by
      rw [hpath, ← String.toList_inj]
      simp
    have hroot : f.directory = p.moduleRoot := directory_of_append hparts (by decide)
    have hlength := congrArg String.length (hroot.symm.trans hbelow)
    rw [String.length_append, String.length_append, show "/pkg".length = 4 from rfl] at hlength
    omega
  rw [(goFits_plan h htyped f hf hgo).clause, if_neg hmain]

theorem names_nodup_iff {version : String} {packages : List String} (hpackages : packages.Nodup) :
    (fixedNames ++ version :: packages).Nodup ↔ version ∉ fixedNames ∧
      ∀ package ∈ packages, package ∉ fixedNames ∧ package ≠ version := by
  rw [List.nodup_append, List.nodup_cons]
  have hfixed : fixedNames.Nodup := by decide
  grind

end

/-- **The names that the scheduler's imports bind**: for every loaded project these are four fixed names, the version and
    the worker packages of the phases with planned files, and they are different exactly if the version is not a fixed
    name and none of these packages is a fixed name or the version. -/
theorem Project.scheduler_binds {bytes : ByteArray} {root : Except RootError String} {p : Project}
    (h : load bytes root = .ok p) : ∃ files, (∀ (m : Type → Type) [Monad m] [LawfulMonad m],
      p.generate (Store.shipped : Store m) = pure (.ok files)) ∧ p.SchedulerBinds files := by
  have hloaded := loaded_of_load h
  have hpackaged := hloaded.packaged
  refine ⟨_, generate_eq_lines h, ?_⟩
  refine ⟨schedulerFile_mem p, schedulerImports_lines hpackaged, schedulerImports_names hloaded, ?_,
    workerPackage_nodup hpackaged, ?_⟩
  · intro f hf
    obtain ⟨planned, hplanned, rfl⟩ := List.mem_map.mp hf
    exact clause_of_imported hloaded (typed_of_load h) hplanned
  · rw [schedulerImports_names hloaded, names_nodup_iff (workerPackage_nodup hpackaged), List.forall_mem_map]
    simp only [mem_workingPhases, and_imp]

/-- A project with a phase whose worker package is also a library of the scheduler. -/
def Project.timed : Project where
  descriptor := ⟨"a/v1", "K", none, [⟨"time", none, ["x"], []⟩]⟩
  moduleRoot := "m"
  group := "a"
  version := "v1"
  typesImportPath := "m/pkg/apis/ks/v1"
  schedulerImportPath := "m/pkg/scheduler"
  configImportPath := "m/pkg/config"
  kindLowerCamel := "k"
  operatorName := "m"

/-- A phase called `time` gives the scheduler two imports with this name; without phases all names are different. -/
theorem Project.scheduler_binds_timed :
    load (Text.encode "apiVersion: a/v1\nkind: K\nphases:\n- name: time\n  inputs: [x]\n") (.ok "m") = .ok timed ∧
    (∃ files, timed.SchedulerBinds files) ∧
    (linesBetween "import (" ")" timed.schedulerLines).filter (· ≠ "") = ["\t\"context\"", "\t\"fmt\"", "\t\"time\"",
      "\t\"m/pkg/config\"", "\tv1 \"m/pkg/apis/ks/v1\"", "\t\"m/pkg/workers/time\""] ∧
    ¬(timed.schedulerImports.map GoImport.name).Nodup ∧ (sample.schedulerImports.map GoImport.name).Nodup := by
  have hload : load (Text.encode "apiVersion: a/v1\nkind: K\nphases:\n- name: time\n  inputs: [x]\n") (.ok "m") =
      .ok timed := eq_ok_of_toOption (by decide +kernel)
  obtain ⟨files, -, hbinds⟩ := scheduler_binds hload
  obtain ⟨_, -, hsample⟩ := scheduler_binds load_sample
  refine ⟨hload, ⟨files, hbinds⟩, ?_, fun hdistinct => ?_, ?_⟩
  · rw [hbinds.lines]
    decide +kernel
  · have hphase := (hbinds.distinct.mp hdistinct).2 ⟨"time", none, ["x"], []⟩ (by decide) (by decide +kernel)
    exact hphase.1 (by decide +kernel)
  · exact hsample.distinct.mpr ⟨by decide, by simp [sample]⟩

end Scaffold
