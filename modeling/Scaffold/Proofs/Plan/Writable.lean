import Scaffold.Proofs.Descriptor.Violation
import Scaffold.Proofs.Naming.Plural
import Scaffold.Proofs.Output.Confined
import Scaffold.Proofs.Output.Interrupted

/-! Plans as sets of files that can be written. The components of every path in a plan are known
    (`components_plan`): the plural of the kind is one name, whatever the kind is, and so is the version, except that
    `.` is no component and `..` climbs. With that, the paths are in the module, part from each other, and stay away
    from the ledger and from drafts; only a version `..` has them refused. -/

namespace Scaffold
open Disk Scaffold.Path Scaffold.Output Naming Text

/-! ### Names that are computed -/

/-- The name of the directory of the types: the plural of the kind in lower case. -/
def Project.pluralKind (p : Project) : String := String.ofList (lowercase (pluralize p.descriptor.kind).toList)

/-- What is known of the directory of the types. -/
structure Project.Typed (p : Project) : Prop where
  path : p.typesImportPath = p.moduleRoot ++ "/pkg/apis/" ++ (p.pluralKind ++ "/" ++ p.version)
  plural : IsWord p.pluralKind.toList
  version : p.version.toList ≠ [] ∧ '/' ∉ p.version.toList

theorem isWord_of_identifier {s : String} (h : Identifier s) : IsWord s.toList := by
  obtain ⟨c, rest, heq, hc, hrest⟩ := h
  rw [heq]
  exact ⟨by simp, List.forall_mem_cons.mpr ⟨isAlphanum_iff.mpr (.inl hc), fun x hx => isAlphanum_iff.mpr (hrest x hx)⟩⟩

theorem Naming.IsWord.isName {s : List Char} (h : IsWord s) : IsName s :=
  ⟨fun hmem => absurd (h.2 _ hmem) (by decide), h.1, by
    rintro (rfl | rfl) <;> exact absurd (h.2 '.' (by simp)) (by decide)⟩

theorem Project.typed_of_derive {d : Descriptor} {root : String} {p : Project} (h : derive d root = .ok p)
    (hkind : Identifier d.kind) : p.Typed := by
  have hderived := derived_of_derive h
  obtain ⟨-, -, hversion, -, hslash⟩ := splitApiVersion?_eq_some hderived.parts
  refine ⟨?_, ?_, hversion, hslash⟩
  · rw [hderived.types, pluralKind, hderived.descriptor]
    simp only [String.append_assoc]
  · rw [pluralKind, hderived.descriptor]
    simpa [pluralize] using (isWord_pluralChars (isWord_of_identifier hkind)).lowercase

theorem Project.typed_of_load {bytes : ByteArray} {root : Except RootError String} {p : Project}
    (h : load bytes root = .ok p) : p.Typed := by
  obtain ⟨d, moduleRoot, hvalidate, hderive⟩ := derived_of_load h
  exact typed_of_derive hderive (Descriptor.identifier_of_validate hvalidate)

/-! ### Components of planned paths -/

/-- A name that is written out. -/
abbrev named (s : String) : Component := .name s.toList

/-- The components of the directory of the types. The version `.` is none, and the version `..` is no name. -/
def typesComponents (plural version : String) : List Component :=
  named "pkg" :: named "apis" :: named plural :: (component? false version.toList).toList

/-- The components of the files that every project has. -/
def projectComponents (types : List Component) : List (List Component) :=
  [[named "main.go"], [named "pkg", named "scheduler", named "scheduler.go"],
    [named "pkg", named "config", named "config.go"], types ++ [named "doc.go"], types ++ [named "phases.go"],
    types ++ [named "register.go"], types ++ [named "spec.go"], types ++ [named "types.go"],
    [named "build", named "Dockerfile"], [named "build", named "bin", named "user_setup"],
    [named "build", named "bin", named "entrypoint"]]

/-- The components of the files of a phase. -/
def phaseComponents (package : String) : List (List Component) :=
  [[named "pkg", named "workers", named package, named "parameters.go"],
    [named "pkg", named "workers", named package, named "worker.go"]]

theorem component?_of_isName {first : Bool} {piece : List Char} (h : IsName piece) :
    component? first piece = some (.name piece) := component?_of_name h.2.1 h.2.2

theorem components_of_file (front : String) (inner : List Char) {name text : String} (hfront : front ≠ "")
    (htext : text.toList = front.toList ++ '/' :: (inner ++ '/' :: name.toList)) (hname : IsName name.toList) :
    components text = components front ++ (splitOn '/' inner).filterMap (component? false) ++ [named name] := by
  rw [components_of_cut htext hfront, splitOn_append_cons, splitOn_of_notMem hname.1, List.filterMap_append]
  simp [component?_of_isName hname]

theorem projectPaths_components {plural version : String} (hplural : IsName plural.toList)
    (hversion : '/' ∉ version.toList) :
    (projectPaths (plural ++ "/" ++ version)).map components = projectComponents (typesComponents plural version) := by
  have hinner : (splitOn '/' (plural.toList ++ '/' :: version.toList)).filterMap (component? false) =
      named plural :: (component? false version.toList).toList := by
    rw [splitOn_append_cons, splitOn_of_notMem hplural.1, splitOn_of_notMem hversion, List.filterMap_append,
      List.filterMap_cons_some (component?_of_isName hplural)]
    cases hc : component? false version.toList <;> simp [hc]
  have htypes : ∀ {text name : String}, text = "/" ++ name → IsName name.toList →
      components ("pkg/apis/" ++ (plural ++ "/" ++ version) ++ text) = typesComponents plural version ++ [named name] := by
    intro text name htext hname
    rw [components_of_file "pkg/apis" (plural.toList ++ '/' :: version.toList) (by decide)
      (by simp [htext]) hname, hinner]
    rfl
  simp only [projectPaths, projectComponents, List.map_cons, List.map_nil, List.cons.injEq, and_true]
  refine ⟨rfl, rfl, rfl, htypes rfl ?_, htypes rfl ?_, htypes rfl ?_, htypes rfl ?_, htypes rfl ?_, rfl, rfl, rfl⟩
  all_goals
    unfold IsName IsDots
    decide

theorem phasePaths_components {phase : Phase} (h : isIdentifier phase.workerPackage.toList = true) :
    (phasePaths phase).map components = if phase.generatesFiles then phaseComponents phase.workerPackage else [] := by
  have hpackage := isName_package h
  have hfile : ∀ {text name : String}, text = "/" ++ name → IsName name.toList →
      components ("pkg/workers/" ++ phase.workerPackage ++ text) =
        [named "pkg", named "workers", named phase.workerPackage, named name] := by
    intro text name htext hname
    rw [components_of_file "pkg/workers" phase.workerPackage.toList (by decide)
      (by simp [htext]) hname, splitOn_of_notMem hpackage.1, List.filterMap_cons_some (component?_of_isName hpackage)]
    rfl
  unfold phasePaths
  split
  · simp only [phaseComponents, List.map_cons, List.map_nil, List.cons.injEq, and_true]
    refine ⟨hfile rfl ?_, hfile rfl ?_⟩
    all_goals
      unfold IsName IsDots
      decide
  · rfl

theorem phases_components : ∀ {phases : List Phase}, (∀ phase ∈ phases, isIdentifier phase.workerPackage.toList = true) →
    (phases.flatMap phasePaths).map components = (packagesOf phases).flatMap phaseComponents
  | [], _ => rfl
  | phase :: rest, h => by
    obtain ⟨hfirst, hrest⟩ := List.forall_mem_cons.mp h
    rw [List.flatMap_cons, List.map_append, phasePaths_components hfirst, phases_components hrest]
    by_cases hfiles : phase.generatesFiles <;> simp [packagesOf, hfiles]

section Plan
variable {p : Project}

theorem components_plan (h : p.Loaded) (htyped : p.Typed) :
    (p.plan.map fun f => components (f.relativePath p.moduleRoot)) =
      projectComponents (typesComponents p.pluralKind p.version) ++
        (packagesOf p.descriptor.phases).flatMap phaseComponents := by
  have hpaths := congrArg (List.map components) (relativePath_plan_of_types h htyped.path)
  rw [List.map_map, List.map_append, projectPaths_components htyped.plural.isName htyped.version.2,
    phases_components h.packaged.identifiers] at hpaths
  exact hpaths

/-- What holds of the components of each file that every project has and of each file of a phase holds of those of
    each planned file. -/
theorem forall_components (h : p.Loaded) (htyped : p.Typed) {P : List Component → Prop}
    (hproject : ∀ cs ∈ projectComponents (typesComponents p.pluralKind p.version), P cs)
    (hphase : ∀ package, ∀ cs ∈ phaseComponents package, P cs) :
    ∀ f ∈ p.plan, P (components (f.relativePath p.moduleRoot)) := by
  intro f hf
  have hmem := List.mem_map_of_mem (f := fun f => components (f.relativePath p.moduleRoot)) hf
  rw [components_plan h htyped] at hmem
  rcases List.mem_append.mp hmem with hmem | hmem
  · exact hproject _ hmem
  · obtain ⟨package, -, hmem⟩ := List.mem_flatMap.mp hmem
    exact hphase package _ hmem

/-! ### Files apart -/

theorem projectComponents_pairwise (plural version : String) :
    (projectComponents (typesComponents plural version)).Pairwise Diverge := by
  simp [projectComponents, typesComponents, diverge_cons, diverge_append]

theorem phaseComponents_pairwise (package : String) : (phaseComponents package).Pairwise Diverge := by
  simp [phaseComponents, diverge_cons]

theorem phaseComponents_apart {package package' : String} (hne : package ≠ package') :
    ∀ cs ∈ phaseComponents package, ∀ ds ∈ phaseComponents package', Diverge cs ds := by
  simp [phaseComponents, diverge_cons, String.toList_inj, hne]

theorem projectComponents_apart_phaseComponents (plural version package : String) :
    ∀ cs ∈ projectComponents (typesComponents plural version), ∀ ds ∈ phaseComponents package, Diverge cs ds := by
  simp [projectComponents, typesComponents, phaseComponents, diverge_cons]

theorem diverge_plan (h : p.Loaded) (htyped : p.Typed) :
    p.plan.Pairwise fun f g =>
      Diverge (components (f.relativePath p.moduleRoot)) (components (g.relativePath p.moduleRoot)) := by
  have hall : (p.plan.map fun f => components (f.relativePath p.moduleRoot)).Pairwise Diverge := by
    rw [components_plan h htyped]
    refine List.pairwise_append.mpr ⟨projectComponents_pairwise .., List.pairwise_flatMap.mpr
      ⟨fun package _ => phaseComponents_pairwise package, (packages_pairwise h).imp phaseComponents_apart⟩,
      fun cs hcs ds hds => ?_⟩
    obtain ⟨package, -, hds⟩ := List.mem_flatMap.mp hds
    exact projectComponents_apart_phaseComponents _ _ _ cs hcs ds hds
  exact List.pairwise_map.mp hall

theorem not_ledger_plan (h : p.Loaded) (htyped : p.Typed) :
    ∀ f ∈ p.plan, ¬[named ".pilot"] <+: components (f.relativePath p.moduleRoot) := by
  refine forall_components h htyped (P := fun cs => ¬[named ".pilot"] <+: cs) ?_ ?_
  · simp [projectComponents, typesComponents]
  · simp [phaseComponents]

theorem not_draft_plan {f : PlannedFile} (hf : f ∈ p.plan) (moduleRoot : String) :
    ∃ front name, components (f.relativePath moduleRoot) = front ++ [.name name] ∧ ¬".pilot.tmp".toList <:+ name := by
  obtain ⟨dir, name, hends, hname⟩ := ends_of_planned hf moduleRoot
  obtain ⟨front, hfront⟩ := components_of_ends hends (notDots_of_mem_plannedNames hname)
  exact ⟨front, name.toList, hfront, plannedNames_not_draft _ hname⟩

/-! ### Files that are accepted -/

theorem allNames_plan (h : p.Loaded) (htyped : p.Typed) (hversion : p.version ≠ "..") :
    ∀ f ∈ p.plan, Path.allNames (components (f.relativePath p.moduleRoot)) = true := by
  have htypes : Path.allNames (component? false p.version.toList).toList = true := by
    have hup : p.version.toList ≠ ['.', '.'] := fun heq => hversion (String.toList_inj.mp heq)
    by_cases hhere : p.version.toList = ['.']
    · rw [hhere]
      decide
    · rw [component?_of_name htyped.version.1 (not_or.mpr ⟨hhere, hup⟩)]
      rfl
  refine forall_components h htyped (P := (Path.allNames · = true)) ?_ ?_
  · simp [projectComponents, typesComponents, allNames_append, htypes]
  · simp [phaseComponents]

theorem location_plan (h : p.Loaded) (htyped : p.Typed) (hversion : p.version ≠ "..") {f : PlannedFile} (hf : f ∈ p.plan)
    (root : String) : ∃ path, location root (f.relativePath p.moduleRoot) = .ok path ∧
      components path = components root ++ components (f.relativePath p.moduleRoot) := by
  have hne : f.relativePath p.moduleRoot ≠ "" := fun hempty => by
    obtain ⟨dir, name, hends, -⟩ := ends_of_planned hf p.moduleRoot
    exact hends.ne_nil (by simp [hempty])
  have hplain : IsPlain (f.relativePath p.moduleRoot) := ⟨hne, allNames_plan h htyped hversion f hf⟩
  exact ⟨_, location_eq_ok.mpr ⟨hplain, rfl⟩, components_join hplain⟩

/-- With the version `..` a path of the plan climbs. -/
theorem exists_refused (h : p.Loaded) (htyped : p.Typed) (hversion : p.version = "..") :
    ∃ f ∈ p.plan, Refused (f.relativePath p.moduleRoot) := by
  have hmem : typesComponents p.pluralKind p.version ++ [named "doc.go"] ∈
      p.plan.map fun f => components (f.relativePath p.moduleRoot) := by
    rw [components_plan h htyped]
    simp [projectComponents]
  obtain ⟨f, hf, heq⟩ := List.mem_map.mp hmem
  refine ⟨f, hf, fun hplain => ?_⟩
  rw [heq, hversion] at hplain
  simp [typesComponents, component?, Path.allNames] at hplain

end Plan

/-! ### The plan of a loaded project -/

/-- A plan that can be written under every root, unless the version climbs. -/
structure Project.Writable (p : Project) : Prop where
  /-- the files of the project come first, then two for each phase with inputs or outputs -/
  scopes : p.plan.map (·.scope) = List.replicate 11 .project ++ p.descriptor.phases.flatMap fun phase =>
    if phase.inputs = [] ∧ phase.outputs = [] then [] else [.phase phase, .phase phase]
  paths : p.plan.map (·.relativePath p.moduleRoot) =
    projectPaths (p.pluralKind ++ "/" ++ p.version) ++ p.descriptor.phases.flatMap phasePaths
  inModule : ∀ f ∈ p.plan, f.outputPath = p.moduleRoot ++ "/" ++ f.relativePath p.moduleRoot
  /-- no two files have one path, and none is a directory around another -/
  apart : p.plan.Pairwise fun f g =>
    Diverge (components (f.relativePath p.moduleRoot)) (components (g.relativePath p.moduleRoot))
  notLedger : ∀ f ∈ p.plan, ¬[named ".pilot"] <+: components (f.relativePath p.moduleRoot)
  notDraft : ∀ f ∈ p.plan, ∃ front name, components (f.relativePath p.moduleRoot) = front ++ [.name name] ∧
    ¬".pilot.tmp".toList <:+ name
  accepted : p.version ≠ ".." → ∀ f ∈ p.plan, ∀ root, ∃ path, location root (f.relativePath p.moduleRoot) = .ok path ∧
    components path = components root ++ components (f.relativePath p.moduleRoot)
  refused : p.version = ".." → ∀ files : List GeneratedFile, files.map (·.toPlannedFile) = p.plan →
    ∀ root dryRun now d, ∃ e, (write files root p.moduleRoot dryRun now : StateM Disk _) d = (⟨[], .error e⟩, d) ∧
      (¬Unreadable d root → ∃ f ∈ p.plan, e = .unsafePath (f.relativePath p.moduleRoot))

theorem Project.scopes_plan (p : Project) : p.plan.map (·.scope) = List.replicate 11 .project ++
    p.descriptor.phases.flatMap fun phase =>
      if phase.inputs = [] ∧ phase.outputs = [] then [] else [.phase phase, .phase phase] := by
  have hphase : ∀ phase, (p.phaseFiles phase).map (·.scope) =
      if phase.inputs = [] ∧ phase.outputs = [] then [] else [.phase phase, .phase phase] := fun phase => by
    unfold phaseFiles
    by_cases hin : phase.inputs = [] <;> by_cases hout : phase.outputs = [] <;>
      simp [Phase.generatesFiles, Phase.hasInputs, Phase.hasOutputs, hin, hout]
  unfold plan
  rw [List.map_append, List.map_flatMap]
  simp only [hphase]
  rfl

/-- **Every plan is a set of files that can be written**: the plan of a loaded project has all files in the module,
    at places apart from each other, from the ledger and from drafts. They are all accepted under any root, unless the
    version is `..`; then every write of them is refused without a trace. -/
theorem Project.plan_writable {bytes : ByteArray} {root : Except RootError String} {p : Project}
    (h : load bytes root = .ok p) : p.Writable := by
  have hloaded := loaded_of_load h
  have htyped := typed_of_load h
  refine ⟨p.scopes_plan, relativePath_plan_of_types hloaded htyped.path, fun f => outputPath_eq_relativePath hloaded,
    diverge_plan hloaded htyped, not_ledger_plan hloaded htyped, fun f hf => not_draft_plan hf _,
    fun hversion f hf root => location_plan hloaded htyped hversion hf root, ?_⟩
  intro hversion files hfiles root dryRun now d
  have hplanned : ∀ file ∈ files, file.toPlannedFile ∈ p.plan := fun file hmem => hfiles ▸ List.mem_map_of_mem hmem
  obtain ⟨f, hf, hrefused⟩ := exists_refused hloaded htyped hversion
  obtain ⟨file, hfile, rfl⟩ := List.mem_map.mp (hfiles ▸ hf)
  obtain ⟨e, hrun, hcause⟩ := write_of_refused (d := d) dryRun now (.inr ⟨file, hfile, hrefused⟩)
  refine ⟨e, hrun, fun hledger => ?_⟩
  rcases hcause with ⟨hunreadable, -⟩ | ⟨-, before, first, after, rfl, -, -, rfl⟩
  · exact absurd hunreadable hledger
  · exact ⟨_, hplanned first (by simp), rfl⟩

/-- A project of two phases with files, whose version climbs out of the directory of its kind. -/
def Project.climbing : Project where
  descriptor := ⟨"a/..", "Policy", none, [⟨"Build", none, ["x"], []⟩, ⟨"idle", none, [], []⟩, ⟨"run", none, [], ["y"]⟩]⟩
  moduleRoot := "m"
  group := "a"
  version := ".."
  typesImportPath := "m/pkg/apis/policies/.."
  schedulerImportPath := "m/pkg/scheduler"
  configImportPath := "m/pkg/config"
  kindLowerCamel := "policy"
  operatorName := "m"

theorem Project.load_climbing : load (Text.encode ("apiVersion: a/..\nkind: Policy\nphases:\n- name: Build\n  inputs: [x]\n" ++
    "- name: idle\n- name: run\n  outputs: [y]\n")) (.ok "m") = .ok climbing :=
  eq_ok_of_toOption (by decide +kernel)

/-- The plan of such a project has fifteen files, and no write of them leaves anything on an empty disk; with the
    version `v1` all files of a project are accepted. -/
theorem Project.plan_writable_sample :
    (climbing.plan.map (·.scope)).length = 15 ∧ climbing.Writable ∧
    (∃ e, (write (climbing.plan.map fun f => ⟨f, "x"⟩) "r" "m" false .epoch : StateM Disk _) Disk.empty =
      (⟨[], .error e⟩, Disk.empty)) ∧
    ∀ f ∈ sample.plan, ∃ path, location "r" (f.relativePath "m") = .ok path := by
  have hclimbing := plan_writable load_climbing
  refine ⟨by rw [hclimbing.scopes]; rfl, hclimbing, ?_, fun f hf => ?_⟩
  · have hfiles : (climbing.plan.map fun f => (⟨f, "x"⟩ : GeneratedFile)).map (·.toPlannedFile) = climbing.plan := by
      rw [List.map_map]
      exact List.map_id _
    obtain ⟨e, hrun, -⟩ := hclimbing.refused rfl _ hfiles "r" false .epoch Disk.empty
    exact ⟨e, hrun⟩
  · obtain ⟨path, hpath, -⟩ := (plan_writable load_sample).accepted (by decide) f hf "r"
    exact ⟨path, hpath⟩

end Scaffold
