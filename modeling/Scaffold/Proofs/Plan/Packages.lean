import Scaffold.Proofs.Plan.Constants

/-! Package clauses, directories and imports fit together (`Project.packages_fit`). The planner and the loader name
    directories; the templates name packages, imports and the resource. A Go file belongs to the package that its
    directory is named after, what it imports from the module is a directory with generated Go files, and the
    resource is registered under the name that its types are found under. -/

namespace Scaffold
open Template Form Text

/-! ### Directories -/

/-- Whether a file is a Go file. -/
def PlannedFile.isGo (f : PlannedFile) : Bool := ['.', 'g', 'o'].isSuffixOf f.outputPath.toList

/-- The directory of a file. -/
def PlannedFile.directory (f : PlannedFile) : String :=
  String.ofList (joinWith ['/'] (splitOn '/' f.outputPath.toList).dropLast)

/-- The package that Go files in a directory belong to. -/
def packageOf (directory : String) : String := String.ofList (lastSegment directory.toList)

theorem directory_of_append {f : PlannedFile} {dir name : String} (hpath : f.outputPath = dir ++ "/" ++ name)
    (hname : '/' ∉ name.toList) : f.directory = dir := by
  have hsplit : splitOn '/' f.outputPath.toList = splitOn '/' dir.toList ++ [name.toList] := by
    have htext : f.outputPath.toList = dir.toList ++ '/' :: name.toList := by simp [hpath]
    rw [htext, splitOn_append_cons, splitOn_of_notMem hname]
  rw [PlannedFile.directory, hsplit, List.dropLast_concat, joinWith_splitOn, String.ofList_toList]

theorem packageOf_append (dir : String) {name : String} (hname : '/' ∉ name.toList) : packageOf (dir ++ "/" ++ name) = name := by
  have hsplit : splitOn '/' (dir ++ "/" ++ name).toList = splitOn '/' dir.toList ++ [name.toList] := by
    have htext : (dir ++ "/" ++ name).toList = dir.toList ++ '/' :: name.toList := by simp
    rw [htext, splitOn_append_cons, splitOn_of_notMem hname]
  rw [packageOf, lastSegment, hsplit, List.getLast?_concat, Option.getD_some, String.ofList_toList]

/-- The lines in imports that are not of the module. -/
def libraryImports : List String :=
  ["", "\t\"log\"", "\t\"os\"", "\t\"context\"", "\t\"fmt\"", "\t\"time\"",
   "\tmetav1 \"k8s.io/apimachinery/pkg/apis/meta/v1\"", "\t\"k8s.io/apimachinery/pkg/runtime\"",
   "\t\"k8s.io/apimachinery/pkg/runtime/schema\""]

section
variable {p : Project}

/-- What a Go file of a project may import: libraries, and directories with planned Go files. -/
def Project.Imports (p : Project) (line : String) : Prop :=
  line ∈ libraryImports ∨ ∃ g ∈ p.plan, g.isGo = true ∧
    (line = "\t\"" ++ g.directory ++ "\"" ∨ line = "\t" ++ p.version ++ " \"" ++ g.directory ++ "\"")

theorem imports_of_planned {g : PlannedFile} (hg : g ∈ p.plan) (dir name : String)
    (hpath : g.outputPath = dir ++ "/" ++ (name ++ ".go")) (hname : '/' ∉ (name ++ ".go").toList) :
    p.Imports ("\t\"" ++ dir ++ "\"") ∧ p.Imports ("\t" ++ p.version ++ " \"" ++ dir ++ "\"") := by
  have hdirectory := directory_of_append hpath hname
  have hgo : g.isGo = true := by
    rw [PlannedFile.isGo, List.isSuffixOf_iff_suffix, hpath]
    exact ⟨(dir ++ "/" ++ name).toList, by simp⟩
  exact ⟨.inr ⟨g, hg, hgo, .inl (by rw [hdirectory])⟩, .inr ⟨g, hg, hgo, .inr (by rw [hdirectory])⟩⟩

theorem imports_config : p.Imports ("\t\"" ++ p.configImportPath ++ "\"") := by
  have hplanned : ⟨p.configImportPath ++ "/config.go", "code/config.go.tera", true, false, .project⟩ ∈ p.plan :=
    List.mem_append_left _ (.tail _ (.tail _ (.head _)))
  exact (imports_of_planned hplanned p.configImportPath "config" (by simp [String.append_assoc]) (by decide)).1

theorem imports_scheduler : p.Imports ("\t\"" ++ p.schedulerImportPath ++ "\"") := by
  have hplanned : ⟨p.schedulerImportPath ++ "/scheduler.go", "code/scheduler.go.tera", false, false, .project⟩ ∈ p.plan :=
    List.mem_append_left _ (.tail _ (.head _))
  exact (imports_of_planned hplanned p.schedulerImportPath "scheduler" (by simp [String.append_assoc]) (by decide)).1

theorem imports_types : p.Imports ("\t" ++ p.version ++ " \"" ++ p.typesImportPath ++ "\"") := by
  have hplanned : ⟨p.typesImportPath ++ "/doc.go", "code/doc.go.tera", false, false, .project⟩ ∈ p.plan :=
    List.mem_append_left _ (.tail _ (.tail _ (.tail _ (.head _))))
  exact (imports_of_planned hplanned p.typesImportPath "doc" (by simp [String.append_assoc]) (by decide)).2

theorem imports_worker (h : Descriptor.Packaged p.descriptor.phases) {phase : Phase}
    (hphase : phase ∈ p.descriptor.phases) (hfiles : p.filesOf phase ≠ []) : p.Imports (p.workerImport phase) := by
  obtain ⟨f, hf, hpath⟩ : ∃ f ∈ p.filesOf phase, f.outputPath = p.workerImportPath phase ++ "/worker.go" := by
    refine List.mem_map.mp ?_
    rw [outputPaths_filesOf h hphase hfiles]
    exact .tail _ (.head _)
  refine (imports_of_planned (List.mem_filter.mp hf).1 (p.workerImportPath phase) "worker" ?_ (by decide)).1
  simp [hpath, String.append_assoc]

/-! ### Go files -/

/-- What is to be shown of a planned Go file. -/
structure Project.GoFits (p : Project) (f : PlannedFile) : Prop where
  clause : packageClause? (p.linesOf f) =
    some ("package " ++ if f.outputPath = p.moduleRoot ++ "/main.go" then "main" else packageOf f.directory)
  imports : ∀ line ∈ linesBetween "import (" ")" (p.linesOf f), p.Imports line

/-- A Go file below `pkg` belongs to the package that its directory is named after. -/
theorem Project.GoFits.of_package {f : PlannedFile} {imports : List String} (middle package name : String)
    (hpath : f.outputPath = p.moduleRoot ++ "/pkg" ++ middle ++ "/" ++ package ++ "/" ++ name)
    (hpackage : '/' ∉ package.toList) (hname : '/' ∉ name.toList)
    (hlines : GoLines (p.linesOf f) ("package " ++ package) imports) (himports : ∀ line ∈ imports, p.Imports line) :
    p.GoFits f := by
  have hmain : f.outputPath ≠ p.moduleRoot ++ "/main.go" := by
    intro heq
    rw [hpath] at heq
    simp [← String.toList_inj] at heq
  refine ⟨?_, ?_⟩
  · rw [hlines.clause, if_neg hmain, directory_of_append hpath hname, packageOf_append _ hpackage]
  · rwa [hlines.imports]

theorem goLines_of_head {f : PlannedFile} {h : GoHead} {P : Form} (hP : (f.templateId, h, P) ∈ shippedHeads)
    (hbegun : h.wellBegun = true) : GoLines (p.linesOf f) (cellsText (p.sceneOf f.scope) h.clause)
      (h.imports.map (cellsText (p.sceneOf f.scope))) := by
  obtain ⟨first, more, hlines⟩ := linesOf_of_head p hP
  rw [hlines]
  exact h.goLines hbegun _ _

theorem goFits_main : p.GoFits ⟨p.moduleRoot ++ "/main.go", "code/main.go.tera", false, false, .project⟩ := by
  have hlines := goLines_of_head (p := p)
    (f := ⟨p.moduleRoot ++ "/main.go", "code/main.go.tera", false, false, .project⟩) (.head _) (by decide)
  simp only [List.map_cons, List.map_nil, cellsText, Field.text, Project.sceneOf, String.append_empty,
    ← String.append_assoc] at hlines
  refine ⟨by rw [hlines.clause, if_pos rfl]; rfl, ?_⟩
  rw [hlines.imports]
  simp only [List.forall_mem_cons, List.not_mem_nil, false_implies, implies_true, and_true]
  exact ⟨.inl (by decide), .inl (by decide), imports_config, imports_scheduler⟩

theorem goFits_config (h : p.Loaded) :
    p.GoFits ⟨p.configImportPath ++ "/config.go", "code/config.go.tera", true, false, .project⟩ := by
  have hlines := goLines_of_head (p := p)
    (f := ⟨p.configImportPath ++ "/config.go", "code/config.go.tera", true, false, .project⟩) (.tail _ (.head _))
    (by decide)
  refine .of_package "" "config" "config.go" ?_ (by decide) (by decide) hlines ?_
  · rw [h.config, ← String.toList_inj]
    simp
  · simp only [List.map_cons, List.map_nil, cellsText, String.append_empty, List.forall_mem_cons, List.not_mem_nil,
      false_implies, implies_true, and_true]
    exact ⟨.inl (by decide), .inl (by decide)⟩

theorem goFits_scheduler (h : p.Loaded) :
    p.GoFits ⟨p.schedulerImportPath ++ "/scheduler.go", "code/scheduler.go.tera", false, false, .project⟩ := by
  have hlines : p.linesOf ⟨p.schedulerImportPath ++ "/scheduler.go", "code/scheduler.go.tera", false, false, .project⟩ =
      p.schedulerLines := linesOf_of_form p (.head _)
  have hclause : packageClause? p.schedulerLines = some "package scheduler" := by
    rw [schedulerLines_eq]
    exact packageClause_append ["// Code generated by pilot. DO NOT EDIT.", ""] (by decide) (by decide)
  refine .of_package "" "scheduler" "scheduler.go" ?_ (by decide) (by decide)
    ⟨hlines ▸ hclause, hlines ▸ imports_of_packaged h.packaged⟩ ?_
  · rw [h.scheduler, ← String.toList_inj]
    simp
  · rw [List.forall_mem_append, List.forall_mem_map]
    refine ⟨?_, fun phase hphase => ?_⟩
    · simp only [Project.fixedImports, List.forall_mem_cons, List.not_mem_nil, false_implies, implies_true, and_true]
      exact ⟨.inl (by decide), .inl (by decide), .inl (by decide), .inl (by decide), imports_config, imports_types⟩
    · obtain ⟨hphase, hfiles⟩ := List.mem_filter.mp hphase
      exact imports_worker h.packaged hphase (of_decide_eq_true hfiles)

section
variable (htyped : p.Typed) {f : PlannedFile} (name : String)
  (hpath : f.outputPath = p.typesImportPath ++ "/" ++ name) (hname : '/' ∉ name.toList)

include htyped hpath hname

/-- A Go file of the types' directory is in the package of the version, and imports nothing from the module. -/
theorem goFits_types {imports : List String} (hlines : GoLines (p.linesOf f) ("package " ++ p.version) imports)
    (himports : ∀ line ∈ imports, line ∈ libraryImports) : p.GoFits f := by
  refine .of_package ("/apis/" ++ p.pluralKind) p.version name ?_ htyped.version.2 hname hlines fun line hline =>
    .inl (himports line hline)
  rw [hpath, htyped.path, ← String.toList_inj]
  simp

theorem goFits_types_of_form {F : Form} (hF : (f.templateId, F) ∈ shippedForms) {comments rest : List String}
    (hlines : F.lines (p.sceneOf f.scope) = comments ++ ("package " ++ p.version) :: "" :: rest)
    (hcomments : ∀ line ∈ comments, line = "" ∨ isComment line = true) (hrest : ∀ line ∈ rest, line ≠ "import (") :
    p.GoFits f := by
  have hplain : GoLines (p.linesOf f) ("package " ++ p.version) [] := by
    rw [linesOf_of_form p hF, hlines]
    exact .of_plain comments hcomments (by simp) hrest
  exact goFits_types htyped name hpath hname hplain (by simp)

theorem goFits_types_of_head {h : GoHead} {P : Form} (hP : (f.templateId, h, P) ∈ shippedHeads)
    (hbegun : h.wellBegun = true) (hclause : h.clause = [.fixed "package ", .field .version]) (hscope : f.scope = .project)
    (himports : ∀ cs ∈ h.imports, cellsText (p.sceneOf .project) cs ∈ libraryImports) : p.GoFits f := by
  have hlines := goLines_of_head (p := p) hP hbegun
  have hpackage : cellsText (p.sceneOf f.scope) h.clause = "package " ++ p.version := by
    simp [hclause, hscope, cellsText, Field.text, Project.sceneOf]
  rw [hpackage, hscope] at hlines
  exact goFits_types htyped name hpath hname hlines (List.forall_mem_map.mpr himports)

end

theorem goFits_worker (hpackaged : Descriptor.Packaged p.descriptor.phases) {phase : Phase}
    (hphase : phase ∈ p.descriptor.phases) {f : PlannedFile} (hf : f ∈ p.phaseFiles phase) {h : GoHead} {P : Form}
    (hP : (f.templateId, h, P) ∈ shippedHeads) (hbegun : h.wellBegun = true)
    (hclause : h.clause = [.fixed "package ", .field .workerPackage])
    (himports : ∀ cs ∈ h.imports, p.Imports (cellsText (p.sceneOf (.phase phase)) cs)) : p.GoFits f := by
  have hlines := goLines_of_head (p := p) hP hbegun
  have hscope := scope_of_mem_phaseFiles hf
  have hpackage : cellsText (p.sceneOf f.scope) h.clause = "package " ++ phase.workerPackage := by
    simp [hclause, hscope, cellsText, Field.text, Project.sceneOf]
  rw [hpackage, hscope] at hlines
  have hname : '/' ∉ (nameOf f).toList := by
    rcases name_of_mem_phaseFiles hf with hname | hname <;> rw [hname] <;> decide
  refine .of_package "/workers" phase.workerPackage (nameOf f) ?_
    (ne_of_isIdentifier (hpackaged.identifiers phase hphase)).2.1 hname hlines (List.forall_mem_map.mpr himports)
  rw [path_of_mem_phaseFiles hf, ← String.toList_inj]
  simp

theorem isGo_append (front : String) {f : PlannedFile} {name : String} (hpath : f.outputPath = front ++ name)
    (hname : name.toList.getLast? ≠ none ∧ name.toList.getLast? ≠ some 'o') : f.isGo = false := by
  rw [Bool.eq_false_iff, PlannedFile.isGo, Ne, List.isSuffixOf_iff_suffix, hpath]
  rintro ⟨stem, hstem⟩
  have hlast := congrArg List.getLast? hstem
  rw [String.toList_append, List.getLast?_append, List.getLast?_append] at hlast
  cases hchar : name.toList.getLast? with
  | none => exact hname.1 hchar
  | some c =>
    rw [hchar] at hlast hname
    exact hname.2 hlast.symm

/-! ### Lines without imports -/

theorem docLines_eq (s : Scene) : docForm.lines s =
    ["// Code generated by pilot. DO NOT EDIT.", "",
      "// Package " ++ s.project.version ++ " contains the " ++ s.project.descriptor.kind ++ " API of group " ++
        s.project.group ++ ".",
      "// +k8s:deepcopy-gen=package,register", "// +groupName=" ++ s.project.group] ++
        ("package " ++ s.project.version) :: "" :: [] := by
  rw [Form.lines, docForm]
  apply Eq.trans
  · apply linesThen_cells
    repeat with_reducible first
      | exact linesThen_break
      | apply linesThen_line
  · simp [cellsText, Field.text, String.append_assoc]

theorem specLines_eq (s : Scene) : specForm.lines s = [] ++ ("package " ++ s.project.version) :: "" ::
    ["// " ++ s.project.descriptor.kind ++ "Spec is the desired state of a " ++ s.project.descriptor.kind ++ ".",
      "//", "// This file is generated once and then owned by you; add fields freely.",
      "type " ++ s.project.descriptor.kind ++ "Spec struct \x7b", "\x7d", ""] := by
  rw [Form.lines, specForm]
  apply Eq.trans
  · apply linesThen_cells
    repeat with_reducible first
      | exact linesThen_break
      | apply linesThen_line
  · simp [cellsText, Field.text, String.append_assoc]

/-- The lines of the constants, split at the package clause. -/
theorem phasesLines_split (p : Project) : ∃ rest, p.phasesLines =
    ["// Code generated by pilot. DO NOT EDIT.", ""] ++ ("package " ++ p.version) :: "" :: rest ∧
      ∀ line ∈ rest, line ≠ "import (" := by
  refine ⟨_, phasesLines_eq p, ?_⟩
  simp only [List.append_eq, List.cons_append, List.nil_append, List.forall_mem_cons, List.forall_mem_append, List.forall_mem_map]
  simp (disch := decide) [Project.constantLine, append_ne_of_headsDiffer, String.append_assoc]

/-! ### All Go files -/

theorem goFits_projectFiles (h : p.Loaded) (htyped : p.Typed) : ∀ f ∈ p.projectFiles, f.isGo = true → p.GoFits f := by
  have hno : ∀ {f : PlannedFile} {name : String}, f.outputPath = p.moduleRoot ++ name →
      (name.toList.getLast? ≠ none ∧ name.toList.getLast? ≠ some 'o') → f.isGo = true → p.GoFits f :=
    fun hpath hname hgo => absurd hgo (by rw [isGo_append p.moduleRoot hpath hname]; decide)
  simp only [Project.projectFiles, List.forall_mem_cons, List.not_mem_nil, false_implies, implies_true, and_true]
  refine ⟨fun _ => goFits_main, fun _ => goFits_scheduler h, fun _ => goFits_config h, fun _ => ?_, fun _ => ?_,
    fun _ => ?_, fun _ => ?_, fun _ => ?_, hno rfl (by decide), hno rfl (by decide), hno rfl (by decide)⟩
  · refine goFits_types_of_form htyped "doc.go" (by simp [String.append_assoc]) (by decide) (.tail _ (.head _))
      (docLines_eq _) ?_ (by simp)
    simp [isComment]
  · obtain ⟨rest, hlines, hrest⟩ := phasesLines_split p
    exact goFits_types_of_form htyped "phases.go" (by simp [String.append_assoc]) (by decide)
      (.tail _ (.tail _ (.head _))) hlines (by decide) hrest
  · refine goFits_types_of_head htyped "register.go" (by simp [String.append_assoc]) (by decide)
      (.tail _ (.tail _ (.head _))) (by decide) rfl rfl ?_
    simp [cellsText, libraryImports]
  · refine goFits_types_of_form htyped "spec.go" (by simp [String.append_assoc]) (by decide)
      (.tail _ (.tail _ (.tail _ (.head _)))) (specLines_eq _) (by simp) ?_
    simp (disch := decide) [append_ne_of_headsDiffer, String.append_assoc]
  · refine goFits_types_of_head htyped "types.go" (by simp [String.append_assoc]) (by decide)
      (.tail _ (.tail _ (.tail _ (.head _)))) (by decide) rfl rfl ?_
    simp [cellsText, libraryImports]

theorem goFits_phaseFiles (hpackaged : Descriptor.Packaged p.descriptor.phases) {phase : Phase}
    (hphase : phase ∈ p.descriptor.phases) : ∀ f ∈ p.phaseFiles phase, p.GoFits f := by
  have himport : p.Imports (cellsText (p.sceneOf (.phase phase))
      [.fixed "\t", .field .version, .fixed " \"", .field .typesImportPath, .fixed "\""]) := by
    simpa [cellsText, Field.text, Project.sceneOf, String.append_assoc] using imports_types (p := p)
  intro f hf
  have hmem := hf
  unfold Project.phaseFiles at hmem
  split at hmem
  · rcases List.mem_cons.mp hmem with rfl | hmem
    · exact goFits_worker hpackaged hphase hf (.tail _ (.tail _ (.tail _ (.tail _ (.head _))))) (by decide) rfl
        (by simpa using himport)
    · obtain rfl := List.mem_singleton.mp hmem
      refine goFits_worker hpackaged hphase hf (.tail _ (.tail _ (.tail _ (.tail _ (.tail _ (.head _)))))) (by decide) rfl ?_
      simp only [List.forall_mem_cons, List.not_mem_nil, false_implies, implies_true, and_true]
      exact ⟨.inl (by simp [cellsText, libraryImports]), .inl (by simp [cellsText, libraryImports]), himport⟩
  · cases hmem

theorem goFits_plan (h : p.Loaded) (htyped : p.Typed) : ∀ f ∈ p.plan, f.isGo = true → p.GoFits f := by
  intro f hf hgo
  rcases List.mem_append.mp hf with hf | hf
  · exact goFits_projectFiles h htyped f hf hgo
  · obtain ⟨phase, hphase, hf⟩ := List.mem_flatMap.mp hf
    exact goFits_phaseFiles h.packaged hphase f hf

/-! ### The resource -/

theorem registration_mem (p : Project) :
    "var SchemeGroupVersion = schema.GroupVersion\x7bGroup: \"" ++ p.group ++ "\", Version: \"" ++ p.version ++ "\"\x7d" ∈
      p.linesOf ⟨p.typesImportPath ++ "/register.go", "code/register.go.tera", false, false, .project⟩ ∧
    "var " ++ p.kindLowerCamel ++ "Resource = SchemeGroupVersion.WithResource(\"" ++ p.pluralKind ++ "\")" ∈
      p.linesOf ⟨p.typesImportPath ++ "/register.go", "code/register.go.tera", false, false, .project⟩ := by
  obtain ⟨first, more, hlines⟩ := linesOf_of_head p
    (f := ⟨p.typesImportPath ++ "/register.go", "code/register.go.tera", false, false, .project⟩)
    (.tail _ (.tail _ (.head _)))
  rw [hlines]
  -- the lines of the registration stand behind the line that the imports end with
  refine ⟨List.mem_of_mem_tail ((tail_suffix_linesThen _ _ _).subset ?_),
    List.mem_of_mem_tail ((tail_suffix_linesThen _ _ _).subset ?_)⟩
  all_goals simp [registrationPart, line, cells, linesThen, prepend, Field.text, Project.sceneOf, String.append_assoc]

end

end Scaffold
