import Scaffold.Proofs.Plan.Lines

/-! The generated scheduler and the plan agree on workers (`Project.scheduler_fits`). Whether a phase has a worker is
    decided twice, by the planner from the phase and by the template from the answers to two questions, and so is where
    its package lies. The scheduler has an import for exactly the phases with planned files, of the directory of these
    files, and a case for every phase, which calls the worker of just these phases. -/

namespace Scaffold
open Template Form

/-! ### Lines of the scheduler -/

section Lines
variable (p : Project) (phase : Phase)

/-- The planned files of a phase. -/
def Project.filesOf : List PlannedFile := p.plan.filter (·.scope = .phase phase)

/-- The lines of the scheduler. -/
def Project.schedulerLines : List String := schedulerForm.lines (p.sceneOf .project)

/-- The imports that every scheduler has. -/
def Project.fixedImports : List String :=
  ["\t\"context\"", "\t\"fmt\"", "\t\"time\"", "", "\t\"" ++ p.configImportPath ++ "\"",
   "\t" ++ p.version ++ " \"" ++ p.typesImportPath ++ "\""]

/-- The import of the worker of a phase. -/
def Project.workerImport : String := "\t\"" ++ p.workerImportPath phase ++ "\""

/-- The constant of a phase. -/
def Project.phaseConstant : String := p.descriptor.kind ++ "Phase" ++ Naming.upperCamel phase.name

/-- The label of the case of a phase. -/
def Project.caseLabel : String := "\tcase " ++ p.version ++ "." ++ p.phaseConstant phase ++ ":"

/-- The call of the worker of a phase. -/
def Project.workerCall : String :=
  "\t\treturn (&" ++ phase.workerPackage ++ ".Worker\x7b\x7d).Sync(ctx, &" ++ p.kindLowerCamel ++ ")"

/-- The case of a phase: it calls the worker if there is one. -/
def Project.caseOf : List String :=
  [p.caseLabel phase, if p.filesOf phase = [] then "\t\treturn nil" else p.workerCall phase]

/-- The lines in front of the cases. -/
def Project.switchStart : List String :=
  ["\tvar " ++ p.kindLowerCamel ++ " " ++ p.version ++ "." ++ p.descriptor.kind,
   "\tswitch " ++ p.kindLowerCamel ++ ".Status.Phase \x7b"]

/-- The lines behind the imports and in front of the function with the cases. -/
def Project.runLines : List String :=
  ["", "// Run reconciles every " ++ p.descriptor.kind ++ " once per resync period.",
   "func Run(cfg *config.Config) error \x7b", "\tticker := time.NewTicker(cfg.ResyncPeriod)", "\tdefer ticker.Stop()",
   "\tfor range ticker.C \x7b", "\t\tif err := reconcile(context.Background()); err != nil \x7b",
   "\t\t\treturn fmt.Errorf(\"reconcile " ++ p.kindLowerCamel ++ ": %w\", err)", "\t\t\x7d", "\t\x7d", "\treturn nil",
   "\x7d", ""]

end Lines

section Plan
variable {p : Project} {phase : Phase}

theorem scope_of_mem_phaseFiles {f : PlannedFile} (h : f ∈ p.phaseFiles phase) : f.scope = .phase phase := by
  unfold Project.phaseFiles at h
  split at h
  · rcases List.mem_cons.mp h with rfl | h
    · rfl
    · rw [List.mem_singleton.mp h]
  · cases h

theorem filter_phaseFiles (other : Phase) : (p.phaseFiles other).filter (·.scope = .phase phase) =
    if other = phase then p.phaseFiles phase else [] := by
  split
  · next heq =>
    subst heq
    rw [List.filter_eq_self]
    exact fun f hf => decide_eq_true (scope_of_mem_phaseFiles hf)
  · next hne =>
    rw [List.filter_eq_nil_iff]
    intro f hf
    simpa [scope_of_mem_phaseFiles hf] using hne

/-- What is there for one element of a list without repetitions is there once. -/
theorem flatMap_ite_of_nodup {α β : Type} [DecidableEq α] {x : α} (ys : List β) : ∀ {l : List α}, l.Nodup → x ∈ l →
    (l.flatMap fun y => if y = x then ys else []) = ys
  | y :: l, hl, hx => by
    obtain ⟨hy, hl⟩ := List.nodup_cons.mp hl
    rw [List.flatMap_cons]
    rcases List.mem_cons.mp hx with rfl | hx
    · have hnone : (l.flatMap fun z => if z = x then ys else []) = [] := by
        rw [List.flatMap_eq_nil_iff]
        intro z hz
        rw [if_neg]
        rintro rfl
        exact hy hz
      rw [if_pos rfl, hnone, List.append_nil]
    · have hne : y ≠ x := by
        rintro rfl
        exact hy hx
      rw [if_neg hne, List.nil_append, flatMap_ite_of_nodup ys hl hx]

theorem Descriptor.Packaged.nodup {phases : List Phase} (h : Packaged phases) : phases.Nodup :=
  h.distinct.imp fun hne heq => hne (congrArg Phase.workerPackage heq)

/-- The planner plans the files of a phase in one place. -/
theorem filesOf_eq_phaseFiles (h : Descriptor.Packaged p.descriptor.phases) (hphase : phase ∈ p.descriptor.phases) :
    p.filesOf phase = p.phaseFiles phase := by
  have hproject : p.projectFiles.filter (·.scope = .phase phase) = [] := rfl
  rw [Project.filesOf, Project.plan, List.filter_append, hproject, List.nil_append, List.filter_flatMap]
  simp only [filter_phaseFiles]
  exact flatMap_ite_of_nodup _ h.nodup hphase

theorem filesOf_ne_nil_iff (h : Descriptor.Packaged p.descriptor.phases) (hphase : phase ∈ p.descriptor.phases) :
    p.filesOf phase ≠ [] ↔ phase.generatesFiles = true := by
  rw [filesOf_eq_phaseFiles h hphase, Project.phaseFiles]
  split <;> simp_all

theorem outputPaths_filesOf (h : Descriptor.Packaged p.descriptor.phases) (hphase : phase ∈ p.descriptor.phases)
    (hfiles : p.filesOf phase ≠ []) : (p.filesOf phase).map (·.outputPath) =
      [p.workerImportPath phase ++ "/parameters.go", p.workerImportPath phase ++ "/worker.go"] := by
  rw [filesOf_eq_phaseFiles h hphase, Project.phaseFiles, if_pos ((filesOf_ne_nil_iff h hphase).mp hfiles)]
  rfl

end Plan

/-! ### The lines are those of the template -/

section Lines
variable {p : Project}

/-- The line of a phase in the imports, if the template has one. -/
def Project.importRow (p : Project) (phase : Phase) : List String :=
  if phase.generatesFiles then [p.workerImport phase] else []

/-- The lines of a phase in the template's cases. -/
def Project.caseRows (p : Project) (phase : Phase) : List String :=
  [p.caseLabel phase, if phase.generatesFiles then p.workerCall phase else "\t\treturn nil"]

theorem linesThen_importRow (s : Scene) (more : List String) :
    (Form.choice .generatesFiles (line ["\t\"", Field.workerImportPath, "\""] .done) .done .done).linesThen s
      ("" :: more) = "" :: (s.project.importRow s.phase ++ more) := by
  cases h : s.phase.generatesFiles <;>
    simp [Project.importRow, Project.workerImport, line, cells, linesThen, prepend, Field.text, Condition.holds, h,
      String.append_assoc]

theorem linesThen_caseRows (s : Scene) (more : List String) :
    (line ["\tcase ", Field.version, ".", Field.kind, "Phase", Field.phaseCamel, ":"] <|
      .choice .generatesFiles
        (line ["\t\treturn (&", Field.workerPackage, ".Worker\x7b\x7d).Sync(ctx, &", Field.kindLowerCamel, ")"] .done)
        (line ["\t\treturn nil"] .done) <|
      .done).linesThen s ("" :: more) = "" :: (s.project.caseRows s.phase ++ more) := by
  cases h : s.phase.generatesFiles <;>
    simp [Project.caseRows, Project.caseLabel, Project.phaseConstant, Project.workerCall, line, cells, linesThen, prepend,
      Field.text, Condition.holds, h, String.append_assoc]

theorem flatMap_scenes (rows : Project → Phase → List String) :
    ((Series.phases.scenes (p.sceneOf .project)).flatMap fun s => rows s.project s.phase) =
      p.descriptor.phases.flatMap (rows p) := by
  simp [Series.scenes, Project.sceneOf, List.flatMap_map]

theorem schedulerLines_eq (p : Project) : p.schedulerLines =
    ["// Code generated by pilot. DO NOT EDIT.", "", "package scheduler", ""] ++ "import (" ::
      ((p.fixedImports ++ p.descriptor.phases.flatMap p.importRow) ++ ")" ::
        (p.runLines ++ "func reconcile(ctx context.Context) error \x7b" ::
          ((p.switchStart ++ p.descriptor.phases.flatMap p.caseRows ++ ["\t\x7d", "\treturn nil"]) ++ "\x7d" ::
            [""]))) := by
  rw [Project.schedulerLines, Form.lines, schedulerForm]
  apply Eq.trans
  · apply linesThen_cells
    repeat with_reducible first
      | exact linesThen_break
      | apply linesThen_line
      | apply linesThen_each linesThen_importRow
      | apply linesThen_each linesThen_caseRows
  · rw [flatMap_scenes Project.importRow, flatMap_scenes Project.caseRows]
    simp [cellsText, Field.text, Project.sceneOf, Project.fixedImports, Project.runLines, Project.switchStart,
      String.append_assoc]

theorem importRows_eq (h : Descriptor.Packaged p.descriptor.phases) : p.descriptor.phases.flatMap p.importRow =
    (p.descriptor.phases.filter (p.filesOf · ≠ [])).map p.workerImport := by
  have hrow : ∀ phases : List Phase, phases.flatMap p.importRow = (phases.filter (·.generatesFiles)).map p.workerImport := by
    intro phases
    induction phases with
    | nil => rfl
    | cons phase phases ih => 
      rw [List.flatMap_cons, ih, Project.importRow]
      cases hphase : phase.generatesFiles <;> simp [hphase]
  rw [hrow]
  refine congrArg (List.map _) (List.filter_congr fun phase hphase => ?_)
  rw [Bool.eq_iff_iff, decide_eq_true_iff, filesOf_ne_nil_iff h hphase]

theorem caseRows_eq (h : Descriptor.Packaged p.descriptor.phases) {phase : Phase} (hphase : phase ∈ p.descriptor.phases) :
    p.caseRows phase = p.caseOf phase := by
  have hfiles := filesOf_ne_nil_iff h hphase
  rw [Project.caseRows, Project.caseOf]
  by_cases hgenerates : phase.generatesFiles = true
  · rw [if_pos hgenerates, if_neg (hfiles.mpr hgenerates)]
  · rw [if_neg hgenerates, if_pos (not_not.mp (mt hfiles.mp hgenerates))]

theorem imports_ne_end (p : Project) (phases : List Phase) :
    ∀ line ∈ p.fixedImports ++ phases.map p.workerImport, line ≠ ")" := by
  rw [List.forall_mem_append, List.forall_mem_map]
  simp (disch := decide) [Project.fixedImports, Project.workerImport, append_ne_of_headsDiffer, String.append_assoc]

theorem mem_filesOf {f : PlannedFile} {phase : Phase} (hf : f ∈ p.plan) (hscope : f.scope = .phase phase) :
    f ∈ p.filesOf phase ∧ phase ∈ p.descriptor.phases := by
  refine ⟨List.mem_filter.mpr ⟨hf, decide_eq_true hscope⟩, ?_⟩
  rcases template_of_mem_plan hf with ⟨hproject, -⟩ | ⟨other, hother, hof, -⟩
  · rw [hscope] at hproject
    cases hproject
  · rw [hscope] at hof
    cases hof
    exact hother

end Lines

section Blocks
variable {p : Project}

theorem schedulerLines_of_packaged (h : Descriptor.Packaged p.descriptor.phases) : p.schedulerLines =
    ["// Code generated by pilot. DO NOT EDIT.", "", "package scheduler", ""] ++ "import (" ::
      ((p.fixedImports ++ (p.descriptor.phases.filter (p.filesOf · ≠ [])).map p.workerImport) ++ ")" ::
        (p.runLines ++ "func reconcile(ctx context.Context) error \x7b" ::
          ((p.switchStart ++ p.descriptor.phases.flatMap p.caseOf ++ ["\t\x7d", "\treturn nil"]) ++ "\x7d" ::
            [""]))) := by
  have hcases : p.descriptor.phases.flatMap p.caseRows = p.descriptor.phases.flatMap p.caseOf :=
    List.flatMap_congr fun phase hphase => caseRows_eq h hphase
  rw [schedulerLines_eq, importRows_eq h, hcases]

theorem imports_of_packaged (h : Descriptor.Packaged p.descriptor.phases) :
    linesBetween "import (" ")" p.schedulerLines =
      p.fixedImports ++ (p.descriptor.phases.filter (p.filesOf · ≠ [])).map p.workerImport := by
  rw [schedulerLines_of_packaged h]
  exact linesBetween_append (by simp) (imports_ne_end p _)

theorem schedulerFile_mem (p : Project) : ∃ f ∈ p.laidOut p.plan, f.outputPath = p.schedulerImportPath ++ "/scheduler.go" ∧
    f.content = "\n".intercalate p.schedulerLines := by
  have hplanned : ⟨p.schedulerImportPath ++ "/scheduler.go", "code/scheduler.go.tera", false, false, .project⟩ ∈ p.plan :=
    List.mem_append_left _ (.tail _ (.head _))
  refine ⟨_, List.mem_map_of_mem hplanned, rfl, ?_⟩
  rw [linesOf_of_form p (F := schedulerForm) (.head _)]
  rfl

end Blocks

end Scaffold
