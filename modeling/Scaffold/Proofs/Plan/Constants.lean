import Scaffold.Proofs.Plan.Scheduler

/-! The constants of phases and the cases of the scheduler match one to one (`Project.constants_fit`). Two templates
    make the names from the phases on their own; what keeps the names apart is that the worker packages are, which are
    these names in lower case. -/

namespace Scaffold
open Template Form

section Lines
variable (p : Project)

/-- The lines of the constants. -/
def Project.phasesLines : List String := phasesForm.lines (p.sceneOf .project)

/-- The line that declares the constant of a phase. -/
def Project.constantLine (phase : Phase) : String :=
  "\t" ++ p.phaseConstant phase ++ " " ++ p.descriptor.kind ++ "Phase = \"" ++ phase.name ++ "\""

end Lines

section Lines
variable {p : Project}

theorem linesThen_constantLine (s : Scene) (more : List String) :
    (line ["\t", Field.kind, "Phase", Field.phaseCamel, " ", Field.kind, "Phase = \"", Field.phaseName, "\""]
      .done).linesThen s ("" :: more) = "" :: ([s.project.constantLine s.phase] ++ more) := by
  simp [Project.constantLine, Project.phaseConstant, line, cells, linesThen, prepend, Field.text, String.append_assoc]

theorem phasesLines_eq (p : Project) : p.phasesLines =
    ["// Code generated by pilot. DO NOT EDIT.", "", "package " ++ p.version, "",
      "// " ++ p.descriptor.kind ++ "Phase is the processing stage a " ++ p.descriptor.kind ++ " is in.",
      "type " ++ p.descriptor.kind ++ "Phase string", ""] ++ "const (" ::
        (p.descriptor.phases.map p.constantLine ++ ")" :: [""]) := by
  have hconstants : ((Series.phases.scenes (p.sceneOf .project)).flatMap fun s => [s.project.constantLine s.phase]) =
      p.descriptor.phases.map p.constantLine := by
    rw [flatMap_scenes fun p phase => [p.constantLine phase]]
    exact List.map_eq_flatMap.symm
  rw [Project.phasesLines, Form.lines, phasesForm]
  apply Eq.trans
  · apply linesThen_cells
    repeat with_reducible first
      | exact linesThen_break
      | apply linesThen_line
      | apply linesThen_each linesThen_constantLine
  · rw [hconstants]
    simp [cellsText, Field.text, Project.sceneOf, String.append_assoc]

theorem declared_eq (p : Project) : linesBetween "const (" ")" p.phasesLines = p.descriptor.phases.map p.constantLine := by
  rw [phasesLines_eq]
  refine linesBetween_append ?_ ?_
  · simp (disch := decide) [append_ne_of_headsDiffer, String.append_assoc]
  · rw [List.forall_mem_map]
    simp (disch := decide) [Project.constantLine, append_ne_of_headsDiffer, String.append_assoc]

theorem phasesFile_mem (p : Project) : ∃ f ∈ p.laidOut p.plan, f.outputPath = p.typesImportPath ++ "/phases.go" ∧
    f.content = "\n".intercalate p.phasesLines := by
  have hplanned : ⟨p.typesImportPath ++ "/phases.go", "code/phases.go.tera", false, false, .project⟩ ∈ p.plan :=
    List.mem_append_left _ (.tail _ (.tail _ (.tail _ (.tail _ (.head _)))))
  refine ⟨_, List.mem_map_of_mem hplanned, rfl, ?_⟩
  rw [linesOf_of_form p (F := phasesForm) (.tail _ (.tail _ (.head _)))]
  rfl

end Lines

end Scaffold
