import Scaffold.Plan.Generate
import Scaffold.Proofs.Template.Kinds

/-! The shipped templates render for every project. What templates can see of a project and of a phase is written down
    as two sights; the contexts are as these say, whatever the project is, and each shipped source is accepted under
    the sight of its files. So a plan is generated file by file, and no file is empty (`Project.generate_shipped`). -/

namespace Scaffold
open Template

/-! ### Contexts -/

theorem forall_of_lookup {α β : Type} [BEq α] [LawfulBEq α] {P : α → β → Prop} {entries : List (α × β)}
    (h : ∀ entry ∈ entries, P entry.1 entry.2) (x : α) (y : β) (hlookup : entries.lookup x = some y) : P x y := by
  obtain ⟨before, after, rfl, -⟩ := List.lookup_eq_some_iff.mp hlookup
  exact h (x, y) (by simp)

theorem lookup_optionalField_append {x name : String} (hx : x ≠ name) (value : Option String)
    (rest : List (String × Json)) : (optionalField name value ++ rest).lookup x = rest.lookup x := by
  cases value with
  | none => rfl
  | some s => simp [optionalField, Pairs.lookup_cons, hx]

section Project
variable (p : Project)

/-- The names of the phases of a project. -/
def Project.phaseNames : List String := p.descriptor.phases.map (·.name)

theorem exists_phase_of_mem {s : String} (hs : s ∈ p.phaseNames) :
    ∃ phase, p.descriptor.phases.reverse.find? (·.name = s) = some phase := by
  obtain ⟨phase, hphase, rfl⟩ := List.mem_map.mp hs
  exact Option.isSome_iff_exists.mp (List.find?_isSome.mpr ⟨phase, List.mem_reverse.mpr hphase, by simp⟩)

end Project

/-! ### The sources -/

theorem toList_wholeLines_cons {line : String} {lines : List String} {chars rest : List Char}
    (hline : line = String.ofList chars) (hrest : (Shipped.wholeLines lines).toList = rest) :
    (Shipped.wholeLines (line :: lines)).toList = chars ++ '\n' :: rest := by
  subst hline hrest
  simp [Shipped.wholeLines]

theorem toList_wholeLines_nil : (Shipped.wholeLines []).toList = [] := by simp [Shipped.wholeLines]

/-- The templates of the files of a phase. -/
def phaseTemplates : List String := ["code/parameters.go.tera", "code/worker.go.tera"]

def phaseSources : List (String × String) := Shipped.sources.filter (phaseTemplates.contains ·.1)

def projectSources : List (String × String) := Shipped.sources.filter (!phaseTemplates.contains ·.1)

theorem normalId_eq_self {id : String} (h : '\\' ∉ id.toList) : normalId id = id := by
  have hsame : id.toList.map (fun c => if c = '\\' then '/' else c) = id.toList := by
    refine (List.map_congr_left fun c hc => if_neg ?_).trans (List.map_id' _)
    rintro rfl
    exact h hc
  rw [normalId, hsame, String.ofList_toList]

/-- The store finds every source under its identifier, which is in normal form. -/
theorem lookup_sources : ∀ entry ∈ Shipped.sources,
    normalId entry.1 = entry.1 ∧ Shipped.sources.lookup entry.1 = some entry.2 := by
  simp only [Shipped.sources, List.forall_mem_cons, List.not_mem_nil, false_implies, implies_true, and_true]
  refine ⟨?_, ?_, ?_, ?_, ?_, ?_, ?_, ?_, ?_, ?_, ?_, ?_, ?_⟩
  all_goals exact ⟨normalId_eq_self (by decide), rfl⟩

/-! ### Files -/

/-- A planned file is of the project or of one of its phases, and so is its template. -/
theorem template_of_mem_plan {p : Project} {f : PlannedFile} (hf : f ∈ p.plan) :
    (f.scope = .project ∧ ∃ source, (f.templateId, source) ∈ projectSources) ∨
      ∃ phase ∈ p.descriptor.phases, f.scope = .phase phase ∧ ∃ source, (f.templateId, source) ∈ phaseSources := by
  have hsource : ∀ {sources : List (String × String)}, f.templateId ∈ sources.map (·.1) →
      ∃ source, (f.templateId, source) ∈ sources := fun h => by
    obtain ⟨⟨id, source⟩, hmem, rfl⟩ := List.mem_map.mp h
    exact ⟨source, hmem⟩
  rcases List.mem_append.mp hf with hf | hf
  · have hids : p.projectFiles.map (·.templateId) = projectSources.map (·.1) := rfl
    have hscopes : p.projectFiles.map (·.scope) = List.replicate 11 .project := rfl
    exact .inl ⟨List.eq_of_mem_replicate (hscopes ▸ List.mem_map_of_mem hf),
      hsource (hids ▸ List.mem_map_of_mem hf)⟩
  · obtain ⟨phase, hphase, hf⟩ := List.mem_flatMap.mp hf
    have hfile : f.scope = .phase phase ∧ f.templateId ∈ phaseSources.map (·.1) := by
      unfold Project.phaseFiles at hf
      split at hf
      · rcases List.mem_cons.mp hf with rfl | hf
        · exact ⟨rfl, .head _⟩
        · obtain rfl := List.mem_singleton.mp hf
          exact ⟨rfl, .tail _ (.head _)⟩
      · cases hf
    exact .inr ⟨phase, hphase, hfile.1, hsource hfile.2⟩

theorem phase?_of_mem {p : Project} {phase : Phase} (hphase : phase ∈ p.descriptor.phases) :
    ∃ found ∈ p.descriptor.phases, p.phase? phase.name = some found ∧ found.name = phase.name := by
  have hsome : (p.phase? phase.name).isSome := List.find?_isSome.mpr ⟨phase, hphase, by simp⟩
  obtain ⟨found, hfound⟩ := Option.isSome_iff_exists.mp hsome
  exact ⟨found, List.mem_of_find?_eq_some hfound, hfound, by simpa using List.find?_some hfound⟩

end Scaffold
