import Scaffold.Proofs.Naming.Keywords
import Scaffold.Proofs.Plan.Answers

/-! The names that generated code declares (`Descriptor.names_declared`): the packages of workers, and in the scheduler a
    variable called after the kind. The check makes identifiers of them, but it knows nothing of the words that Go
    reserves, so the names may be declared exactly if kind and phases do not become one of these. -/

namespace Scaffold
open Naming Text Template

/-- An identifier that is not reserved. -/
def Usable (name : String) : Prop := Identifier name ∧ name ∉ goKeywords

/-- What becomes of the names in a descriptor. -/
structure Descriptor.NamesFit (d : Descriptor) : Prop where
  kind : Identifier (lowerCamel d.kind)
  kindUsable : Usable (lowerCamel d.kind) ↔ ∀ word ∈ goKeywords, d.kind.toList ∉ styles word.toList
  package : ∀ phase ∈ d.phases, Identifier phase.workerPackage
  spelled : ∀ phase ∈ d.phases, asciiName? phase.name.toList = some phase.workerPackage.toList
  packageUsable : ∀ phase ∈ d.phases, Usable phase.workerPackage ↔
    ∀ word ∈ goKeywords, asciiName? phase.name.toList ≠ some word.toList

/-- Where the names are declared. -/
structure Project.DeclaresNames (p : Project) (files : List GeneratedFile) : Prop where
  contents : ∀ f ∈ files, f.content = "\n".intercalate (p.linesOf f.toPlannedFile)
  kind : p.kindLowerCamel = lowerCamel p.descriptor.kind
  declaration : ∃ f ∈ files, f.outputPath = p.schedulerImportPath ++ "/scheduler.go" ∧
    "\tvar " ++ p.kindLowerCamel ++ " " ++ p.version ++ "." ++ p.descriptor.kind ∈ p.linesOf f.toPlannedFile
  workers : ∀ phase ∈ p.descriptor.phases, p.filesOf phase ≠ [] → ∃ f ∈ files, f.scope = .phase phase
  clauses : ∀ f ∈ files, ∀ phase, f.scope = .phase phase →
    packageClause? (p.linesOf f.toPlannedFile) = some ("package " ++ phase.workerPackage)

/-! ### Names -/

theorem identifier_lowerCamel {kind : String} (h : Identifier kind) : Identifier (lowerCamel kind) := by
  have hs := (isWord_of_identifier h).2
  obtain ⟨c, rest, hkind, hc, -⟩ := h
  rw [hkind] at hs
  obtain ⟨tail, htail, hletters⟩ := exists_lowerCamelChars hs
  have hfirst : c.toLower.isAlpha = true := by
    rw [Char.isAlpha_toLower_eq_isAlpha]
    exact isAlpha_iff.mpr hc
  refine ⟨c.toLower, tail, ?_, isAlpha_iff.mp hfirst, fun x hx => isAlphanum_iff.mp (hletters x hx)⟩
  rw [lowerCamel, String.toList_ofList, hkind, htail]

theorem usable_iff {name : String} (h : Identifier name) {reserved : Prop} (hreserved : name ∈ goKeywords ↔ reserved) :
    Usable name ↔ ¬reserved := by
  rw [Usable, and_iff_right h, hreserved]

theorem Descriptor.namesFit {d : Descriptor} (hkind : Identifier d.kind) (hpackaged : Packaged d.phases) : d.NamesFit := by
  have hpackage : ∀ phase ∈ d.phases, Identifier phase.workerPackage := fun phase hphase =>
    isIdentifier_iff.mp (hpackaged.identifiers phase hphase)
  refine ⟨identifier_lowerCamel hkind, ?_, hpackage, fun phase hphase => ?_, fun phase hphase => ?_⟩
  · rw [usable_iff (identifier_lowerCamel hkind) (lowerCamel_mem_iff (isWord_of_identifier hkind).2)]
    simp only [not_exists, not_and]
  · rw [asciiName?_eq, ascii?_eq_some]
    exact ⟨rfl, (isWord_of_identifier (hpackage phase hphase)).2⟩
  · rw [usable_iff (hpackage phase hphase) (packageName_mem_iff phase.name)]
    simp only [not_exists, not_and, ne_eq]

/-! ### Declarations -/

section
variable {p : Project}

theorem clause_of_phase (h : p.Loaded) {f : PlannedFile} {phase : Phase} (hf : f ∈ p.plan) (hscope : f.scope = .phase phase) :
    packageClause? (p.linesOf f) = some ("package " ++ phase.workerPackage) := by
  obtain ⟨hfile, hphase⟩ := mem_filesOf hf hscope
  have hdirectory := directory_of_mem_filesOf h hphase hfile
  rw [filesOf_eq_phaseFiles h.packaged hphase] at hfile
  have hmain : f.outputPath ≠ p.moduleRoot ++ "/main.go" := fun heq => by
    rw [path_of_mem_phaseFiles hfile] at heq
    simp [← String.toList_inj] at heq
  rw [(goFits_phaseFiles h.packaged hphase f hfile).clause, if_neg hmain, hdirectory, packageOf_workerImportPath h hphase]

theorem declaresNames_of_derived {d : Descriptor} (h : p.Derived d) (hloaded : p.Loaded) :
    p.DeclaresNames (p.laidOut p.plan) := by
  refine ⟨content_of_mem_laidOut, by rw [h.kindLowerCamel, h.descriptor], ?_, ?_, ?_⟩
  · have hplanned : ⟨p.schedulerImportPath ++ "/scheduler.go", "code/scheduler.go.tera", false, false, .project⟩ ∈ p.plan :=
      List.mem_append_left _ (.tail _ (.head _))
    refine ⟨_, List.mem_map_of_mem hplanned, rfl, ?_⟩
    have hlines : p.linesOf ⟨p.schedulerImportPath ++ "/scheduler.go", "code/scheduler.go.tera", false, false, .project⟩ =
        p.schedulerLines := linesOf_of_form p (F := schedulerForm) (.head _)
    rw [hlines, schedulerLines_of_packaged hloaded.packaged]
    simp [Project.switchStart]
  · intro phase _ hfiles
    obtain ⟨f, hf⟩ := List.exists_mem_of_ne_nil _ hfiles
    obtain ⟨hplanned, hscope⟩ := List.mem_filter.mp hf
    exact ⟨_, List.mem_map_of_mem hplanned, of_decide_eq_true hscope⟩
  · intro f hf phase hscope
    obtain ⟨planned, hplanned, rfl⟩ := List.mem_map.mp hf
    exact clause_of_phase hloaded hplanned hscope

end

/-- **The names that generated code declares**: in an accepted descriptor the kind and the phases become identifiers, and
    they may be declared exactly if the kind is no reserved word in lower case, capitalised or in upper case, and no phase
    is spelled as a reserved word. At every module root these are the names that the generated files declare. -/
theorem Descriptor.names_declared {d : Descriptor} (h : d.validate = .ok ()) : d.NamesFit ∧
    ∀ root p, Project.derive d root = .ok p → p.descriptor = d ∧
      ∃ files, (∀ (m : Type → Type) [Monad m] [LawfulMonad m], p.generate (Store.shipped : Store m) = pure (.ok files)) ∧
        p.DeclaresNames files := by
  have hpackaged := packaged_of_validate h
  refine ⟨namesFit (identifier_of_validate h) hpackaged, fun root p hp => ?_⟩
  have hderived := Project.derived_of_derive hp
  have hloaded := Project.loaded_of_derive hp hpackaged
  refine ⟨hderived.descriptor, p.laidOut p.plan, fun m _ _ => ?_, declaresNames_of_derived hderived hloaded⟩
  exact Project.generateFiles_eq_lines (Project.answers_of_packaged hloaded.packaged) fun _ hf => hf

/-- A project whose kind and phase become reserved words. -/
def Project.reserved : Project :=
  { sample with
    descriptor := ⟨"a/v1", "Type", none, [⟨"func", none, ["x"], []⟩]⟩
    typesImportPath := "m/pkg/apis/types/v1"
    kindLowerCamel := "type" }

/-- The kind `Type` and the phase `func` are accepted, and the generated code declares `type` and `func`. -/
theorem Descriptor.names_declared_reserved :
    Project.reserved.descriptor.validate = .ok () ∧ Project.reserved.descriptor.NamesFit ∧
    ¬Usable (lowerCamel Project.reserved.descriptor.kind) ∧
    (∀ phase ∈ Project.reserved.descriptor.phases, ¬Usable phase.workerPackage) ∧
    Project.derive Project.reserved.descriptor "m" = .ok Project.reserved ∧
    ∃ files, (∀ (m : Type → Type) [Monad m] [LawfulMonad m],
        Project.reserved.generate (Store.shipped : Store m) = pure (.ok files)) ∧
      (∃ f ∈ files, "\tvar type v1.Type" ∈ Project.reserved.linesOf f.toPlannedFile) ∧
      ∃ f ∈ files, packageClause? (Project.reserved.linesOf f.toPlannedFile) = some "package func" := by
  have hvalid : Project.reserved.descriptor.validate = .ok () := eq_ok_of_toOption (by decide +kernel)
  have hderive : Project.derive Project.reserved.descriptor "m" = .ok Project.reserved :=
    eq_ok_of_toOption (by decide +kernel)
  obtain ⟨hfits, hemitted⟩ := names_declared hvalid
  obtain ⟨-, files, hgenerate, hdeclares⟩ := hemitted "m" Project.reserved hderive
  have hpackage : (⟨"func", none, ["x"], []⟩ : Phase).workerPackage = "func" := by decide +kernel
  refine ⟨hvalid, hfits, fun husable => ?_, fun phase hphase husable => ?_, hderive, files, hgenerate, ?_, ?_⟩
  · exact hfits.kindUsable.mp husable "type" (by decide) (by decide +kernel)
  · obtain rfl := List.mem_singleton.mp hphase
    exact hfits.packageUsable _ hphase |>.mp husable "func" (by decide) (by decide +kernel)
  · obtain ⟨f, hf, -, hline⟩ := hdeclares.declaration
    exact ⟨f, hf, hline⟩
  · obtain ⟨f, hf, hscope⟩ := hdeclares.workers ⟨"func", none, ["x"], []⟩ (by decide) (by decide +kernel)
    refine ⟨f, hf, ?_⟩
    rw [hdeclares.clauses f hf _ hscope, hpackage]
    rfl

end Scaffold
