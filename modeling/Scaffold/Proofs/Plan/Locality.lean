import Scaffold.Proofs.Plan.Scheduler

/-! The files of a phase depend on nothing but the phase and what surrounds it in every project of that kind, version and
    module root (`Project.worker_files_alone`). The forms of their templates have blanks only for these, and no part that
    goes over the phases; the lines of such a form are the same in two projects that agree on the surroundings. -/

namespace Scaffold
open Template Form

/-! ### Forms that see one phase -/

/-- Projects that surround a phase alike. -/
structure Project.Akin (p q : Project) : Prop where
  kind : p.descriptor.kind = q.descriptor.kind
  version : p.version = q.version
  moduleRoot : p.moduleRoot = q.moduleRoot
  kindLowerCamel : p.kindLowerCamel = q.kindLowerCamel
  typesImportPath : p.typesImportPath = q.typesImportPath

/-- Whether what is filled in is of the phase or of its surroundings. -/
def Field.isLocal : Field → Bool
  | .group | .operatorName | .configImportPath | .schedulerImportPath => false
  | .version | .kind | .kindLowerCamel | .resource | .typesImportPath | .workerImportPath | .workerPackage | .phaseName
  | .phaseCamel | .description | .itemCamel => true

/-- Whether no part of a form sees more than one phase. -/
def Form.isLocal : Form → Bool
  | done => true
  | fixed _ rest | newline rest => rest.isLocal
  | field f rest => f.isLocal && rest.isLocal
  | each q body rest => q ≠ .phases && body.isLocal && rest.isLocal
  | choice _ yes no rest => yes.isLocal && no.isLocal && rest.isLocal

section Lines
variable {p q : Project}

theorem foldr_scenes_congr {s : Series} (hs : s ≠ .phases) (phase : Phase) (item : String)
    {one other : Scene → List String → List String}
    (hbody : ∀ item after, one ⟨p, phase, item⟩ after = other ⟨q, phase, item⟩ after) (after : List String) :
    (s.scenes ⟨p, phase, item⟩).foldr one after = (s.scenes ⟨q, phase, item⟩).foldr other after := by
  have hitems : ∀ items : List String, (items.map fun item => (⟨p, phase, item⟩ : Scene)).foldr one after =
      (items.map fun item => (⟨q, phase, item⟩ : Scene)).foldr other after := by
    intro items
    induction items with
    | nil => rfl
    | cons item items ih => rw [List.map_cons, List.map_cons, List.foldr_cons, List.foldr_cons, ih, hbody]
  -- the scenes of a series other than that of the phases differ in the item only
  cases s with
  | phases => exact absurd rfl hs
  | inputs => exact hitems phase.inputs
  | outputs => exact hitems phase.outputs

namespace Project.Akin
variable (h : p.Akin q)
include h

theorem workerImportPath (phase : Phase) : p.workerImportPath phase = q.workerImportPath phase := by
  rw [Project.workerImportPath, Project.workerImportPath, h.moduleRoot]

theorem text {f : Field} (hf : f.isLocal = true) (phase : Phase) (item : String) :
    f.text ⟨p, phase, item⟩ = f.text ⟨q, phase, item⟩ := by
  cases f with
  | group | operatorName | configImportPath | schedulerImportPath => cases hf
  | version => exact h.version
  | kind => exact h.kind
  | kindLowerCamel => exact h.kindLowerCamel
  | resource => simp only [Field.text, Project.pluralKind, h.kind]
  | typesImportPath => exact h.typesImportPath
  | workerImportPath => exact h.workerImportPath phase
  | workerPackage | phaseName | phaseCamel | description | itemCamel => rfl

/-- A form that sees one phase has the same lines in both projects. -/
theorem linesThen : ∀ {F : Form}, F.isLocal = true → ∀ (phase : Phase) (item : String) (after : List String),
    F.linesThen ⟨p, phase, item⟩ after = F.linesThen ⟨q, phase, item⟩ after
  | done, _, _, _, _ => rfl
  | fixed t rest, hF, phase, item, after => by rw [Form.linesThen, Form.linesThen, linesThen (F := rest) hF]
  | newline rest, hF, phase, item, after => by rw [Form.linesThen, Form.linesThen, linesThen (F := rest) hF]
  | field f rest, hF, phase, item, after => by
    obtain ⟨hf, hrest⟩ := Bool.and_eq_true_iff.mp hF
    rw [Form.linesThen, Form.linesThen, h.text hf, linesThen hrest]
  | each s body rest, hF, phase, item, after => by
    obtain ⟨hinner, hrest⟩ := Bool.and_eq_true_iff.mp hF
    obtain ⟨hs, hbody⟩ := Bool.and_eq_true_iff.mp hinner
    rw [Form.linesThen, Form.linesThen, linesThen hrest]
    exact foldr_scenes_congr (of_decide_eq_true hs) phase item (fun item after => linesThen hbody phase item after) _
  | choice c yes no rest, hF, phase, item, after => by
    obtain ⟨hbranches, hrest⟩ := Bool.and_eq_true_iff.mp hF
    obtain ⟨hyes, hno⟩ := Bool.and_eq_true_iff.mp hbranches
    have hcondition : c.holds ⟨p, phase, item⟩ = c.holds ⟨q, phase, item⟩ := by cases c <;> rfl
    rw [Form.linesThen, Form.linesThen, hcondition, linesThen hrest, linesThen hyes, linesThen hno]

end Project.Akin

end Lines

/-! ### The templates of phases -/

theorem exists_local_form : ∀ id ∈ phaseTemplates, ∃ F, shippedForm? id = some F ∧ F.isLocal = true := by
  simp only [phaseTemplates, List.forall_mem_cons, List.not_mem_nil, false_implies, implies_true, and_true]
  refine ⟨?_, ?_⟩
  -- a source is spelled before it is read, as in `shippedForm_eq`
  all_goals
    apply exists_form_of_toList rfl rfl
    · apply toList_wholeLines_cons rfl
      repeat with_reducible apply toList_wholeLines_cons rfl
      exact toList_wholeLines_nil
    · decide +kernel

section Files
variable {p q : Project} {phase : Phase}

theorem templateId_of_mem_phaseFiles {f : PlannedFile} (hf : f ∈ p.phaseFiles phase) :
    f.templateId ∈ phaseTemplates := by
  unfold Project.phaseFiles at hf
  split at hf
  · rcases List.mem_cons.mp hf with rfl | hf
    · exact .head _
    · rw [List.mem_singleton.mp hf]
      exact .tail _ (.head _)
  · cases hf

namespace Project.Akin
variable (h : p.Akin q)
include h

theorem phaseFiles : p.phaseFiles phase = q.phaseFiles phase := by
  rw [Project.phaseFiles, Project.phaseFiles, h.workerImportPath phase]

theorem linesOf {f : PlannedFile} (hf : f ∈ p.phaseFiles phase) : p.linesOf f = q.linesOf f := by
  obtain ⟨F, hF, hlocal⟩ := exists_local_form f.templateId (templateId_of_mem_phaseFiles hf)
  rw [Project.linesOf, Project.linesOf, hF, scope_of_mem_phaseFiles hf]
  exact h.linesThen hlocal phase "" [""]

end Project.Akin

theorem filter_laidOut (phase : Phase) :
    (p.laidOut p.plan).filter (·.scope = .phase phase) = p.laidOut (p.filesOf phase) := by
  rw [Project.laidOut, List.filter_map, Project.filesOf, Project.laidOut]
  rfl

end Files

/-! ### Loaded projects -/

theorem Project.kindLowerCamel_of_load {bytes : ByteArray} {root : Except RootError String} {p : Project}
    (h : load bytes root = .ok p) : p.kindLowerCamel = Naming.lowerCamel p.descriptor.kind := by
  obtain ⟨d, moduleRoot, -, hderive⟩ := derived_of_load h
  have hderived := derived_of_derive hderive
  rw [hderived.kindLowerCamel, hderived.descriptor]

section Loaded
variable {bytes bytes' : ByteArray} {root root' : Except RootError String} {p q : Project}

theorem Project.akin_of_load (hp : load bytes root = .ok p) (hq : load bytes' root' = .ok q)
    (hkind : p.descriptor.kind = q.descriptor.kind) (hversion : p.version = q.version)
    (hroot : p.moduleRoot = q.moduleRoot) : p.Akin q where
  kind := hkind
  version := hversion
  moduleRoot := hroot
  kindLowerCamel := by rw [kindLowerCamel_of_load hp, kindLowerCamel_of_load hq, hkind]
  typesImportPath := by
    rw [(typed_of_load hp).path, (typed_of_load hq).path, pluralKind, pluralKind, hkind, hversion, hroot]

/-- **The files of a phase do not depend on the other phases**: two loaded projects of one kind, version and module root
    that have a phase in common plan the same files for it, and generate them with the same contents, whatever their
    other phases, the order of the phases, the group and the operator name are. -/
theorem Project.worker_files_alone (hp : load bytes root = .ok p) (hq : load bytes' root' = .ok q)
    (hkind : p.descriptor.kind = q.descriptor.kind) (hversion : p.version = q.version)
    (hroot : p.moduleRoot = q.moduleRoot) {phase : Phase} (hphase : phase ∈ p.descriptor.phases)
    (hphase' : phase ∈ q.descriptor.phases) :
    p.filesOf phase = q.filesOf phase ∧ ∃ files files',
      (∀ (m : Type → Type) [Monad m] [LawfulMonad m], p.generate (Store.shipped : Store m) = pure (.ok files)) ∧
      (∀ (m : Type → Type) [Monad m] [LawfulMonad m], q.generate (Store.shipped : Store m) = pure (.ok files')) ∧
      files.map (·.toPlannedFile) = p.plan ∧ files'.map (·.toPlannedFile) = q.plan ∧
      files.filter (·.scope = .phase phase) = files'.filter (·.scope = .phase phase) := by
  have hpackaged := (loaded_of_load hp).packaged
  have hpackaged' := (loaded_of_load hq).packaged
  have hakin := akin_of_load hp hq hkind hversion hroot
  have hplanned : ∀ p : Project, (p.laidOut p.plan).map (·.toPlannedFile) = p.plan := fun p => by
    rw [laidOut, List.map_map]
    exact List.map_id _
  have hfiles : p.filesOf phase = q.filesOf phase := by
    rw [filesOf_eq_phaseFiles hpackaged hphase, filesOf_eq_phaseFiles hpackaged' hphase', hakin.phaseFiles]
  refine ⟨hfiles, _, _, generate_eq_lines hp, generate_eq_lines hq, hplanned p, hplanned q, ?_⟩
  rw [filter_laidOut, filter_laidOut, ← hfiles]
  refine List.map_congr_left fun f hf => ?_
  rw [filesOf_eq_phaseFiles hpackaged hphase] at hf
  rw [hakin.linesOf hf]

end Loaded

/-- A project of the kind and version of `climbing`, with one of its phases in another place. -/
def Project.resting : Project where
  descriptor := ⟨"b/..", "Policy", some "ops", [⟨"run", none, [], ["y"]⟩, ⟨"other", some "d", ["z"], []⟩]⟩
  moduleRoot := "m"
  group := "b"
  version := ".."
  typesImportPath := "m/pkg/apis/policies/.."
  schedulerImportPath := "m/pkg/scheduler"
  configImportPath := "m/pkg/config"
  kindLowerCamel := "policy"
  operatorName := "ops"

theorem Project.load_resting : load (Text.encode ("apiVersion: b/..\nkind: Policy\noperatorName: ops\nphases:\n" ++
    "- name: run\n  outputs: [y]\n- name: other\n  description: d\n  inputs: [z]\n")) (.ok "m") = .ok resting :=
  eq_ok_of_toOption (by decide +kernel)

/-- The phase `run`, the last of three in one project and the first of two in another, has the same two files. -/
theorem Project.worker_files_alone_climbing :
    load (Text.encode ("apiVersion: a/..\nkind: Policy\nphases:\n- name: Build\n  inputs: [x]\n" ++
      "- name: idle\n- name: run\n  outputs: [y]\n")) (.ok "m") = .ok climbing ∧
    load (Text.encode ("apiVersion: b/..\nkind: Policy\noperatorName: ops\nphases:\n" ++
      "- name: run\n  outputs: [y]\n- name: other\n  description: d\n  inputs: [z]\n")) (.ok "m") = .ok resting ∧
    (climbing.filesOf ⟨"run", none, [], ["y"]⟩).map (·.outputPath) =
      ["m/pkg/workers/run/parameters.go", "m/pkg/workers/run/worker.go"] ∧
    climbing.filesOf ⟨"run", none, [], ["y"]⟩ = resting.filesOf ⟨"run", none, [], ["y"]⟩ ∧
    ∃ files files', climbing.generate (m := Id) Store.shipped = .ok files ∧
      resting.generate (m := Id) Store.shipped = .ok files' ∧
      files.filter (·.scope = .phase ⟨"run", none, [], ["y"]⟩) =
        files'.filter (·.scope = .phase ⟨"run", none, [], ["y"]⟩) := by
  have hphase : ⟨"run", none, [], ["y"]⟩ ∈ climbing.descriptor.phases := by decide
  obtain ⟨hfiles, files, files', hgenerate, hgenerate', -, -, hsame⟩ :=
    worker_files_alone load_climbing load_resting rfl rfl rfl hphase (by decide)
  exact ⟨load_climbing, load_resting, by decide, hfiles, files, files', hgenerate Id, hgenerate' Id, hsame⟩

end Scaffold
