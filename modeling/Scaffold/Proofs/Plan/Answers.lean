import Scaffold.Proofs.Plan.ImportNames

/-! What templates are told of phases (`Project.tables_tell`). Of phases with one name the first is found and the last
    answers, so it is loading, which keeps the packages of phases apart, that makes every phase speak for itself. -/

namespace Scaffold
open Template

/-! ### Facts and tables -/

section
variable (p : Project)

/-- What there is to know of a phase, under the names of the functions that tell it. -/
def Project.facts (phase : Phase) : List (String × Json) :=
  [("has_inputs", .bool (phase.inputs ≠ [])), ("has_outputs", .bool (phase.outputs ≠ [])),
   ("worker_import_path", .str (p.workerImportPath phase)), ("worker_package", .str phase.workerPackage)]

/-- The tables of the project and of each of its phases. -/
def Project.tables : List FunctionTable :=
  p.context.table :: p.descriptor.phases.map fun phase => (p.phaseContext phase).table

end

/-- The functions tell the facts of a phase. -/
structure Project.TellsOf (p : Project) (phase : Phase) : Prop where
  found : p.phase? phase.name = some phase
  named : ∀ t ∈ p.tables, ∀ args : Arguments, args.lookup "phase" = some (.str phase.name) →
    ∀ name fact, (name, fact) ∈ p.facts phase → t.call? name args = some (.ok fact)
  own : ∀ args : Arguments, args.lookup "phase" = none → ∀ name fact, (name, fact) ∈ p.facts phase →
    (p.phaseContext phase).table.call? name args = some (.ok fact)
  /-- the serialised phase has the same under the same names -/
  fields : ∀ name ∈ ["worker_import_path", "worker_package"],
    (p.phaseContext phase).bindings.lookup name = (p.facts phase).lookup name
  directory : ∀ f ∈ p.filesOf phase,
    f.directory = p.workerImportPath phase ∧ packageOf f.directory = phase.workerPackage

/-- What is told in the tables of a project. -/
structure Project.Tells (p : Project) : Prop where
  phases : ∀ phase ∈ p.descriptor.phases, p.TellsOf phase
  functions : ∀ t ∈ p.tables, t.functionNames = ["has_inputs", "has_outputs", "worker_import_path", "worker_package"]
  unknown : ∀ t ∈ p.tables, ∀ (args : Arguments) (s : String), args.lookup "phase" = some (.str s) →
    s ∉ p.descriptor.phases.map (·.name) → ∀ name ∈ t.functionNames,
      t.call? name args = some (.error ("`" ++ name ++ "`: unknown phase '" ++ s ++ "'"))

/-! ### Calls -/

section
variable {p : Project} {phase : Phase} {args : Arguments}

theorem facts_eq (p : Project) (phase : Phase) :
    p.facts phase = p.phaseQueries.map fun (name, query) => (name, query phase) := by
  have hempty (l : List String) : decide (l ≠ []) = !l.isEmpty := by cases l <;> rfl
  simp only [Project.facts, hempty]
  rfl

theorem call?_capabilities {name : String} {query : Phase → Json} (hquery : (name, query) ∈ p.phaseQueries)
    (current : Option String) (args : Arguments) :
    (p.capabilities current).call? name args = some (p.ask current name query args) := by
  simp only [Project.phaseQueries, List.mem_cons, List.not_mem_nil, or_false, Prod.mk.injEq] at hquery
  rcases hquery with ⟨rfl, rfl⟩ | ⟨rfl, rfl⟩ | ⟨rfl, rfl⟩ | ⟨rfl, rfl⟩ <;> rfl

theorem exists_query_of_fact {name : String} {fact : Json} (h : (name, fact) ∈ p.facts phase) :
    ∃ query, (name, query) ∈ p.phaseQueries ∧ query phase = fact := by
  rw [facts_eq] at h
  obtain ⟨⟨name, query⟩, hmem, heq⟩ := List.mem_map.mp h
  cases heq
  exact ⟨query, hmem, rfl⟩

theorem exists_capabilities_of_mem_tables {t : FunctionTable} (h : t ∈ p.tables) :
    ∃ current, t = p.capabilities current := by
  rcases List.mem_cons.mp h with rfl | h
  · exact ⟨none, rfl⟩
  · obtain ⟨phase, -, rfl⟩ := List.mem_map.mp h
    exact ⟨some phase.name, rfl⟩

theorem ask_unknown (current : Option String) (name : String) (query : Phase → Json) {s : String}
    (hargs : args.lookup "phase" = some (.str s)) (hs : s ∉ p.descriptor.phases.map (·.name)) :
    p.ask current name query args = .error ("`" ++ name ++ "`: unknown phase '" ++ s ++ "'") := by
  have hnone : p.descriptor.phases.reverse.find? (·.name = s) = none := by
    rw [List.find?_eq_none]
    intro phase hphase hname
    exact hs (List.mem_map.mpr ⟨phase, List.mem_reverse.mp hphase, of_decide_eq_true hname⟩)
  simp [Project.ask, hargs, hnone, bind, Except.bind, throw, throwThe, MonadExceptOf.throw, pure, Except.pure]

theorem directory_of_mem_filesOf (h : p.Loaded) (hphase : phase ∈ p.descriptor.phases) {f : PlannedFile}
    (hf : f ∈ p.filesOf phase) : f.directory = p.workerImportPath phase := by
  rw [filesOf_eq_phaseFiles h.packaged hphase] at hf
  have hpath : f.outputPath = p.workerImportPath phase ++ "/" ++ nameOf f := by
    rw [path_of_mem_phaseFiles hf, Project.workerImportPath, ← String.toList_inj]
    simp
  refine directory_of_append hpath ?_
  rcases name_of_mem_phaseFiles hf with heq | heq <;> rw [heq] <;> decide

theorem tellsOf_of_loaded (h : p.Loaded) (hphase : phase ∈ p.descriptor.phases) : p.TellsOf phase := by
  have hanswers : p.Answers := Project.answers_of_packaged h.packaged
  refine ⟨hanswers.phase? hphase, ?_, ?_, ?_, fun f hf => ?_⟩
  · intro t ht args hargs name fact hfact
    obtain ⟨current, rfl⟩ := exists_capabilities_of_mem_tables ht
    obtain ⟨query, hquery, rfl⟩ := exists_query_of_fact hfact
    rw [call?_capabilities hquery, hanswers.ask_named hphase current name query hargs]
  · intro args hargs name fact hfact
    obtain ⟨query, hquery, rfl⟩ := exists_query_of_fact hfact
    exact (call?_capabilities hquery ..).trans (congrArg some (hanswers.ask_current hphase name query hargs))
  · intro name hname
    have hdescription : name ≠ "description" := fun heq => absurd (heq ▸ hname) (by decide)
    rw [Project.phaseContext, Project.phaseJson, Json.fields, lookup_optionalField_append hdescription]
    simp only [List.mem_cons, List.not_mem_nil, or_false] at hname
    rcases hname with rfl | rfl <;> rfl
  · have hdirectory := directory_of_mem_filesOf h hphase hf
    exact ⟨hdirectory, by rw [hdirectory, packageOf_workerImportPath h hphase]⟩

end

/-- **The tables tell the truth about phases**: for every loaded project, each phase is answered for with its own facts,
    wherever it is asked for by name and where it is the current one, and no other name is answered. -/
theorem Project.tables_tell {bytes : ByteArray} {root : Except RootError String} {p : Project}
    (h : load bytes root = .ok p) : p.Tells := by
  refine ⟨fun phase => tellsOf_of_loaded (loaded_of_load h), ?_, ?_⟩
  · intro t ht
    obtain ⟨current, rfl⟩ := exists_capabilities_of_mem_tables ht
    rfl
  · intro t ht args s hargs hs name hname
    obtain ⟨current, rfl⟩ := exists_capabilities_of_mem_tables ht
    have hquery : ∃ query, (name, query) ∈ p.phaseQueries := by
      simp only [FunctionTable.functionNames, capabilities, List.map_map, List.mem_map] at hname
      obtain ⟨⟨name, query⟩, hmem, rfl⟩ := hname
      exact ⟨query, hmem⟩
    obtain ⟨query, hquery⟩ := hquery
    rw [call?_capabilities hquery, ask_unknown current name query hargs hs]

/-- A project with a phase that reads and writes, and one that does neither. -/
def Project.paired : Project :=
  { sample with descriptor := ⟨"a/v1", "K", none, [⟨"build-image", none, ["x"], ["y"]⟩, ⟨"noop", none, [], []⟩]⟩ }

/-- In the table of the second phase, a call is about the second phase or about the first where it is named; the package
    of the first is no name. -/
theorem Project.tables_tell_paired :
    load (Text.encode "apiVersion: a/v1\nkind: K\nphases:\n- name: build-image\n  inputs: [x]\n  outputs: [y]\n- name: noop\n")
      (.ok "m") = .ok paired ∧
    (paired.capabilities (some "noop")).call? "has_inputs" [] = some (.ok (.bool false)) ∧
    (paired.capabilities (some "noop")).call? "worker_package" [("phase", .str "build-image")] =
      some (.ok (.str "buildimage")) ∧
    (paired.capabilities (some "noop")).call? "has_outputs" [("phase", .str "buildimage")] =
      some (.error "`has_outputs`: unknown phase 'buildimage'") := by
  have hload : load (Text.encode
      "apiVersion: a/v1\nkind: K\nphases:\n- name: build-image\n  inputs: [x]\n  outputs: [y]\n- name: noop\n") (.ok "m") =
      .ok paired := eq_ok_of_toOption (by decide +kernel)
  obtain ⟨hphases, -, hunknown⟩ := tables_tell hload
  have hbuild := hphases ⟨"build-image", none, ["x"], ["y"]⟩ (by decide)
  have hnoop := hphases ⟨"noop", none, [], []⟩ (by decide)
  have htable : paired.capabilities (some "noop") ∈ paired.tables :=
    List.mem_cons_of_mem _ (List.mem_cons_of_mem _ List.mem_cons_self)
  refine ⟨hload, ?_, ?_, ?_⟩
  · exact hnoop.own [] rfl _ _ List.mem_cons_self
  · have hpackage : ("worker_package", Json.str "buildimage") ∈ paired.facts ⟨"build-image", none, ["x"], ["y"]⟩ := by
      have hname : (⟨"build-image", none, ["x"], ["y"]⟩ : Phase).workerPackage = "buildimage" := by decide +kernel
      simp [Project.facts, hname]
    exact hbuild.named _ htable _ rfl _ _ hpackage
  · exact hunknown _ htable [("phase", .str "buildimage")] "buildimage" rfl (by decide) "has_outputs" (by decide)

end Scaffold
