import Scaffold.Proofs.Plan.Reading

/-! The lines of generated files. Every shipped template is read as a form, so that generating a project comes to
    laying out the lines of these forms (`Project.generate_eq_lines`). Of the lines one can ask what a reader of
    Go asks first: which is the package clause, and what stands between two lines. -/

namespace Scaffold
open Template

/-! ### Lines of files -/

/-- The form of a shipped template. -/
def shippedForm? (id : String) : Option Form :=
  (Shipped.sources.lookup id).bind fun source =>
    Form.ofSource? (if phaseTemplates.contains id then .phase else .project) source.toList

/-- What the template of a file is filled in for. -/
def Project.sceneOf (p : Project) : FileScope → Scene
  | .project => ⟨p, default, ""⟩
  | .phase phase => ⟨p, phase, ""⟩

/-- The lines of a file as its template lays them out. The last one is what stands behind the last line break. -/
def Project.linesOf (p : Project) (f : PlannedFile) : List String :=
  (shippedForm? f.templateId).elim [] (·.lines (p.sceneOf f.scope))

/-! ### Lines of Go -/

/-- Whether a line is a comment. -/
def isComment (line : String) : Bool := ['/', '/'].isPrefixOf line.toList

/-- The package clause of a Go file: the first line that is neither empty nor a comment. -/
def packageClause? (lines : List String) : Option String := lines.find? fun line => !(line = "" || isComment line)

/-- The lines behind the first line `start` and in front of the next line `stop`. -/
def linesBetween (start stop : String) (lines : List String) : List String :=
  ((lines.dropWhile (· ≠ start)).drop 1).takeWhile (· ≠ stop)

theorem linesBetween_append {start stop : String} {before inner after : List String}
    (hbefore : ∀ line ∈ before, line ≠ start) (hinner : ∀ line ∈ inner, line ≠ stop) :
    linesBetween start stop (before ++ start :: (inner ++ stop :: after)) = inner := by
  have hstart : (before ++ start :: (inner ++ stop :: after)).dropWhile (· ≠ start) =
      start :: (inner ++ stop :: after) := by
    rw [List.dropWhile_append_of_pos (by simpa using hbefore)]
    simp
  rw [linesBetween, hstart, List.drop_one, List.tail_cons, List.takeWhile_append_of_pos (by simpa using hinner)]
  simp

theorem linesBetween_of_notMem {start stop : String} {lines : List String} (h : ∀ line ∈ lines, line ≠ start) :
    linesBetween start stop lines = [] := by
  have hstart : lines.dropWhile (· ≠ start) = [] := by
    rw [← List.append_nil lines, List.dropWhile_append_of_pos (by simpa using h)]
    rfl
  rw [linesBetween, hstart]
  rfl

/-- Whether two texts are different because they begin differently. -/
def headsDiffer (a b : String) : Bool := a ≠ "" && a.toList.head? != b.toList.head?

theorem append_ne_of_headsDiffer {a b c : String} (h : headsDiffer a c = true) : a ++ b ≠ c := by
  rintro rfl
  simp only [headsDiffer, Bool.and_eq_true, decide_eq_true_eq, bne_iff_ne, ne_eq, String.toList_append] at h
  obtain ⟨hne, hhead⟩ := h
  cases ha : a.toList with
  | nil => exact hne (String.toList_eq_nil_iff.mp ha)
  | cons x xs => simp [ha] at hhead

theorem ne_of_head {a b : String} {c : Char} (ha : a.toList.head? = some c) (hb : b.toList.head? ≠ some c) : a ≠ b := by
  rintro rfl
  exact hb ha

/-- The lines of a Go file with that package clause and those imports. -/
structure GoLines (lines : List String) (clause : String) (imports : List String) : Prop where
  clause : packageClause? lines = some clause
  imports : linesBetween "import (" ")" lines = imports

section Clause
variable (comments : List String) {rest : List String} {clause : String}

/-- A line that begins like a package clause is one, behind empty lines and comments. -/
theorem packageClause_append (hcomments : ∀ line ∈ comments, line = "" ∨ isComment line = true)
    (hclause : clause.toList.head? = some 'p') : packageClause? (comments ++ clause :: rest) = some clause := by
  have hcounts : clause ≠ "" ∧ isComment clause = false := by
    refine ⟨ne_of_head hclause (by decide), ?_⟩
    rw [isComment]
    cases hchars : clause.toList with
    | nil => rfl
    | cons c chars =>
      rw [hchars, List.head?_cons] at hclause
      cases hclause
      rfl
  rw [packageClause?, List.find?_append, List.find?_eq_none.mpr, Option.none_or, List.find?_cons_of_pos]
  · simp [hcounts]
  · intro line hline
    rcases hcomments line hline with rfl | hcomment <;> simp [*]

theorem front_ne_import (hcomments : ∀ line ∈ comments, line = "" ∨ isComment line = true)
    (hclause : clause.toList.head? = some 'p') : ∀ line ∈ comments ++ [clause, ""], line ≠ "import (" := by
  rw [List.forall_mem_append]
  refine ⟨fun line hline => ?_, by simpa using ne_of_head hclause (by decide)⟩
  rcases hcomments line hline with rfl | hcomment
  · decide
  · rintro rfl
    exact absurd hcomment (by decide)

theorem GoLines.of_plain (hcomments : ∀ line ∈ comments, line = "" ∨ isComment line = true)
    (hclause : clause.toList.head? = some 'p') (hrest : ∀ line ∈ rest, line ≠ "import (") :
    GoLines (comments ++ clause :: "" :: rest) clause [] := by
  refine ⟨packageClause_append comments hcomments hclause, linesBetween_of_notMem ?_⟩
  have hsplit : comments ++ clause :: "" :: rest = (comments ++ [clause, ""]) ++ rest := by simp
  rw [hsplit, List.forall_mem_append]
  exact ⟨front_ne_import comments hcomments hclause, hrest⟩

theorem GoLines.of_imports {imports : List String} (hcomments : ∀ line ∈ comments, line = "" ∨ isComment line = true)
    (hclause : clause.toList.head? = some 'p') (himports : ∀ line ∈ imports, line ≠ ")") :
    GoLines (comments ++ clause :: "" :: "import (" :: (imports ++ ")" :: rest)) clause imports := by
  refine ⟨packageClause_append comments hcomments hclause, ?_⟩
  have hsplit : comments ++ clause :: "" :: "import (" :: (imports ++ ")" :: rest) =
      (comments ++ [clause, ""]) ++ "import (" :: (imports ++ ")" :: rest) := by simp
  rw [hsplit]
  exact linesBetween_append (front_ne_import comments hcomments hclause) himports

end Clause

/-! ### The shipped templates -/

section Shipped
open Form

/-- How a Go file with imports begins. -/
structure GoHead where
  /-- whether the file says that it is generated -/
  banner : Bool
  clause : List Cell
  imports : List (List Cell)

namespace GoHead

def form (h : GoHead) : Form :=
  let imports := line [] <| line ["import ("] <| h.imports.foldr line (line [")"] <| line [] .done)
  if h.banner then cells ["// Code generated by pilot. DO NOT EDIT."] <| line [] <| line h.clause imports
  else cells h.clause imports

/-- Whether a line begins with a character. -/
def beginsWith (c : Char) : List Cell → Bool
  | .fixed t :: _ => t.toList.head? = some c
  | _ => false

/-- Whether the lines are what they should be by their first characters. -/
def wellBegun (h : GoHead) : Bool := beginsWith 'p' h.clause && h.imports.all fun cs => cs.isEmpty || beginsWith '\t' cs

theorem head_of_beginsWith {c : Char} {cs : List Cell} (h : beginsWith c cs = true) (s : Scene) :
    (cellsText s cs).toList.head? = some c := by
  unfold beginsWith at h
  split at h
  · rw [cellsText, String.toList_append, List.head?_append, of_decide_eq_true h]
    rfl
  · cases h

theorem linesThen_imports (s : Scene) (after : List String) : ∀ imports : List (List Cell),
    (imports.foldr line (line [")"] <| line [] .done)).linesThen s after =
      "" :: (imports.map (cellsText s) ++ ")" :: after)
  | [] => linesThen_line _ linesThen_break
  | _ :: imports => linesThen_line _ (linesThen_imports s after imports)

theorem goLines {h : GoHead} (hbegun : h.wellBegun = true) (s : Scene) (after : List String) :
    GoLines (h.form.linesThen s after) (cellsText s h.clause) (h.imports.map (cellsText s)) := by
  obtain ⟨hclause, himports⟩ := Bool.and_eq_true_iff.mp hbegun
  have hstop : ∀ line ∈ h.imports.map (cellsText s), line ≠ ")" := by
    rw [List.forall_mem_map]
    intro cs hcs
    rcases Bool.or_eq_true_iff.mp (List.all_eq_true.mp himports cs hcs) with hempty | htab
    · rw [List.isEmpty_iff.mp hempty, cellsText]
      decide
    · exact ne_of_head (head_of_beginsWith htab s) (by decide)
  have hhead := head_of_beginsWith hclause s
  have hbelow := linesThen_line [] (linesThen_line ["import ("] (linesThen_imports s after h.imports))
  rw [form]
  split
  · rw [linesThen_cells _ (linesThen_line _ (linesThen_line _ hbelow))]
    exact GoLines.of_imports ["// Code generated by pilot. DO NOT EDIT.", ""] (by decide) hhead hstop
  · rw [linesThen_cells _ hbelow]
    exact GoLines.of_imports [] (by simp) hhead hstop

end GoHead

/-- The control loop. -/
def schedulerForm : Form :=
  cells ["// Code generated by pilot. DO NOT EDIT."] <|
  line [] <|
  line ["package scheduler"] <|
  line [] <|
  line ["import ("] <|
  line ["\t\"context\""] <|
  line ["\t\"fmt\""] <|
  line ["\t\"time\""] <|
  line [] <|
  line ["\t\"", Field.configImportPath, "\""] <|
  line ["\t", Field.version, " \"", Field.typesImportPath, "\""] <|
  .each .phases (.choice .generatesFiles (line ["\t\"", Field.workerImportPath, "\""] .done) .done .done) <|
  line [")"] <|
  line [] <|
  line ["// Run reconciles every ", Field.kind, " once per resync period."] <|
  line ["func Run(cfg *config.Config) error \x7b"] <|
  line ["\tticker := time.NewTicker(cfg.ResyncPeriod)"] <|
  line ["\tdefer ticker.Stop()"] <|
  line ["\tfor range ticker.C \x7b"] <|
  line ["\t\tif err := reconcile(context.Background()); err != nil \x7b"] <|
  line ["\t\t\treturn fmt.Errorf(\"reconcile ", Field.kindLowerCamel, ": %w\", err)"] <|
  line ["\t\t\x7d"] <|
  line ["\t\x7d"] <|
  line ["\treturn nil"] <|
  line ["\x7d"] <|
  line [] <|
  line ["func reconcile(ctx context.Context) error \x7b"] <|
  line ["\tvar ", Field.kindLowerCamel, " ", Field.version, ".", Field.kind] <|
  line ["\tswitch ", Field.kindLowerCamel, ".Status.Phase \x7b"] <|
  .each .phases
    (line ["\tcase ", Field.version, ".", Field.kind, "Phase", Field.phaseCamel, ":"] <|
      .choice .generatesFiles
        (line ["\t\treturn (&", Field.workerPackage, ".Worker\x7b\x7d).Sync(ctx, &", Field.kindLowerCamel, ")"] .done)
        (line ["\t\treturn nil"] .done) <|
      .done) <|
  line ["\t\x7d"] <|
  line ["\treturn nil"] <|
  line ["\x7d"] <|
  line [] <|
  .done

/-- The comment of the API package. -/
def docForm : Form :=
  cells ["// Code generated by pilot. DO NOT EDIT."] <|
  line [] <|
  line ["// Package ", Field.version, " contains the ", Field.kind, " API of group ", Field.group, "."] <|
  line ["// +k8s:deepcopy-gen=package,register"] <|
  line ["// +groupName=", Field.group] <|
  line ["package ", Field.version] <|
  line [] <|
  .done

/-- The constants of the phases. -/
def phasesForm : Form :=
  cells ["// Code generated by pilot. DO NOT EDIT."] <|
  line [] <|
  line ["package ", Field.version] <|
  line [] <|
  line ["// ", Field.kind, "Phase is the processing stage a ", Field.kind, " is in."] <|
  line ["type ", Field.kind, "Phase string"] <|
  line [] <|
  line ["const ("] <|
  .each .phases (line ["\t", Field.kind, "Phase", Field.phaseCamel, " ", Field.kind, "Phase = \"", Field.phaseName, "\""]
    .done) <|
  line [")"] <|
  line [] <|
  .done

/-- The desired state of the resource. -/
def specForm : Form :=
  cells ["package ", Field.version] <|
  line [] <|
  line ["// ", Field.kind, "Spec is the desired state of a ", Field.kind, "."] <|
  line ["//"] <|
  line ["// This file is generated once and then owned by you; add fields freely."] <|
  line ["type ", Field.kind, "Spec struct \x7b"] <|
  line ["\x7d"] <|
  line [] <|
  .done

/-- Shipped templates with their forms. -/
def shippedForms : List (String × Form) :=
  [("code/scheduler.go.tera", schedulerForm), ("code/doc.go.tera", docForm), ("code/phases.go.tera", phasesForm),
   ("code/spec.go.tera", specForm)]

/-- What follows the imports in the registration of the types. -/
def registrationPart : Form :=
  line ["// SchemeGroupVersion is the group version used to register these objects."] <|
  line ["var SchemeGroupVersion = schema.GroupVersion\x7bGroup: \"", Field.group, "\", Version: \"", Field.version,
    "\"\x7d"] <|
  line [] <|
  line ["var ", Field.kindLowerCamel, "Resource = SchemeGroupVersion.WithResource(\"", Field.resource, "\")"] <|
  line [] <|
  .done

/-- Shipped templates of Go files with imports, with their heads and what is known to follow. -/
def shippedHeads : List (String × GoHead × Form) :=
  [("code/main.go.tera", ⟨true, ["package main"],
      [["\t\"log\""], [], ["\t\"", Field.configImportPath, "\""], ["\t\"", Field.schedulerImportPath, "\""]]⟩, .done),
   ("code/config.go.tera", ⟨false, ["package config"], [["\t\"os\""], ["\t\"time\""]]⟩, .done),
   ("code/register.go.tera", ⟨true, ["package ", Field.version],
      [["\tmetav1 \"k8s.io/apimachinery/pkg/apis/meta/v1\""], ["\t\"k8s.io/apimachinery/pkg/runtime\""],
       ["\t\"k8s.io/apimachinery/pkg/runtime/schema\""]]⟩, registrationPart),
   ("code/types.go.tera", ⟨true, ["package ", Field.version],
      [["\tmetav1 \"k8s.io/apimachinery/pkg/apis/meta/v1\""]]⟩, .done),
   ("code/parameters.go.tera", ⟨true, ["package ", Field.workerPackage],
      [["\t", Field.version, " \"", Field.typesImportPath, "\""]]⟩, .done),
   ("code/worker.go.tera", ⟨false, ["package ", Field.workerPackage],
      [["\t\"context\""], [], ["\t", Field.version, " \"", Field.typesImportPath, "\""]]⟩, .done)]

/-- Shipped templates of other files. -/
def buildTemplates : List String := ["build/Dockerfile.tera", "build/user_setup.tera", "build/entrypoint.tera"]

section
variable {id source : String} {l : Level} {chars : List Char} {F : Form}

theorem shippedForm_eq_of_toList (hlookup : Shipped.sources.lookup id = some source)
    (hlevel : (if phaseTemplates.contains id then Level.phase else .project) = l) (hsource : source.toList = chars)
    (h : ofSource? l chars = some F) : shippedForm? id = some F := by
  subst hlevel hsource
  rwa [shippedForm?, hlookup, Option.bind_some]

theorem isSome_after_of_toList (hlookup : Shipped.sources.lookup id = some source)
    (hlevel : (if phaseTemplates.contains id then Level.phase else .project) = l) (hsource : source.toList = chars)
    (h : ((ofSource? l chars).bind F.after?).isSome) : ((shippedForm? id).bind F.after?).isSome := by
  obtain ⟨G, hG⟩ := Option.isSome_iff_exists.mp h
  obtain ⟨whole, hwhole, hafter⟩ := Option.bind_eq_some_iff.mp hG
  rw [shippedForm_eq_of_toList hlookup hlevel hsource hwhole, Option.bind_some, hafter, Option.isSome_some]

theorem exists_form_of_toList {check : Form → Bool} (hlookup : Shipped.sources.lookup id = some source)
    (hlevel : (if phaseTemplates.contains id then Level.phase else .project) = l) (hsource : source.toList = chars)
    (h : (ofSource? l chars).map check = some true) : ∃ F, shippedForm? id = some F ∧ check F = true := by
  obtain ⟨F, hF, hcheck⟩ := Option.map_eq_some_iff.mp h
  exact ⟨F, shippedForm_eq_of_toList hlookup hlevel hsource hF, hcheck⟩

end

theorem shippedForm_eq : ∀ entry ∈ shippedForms, shippedForm? entry.1 = some entry.2 := by
  simp only [shippedForms, List.forall_mem_cons, List.not_mem_nil, false_implies, implies_true, and_true]
  refine ⟨?_, ?_, ?_, ?_⟩
  -- a source is spelled before it is read, as in `accepts_sources`
  all_goals
    apply shippedForm_eq_of_toList rfl rfl
    · apply toList_wholeLines_cons rfl
      repeat with_reducible apply toList_wholeLines_cons rfl
      exact toList_wholeLines_nil
    · decide +kernel

/-- These are read as forms that begin like that. -/
theorem isSome_after_shippedHeads : ∀ entry ∈ shippedHeads,
    ((shippedForm? entry.1).bind (entry.2.1.form.append entry.2.2).after?).isSome := by
  simp only [shippedHeads, List.forall_mem_cons, List.not_mem_nil, false_implies, implies_true, and_true]
  refine ⟨?_, ?_, ?_, ?_, ?_, ?_⟩
  all_goals
    apply isSome_after_of_toList rfl rfl
    · apply toList_wholeLines_cons rfl
      repeat with_reducible apply toList_wholeLines_cons rfl
      exact toList_wholeLines_nil
    · decide +kernel

theorem isSome_after_buildTemplates : ∀ id ∈ buildTemplates, ((shippedForm? id).bind done.after?).isSome := by
  simp only [buildTemplates, List.forall_mem_cons, List.not_mem_nil, false_implies, implies_true, and_true]
  refine ⟨?_, ?_, ?_⟩
  all_goals
    apply isSome_after_of_toList rfl rfl
    · apply toList_wholeLines_cons rfl
      repeat with_reducible apply toList_wholeLines_cons rfl
      exact toList_wholeLines_nil
    · decide +kernel

theorem exists_append_of_isSome {id : String} {P : Form} (h : ((shippedForm? id).bind P.after?).isSome) :
    ∃ G, shippedForm? id = some (P.append G) := by
  obtain ⟨G, hG⟩ := Option.isSome_iff_exists.mp h
  obtain ⟨F, hF, hG⟩ := Option.bind_eq_some_iff.mp hG
  exact ⟨G, by rw [hF, eq_append_of_after hG]⟩

/-! ### Generated files -/

theorem exists_form_of_mem {id source : String} (hmem : (id, source) ∈ Shipped.sources) :
    ∃ F, shippedForm? id = some F := by
  have hids : ∀ id ∈ Shipped.sources.map (·.1),
      id ∈ shippedForms.map (·.1) ∨ id ∈ shippedHeads.map (·.1) ∨ id ∈ buildTemplates := by decide
  rcases hids id (List.mem_map_of_mem hmem) with hid | hid | hid
  · obtain ⟨⟨_, F⟩, hF, rfl⟩ := List.mem_map.mp hid
    exact ⟨F, shippedForm_eq _ hF⟩
  · obtain ⟨entry, hentry, rfl⟩ := List.mem_map.mp hid
    obtain ⟨G, hG⟩ := exists_append_of_isSome (isSome_after_shippedHeads entry hentry)
    exact ⟨_, hG⟩
  · obtain ⟨G, hG⟩ := exists_append_of_isSome (isSome_after_buildTemplates id hid)
    exact ⟨_, hG⟩

theorem linesOf_of_form (p : Project) {f : PlannedFile} {F : Form} (hF : (f.templateId, F) ∈ shippedForms) :
    p.linesOf f = F.lines (p.sceneOf f.scope) := by
  rw [Project.linesOf, shippedForm_eq (f.templateId, F) hF, Option.elim_some]

theorem linesOf_of_head (p : Project) {f : PlannedFile} {h : GoHead} {P : Form}
    (hP : (f.templateId, h, P) ∈ shippedHeads) : ∃ first more,
      p.linesOf f = h.form.linesThen (p.sceneOf f.scope) (P.linesThen (p.sceneOf f.scope) (first :: more)) := by
  obtain ⟨G, hG⟩ := exists_append_of_isSome (isSome_after_shippedHeads _ hP)
  obtain ⟨first, more, hlines⟩ :=
    List.exists_cons_of_ne_nil (G.linesThen_ne_nil (p.sceneOf f.scope) (List.cons_ne_nil "" []))
  refine ⟨first, more, ?_⟩
  rw [Project.linesOf, hG, Option.elim_some, lines, linesThen_append, linesThen_append, hlines]

variable {p : Project}

/-- Where phases answer to their names, the phase that is found under the name of a phase is that phase. -/
theorem Project.Answers.phase? (h : p.Answers) {phase : Phase} (hphase : phase ∈ p.descriptor.phases) :
    p.phase? phase.name = some phase := by
  obtain ⟨found, hmem, hfound, hname⟩ := phase?_of_mem hphase
  have hsame := (hname ▸ h found hmem).symm.trans (h phase hphase)
  rw [hfound, hsame]

theorem Project.Answers.contextOf (h : p.Answers) {phase : Phase} (hphase : phase ∈ p.descriptor.phases) :
    p.contextOf (.phase phase) = p.phaseContext phase := by
  rw [Project.contextOf, h.phase? hphase, Option.getD_some]

theorem outputOf_eq_lines (hanswers : p.Answers) {f : PlannedFile} (hf : f ∈ p.plan) :
    ∃ source, Shipped.sources.lookup (normalId f.templateId) = some source ∧
      outputOf f.templateId source (p.contextOf f.scope) = .ok ("\n".intercalate (p.linesOf f)) := by
  have hfile : ∃ l source, (f.templateId, source) ∈ Shipped.sources ∧
      (if phaseTemplates.contains f.templateId then Level.phase else .project) = l ∧
      l.Holds (p.sceneOf f.scope) [⟨[], none⟩] (p.contextOf f.scope) := by
    rcases template_of_mem_plan hf with ⟨hscope, source, hmem⟩ | ⟨phase, hphase, hscope, source, hmem⟩
    · obtain ⟨hmem, hproject⟩ := List.mem_filter.mp hmem
      refine ⟨.project, source, hmem, by simp_all, ?_⟩
      rw [hscope]
      exact .project
    · obtain ⟨hmem, hphases⟩ := List.mem_filter.mp hmem
      refine ⟨.phase, source, hmem, by simp_all, ?_⟩
      rw [hscope, hanswers.contextOf hphase]
      exact .phase hphase
  obtain ⟨l, source, hmem, hlevel, hholds⟩ := hfile
  obtain ⟨hid, hlookup⟩ := lookup_sources (f.templateId, source) hmem
  obtain ⟨F, hF⟩ := exists_form_of_mem hmem
  refine ⟨source, hid ▸ hlookup, ?_⟩
  rw [Project.linesOf, hF, Option.elim_some]
  rw [shippedForm?, hlookup, Option.bind_some, hlevel] at hF
  have hproject : (p.sceneOf f.scope).project = p := by cases f.scope <;> rfl
  exact outputOf_of_form (hproject.symm ▸ hanswers) hholds f.templateId hF

/-- The planned files with their lines as contents. -/
def Project.laidOut (p : Project) (plan : List PlannedFile) : List GeneratedFile :=
  plan.map fun f => ⟨f, "\n".intercalate (p.linesOf f)⟩

theorem content_of_mem_laidOut {plan : List PlannedFile} :
    ∀ f ∈ p.laidOut plan, f.content = "\n".intercalate (p.linesOf f.toPlannedFile) := by
  rw [Project.laidOut, List.forall_mem_map]
  exact fun f _ => rfl

theorem Project.answers_of_packaged (h : Descriptor.Packaged p.descriptor.phases) : p.Answers := by
  intro phase hphase
  obtain ⟨found, hfound⟩ := exists_phase_of_mem p (List.mem_map_of_mem hphase)
  have hname : found.name = phase.name := by simpa using List.find?_some hfound
  have hmem : found ∈ p.descriptor.phases := List.mem_reverse.mp (List.mem_of_find?_eq_some hfound)
  rw [hfound, h.eq_of_package hmem hphase (by rw [Phase.workerPackage, Phase.workerPackage, hname])]

/-- Generating a project comes to laying out the lines of its planned files. -/
theorem Project.generateFiles_eq_lines (hanswers : p.Answers) {m : Type → Type} [Monad m] [LawfulMonad m] :
    ∀ {plan : List PlannedFile}, (∀ f ∈ plan, f ∈ p.plan) →
      p.generateFiles (Store.shipped : Store m) plan = pure (.ok (p.laidOut plan))
  | [], _ => rfl
  | f :: plan, h => by
    obtain ⟨hf, hplan⟩ := List.forall_mem_cons.mp h
    obtain ⟨source, hsource, houtput⟩ := outputOf_eq_lines hanswers hf
    have hfirst : Template.output (Store.shipped : Store m) f.templateId (p.contextOf f.scope) =
        pure (.ok ("\n".intercalate (p.linesOf f))) := by
      simp only [Template.output, Store.shipped, Store.ofSources, hsource, pure_bind, houtput]
    simp only [generateFiles, hfirst, generateFiles_eq_lines hanswers hplan, pure_bind, laidOut, List.map_cons]

theorem Project.generate_eq_lines {bytes : ByteArray} {root : Except RootError String} (h : load bytes root = .ok p)
    (m : Type → Type) [Monad m] [LawfulMonad m] :
    p.generate (Store.shipped : Store m) = pure (.ok (p.laidOut p.plan)) :=
  generateFiles_eq_lines (answers_of_packaged (loaded_of_load h).packaged) fun _ hf => hf

end Shipped

end Scaffold
