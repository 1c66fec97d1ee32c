import Scaffold.Proofs.Plan.Form
import Scaffold.Proofs.Plan.Shipped
import Scaffold.Proofs.Text.Split

/-! Templates are read as forms (`Form.ofSource?`). Every expression of a template that can be read has its place in a
    small table, and the value it is evaluated to, through scopes, functions and filters, is the text that the table says
    (`evalExpr_of_blank`). So a template that is read as a form renders to the lines of that form
    (`Form.outputOf_of_form`). -/

namespace Scaffold
open Template

/-! ### Reading expressions -/

/-- How an expression reads: a path with filters, or a question with the path to the name of its phase. -/
inductive Reading where
  | path (text : String) (filters : List String)
  | question (name : String) (phase : Option String)
  deriving DecidableEq

/-- The name of a filter without arguments. -/
def bareName? : Call → Option String
  | .mk name [] => some name
  | _ => none

def reading? : Expr → Option Reading
  | .mk (.path p) filters false => (filters.mapM bareName?).map (.path p.shown)
  | .mk (.call (.mk name [])) [] false => some (.question name none)
  | .mk (.call (.mk name [(argument, .mk (.path p) [] false)])) [] false =>
    if argument = "phase" then some (.question name (some p.shown)) else none
  | _ => none

/-- The two expressions of which one has to hold. -/
def either? : Expr → Option (Reading × Reading)
  | .mk (.logic .or l r) [] false => do return (← reading? l, ← reading? r)
  | _ => none

/-- The path that has to be there. -/
def defined? : Expr → Option String
  | .mk (.test p false name) [] false => if name = "defined" then some p.shown else none
  | _ => none

/-- The expression that reads like that. -/
def Reading.expr : Reading → Expr
  | .path text filters => .mk (.path ⟨text.toList⟩) (filters.map (.mk · [])) false
  | .question name none => .mk (.call (.mk name [])) [] false
  | .question name (some phase) => .mk (.call (.mk name [("phase", .mk (.path ⟨phase.toList⟩) [] false)])) [] false

theorem eq_map_of_bareNames : ∀ {filters : List Call} {names : List String},
    filters.mapM bareName? = some names → filters = names.map (.mk · [])
  | [], names, h => by
    cases h
    rfl
  | .mk f [] :: rest, names, h => by
    simp only [List.mapM_cons, bareName?, Option.pure_def, Option.bind_eq_bind, Option.bind_some] at h
    obtain ⟨more, hmore, h⟩ := Option.bind_eq_some_iff.mp h
    cases h
    rw [List.map_cons, ← eq_map_of_bareNames hmore]
  | .mk f (_ :: _) :: rest, names, h => by
    simp [bareName?] at h

theorem eq_expr_of_reading {e : Expr} {r : Reading} (h : reading? e = some r) : e = r.expr := by
  unfold reading? at h
  split at h
  · obtain ⟨names, hnames, rfl⟩ := Option.map_eq_some_iff.mp h
    simp [Reading.expr, Path.shown, eq_map_of_bareNames hnames]
  · cases h
    rfl
  · split at h
    · next hargument =>
      cases h
      simp [Reading.expr, Path.shown, hargument]
    · cases h
  · cases h

theorem eq_expr_of_either {e : Expr} {q r : Reading} (h : either? e = some (q, r)) :
    e = .mk (.logic .or q.expr r.expr) [] false := by
  unfold either? at h
  split at h
  · obtain ⟨q, hq, h⟩ := Option.bind_eq_some_iff.mp h
    obtain ⟨r, hr, h⟩ := Option.bind_eq_some_iff.mp h
    cases h
    rw [← eq_expr_of_reading hq, ← eq_expr_of_reading hr]
  · cases h

theorem eq_expr_of_defined {e : Expr} {text : String} (h : defined? e = some text) :
    e = .mk (.test ⟨text.toList⟩ false "defined") [] false := by
  unfold defined? at h
  split at h
  · split at h
    · next hname =>
      cases h
      simp [Path.shown, hname]
    · cases h
  · cases h

/-- Where in a template a blank stands, which decides what can be filled into it. -/
inductive Level where
  | project
  | eachPhase
  | phase
  | described
  | eachInput
  | eachOutput
  deriving DecidableEq

namespace Level

def projectBlanks : List (Reading × Field) :=
  [(.path "version" [], .version), (.path "group" [], .group), (.path "project.kind" [], .kind),
   (.path "project.kind" ["plural", "lower"], .resource), (.path "kind_lower_camel" [], .kindLowerCamel),
   (.path "operator_name" [], .operatorName), (.path "config_import_path" [], .configImportPath),
   (.path "scheduler_import_path" [], .schedulerImportPath), (.path "types_import_path" [], .typesImportPath)]

def eachPhaseBlanks : List (Reading × Field) :=
  [(.path "phase.name" [], .phaseName), (.path "phase.name" ["upper_camel"], .phaseCamel),
   (.question "worker_import_path" (some "phase.name"), .workerImportPath),
   (.question "worker_package" (some "phase.name"), .workerPackage)]

def phaseBlanks : List (Reading × Field) :=
  [(.path "worker_package" [], .workerPackage), (.path "name" [], .phaseName), (.path "project.version" [], .version),
   (.path "project.types_import_path" [], .typesImportPath), (.path "project.project.kind" [], .kind),
   (.path "project.kind_lower_camel" [], .kindLowerCamel)]

/-- The blanks by what their expressions read. -/
def blanks : Level → List (Reading × Field)
  | project => projectBlanks
  | eachPhase => projectBlanks ++ eachPhaseBlanks
  | phase => phaseBlanks
  | described => phaseBlanks ++ [(.path "description" [], .description)]
  | eachInput => phaseBlanks ++ [(.path "input" ["upper_camel"], .itemCamel)]
  | eachOutput => phaseBlanks ++ [(.path "output" ["upper_camel"], .itemCamel)]

/-- The condition that an expression is. -/
def condition? (l : Level) (e : Expr) : Option Condition :=
  match l with
  | eachPhase =>
    if either? e = some (.question "has_inputs" (some "phase.name"), .question "has_outputs" (some "phase.name")) then
      some .generatesFiles
    else none
  | phase =>
    if reading? e = some (.question "has_inputs" none) then some .hasInputs
    else if reading? e = some (.question "has_outputs" none) then some .hasOutputs
    else if defined? e = some "description" then some .described
    else none
  | _ => none

/-- The level of the part that is there if a condition holds. -/
def given (l : Level) : Condition → Level
  | .described => described
  | _ => l

/-- The series that a loop goes over, and the level of its body. -/
def series? (l : Level) (name : String) (e : Expr) : Option (Series × Level) :=
  match l, reading? e with
  | project, some (.path text []) => if text = "project.phases" ∧ name = "phase" then some (.phases, eachPhase) else none
  | phase, some (.path text []) =>
    if text = "inputs" ∧ name = "input" then some (.inputs, eachInput)
    else if text = "outputs" ∧ name = "output" then some (.outputs, eachOutput)
    else none
  | _, _ => none

end Level

/-! ### Reading templates -/

namespace Form

/-- A fixed text in front of a form. -/
def spell (s : List Char) (rest : Form) : Form := if s.isEmpty then rest else fixed (String.ofList s) rest

/-- What stands between tags. -/
def ofText (s : List Char) : Form :=
  match Text.splitOn '\n' s with
  | [] => done
  | first :: more => spell first (more.foldr (fun line rest => newline (spell line rest)) done)

mutual
/-- The form of nodes. -/
def ofNodes? (l : Level) : List Node → Option Form
  | [] => some done
  | n :: rest => do return (← ofNode? l n).append (← ofNodes? l rest)

/-- The form of a node. -/
def ofNode? (l : Level) : Node → Option Form
  | .text s => some (ofText s)
  | .output _ e => do return field (← (reading? e).bind (l.blanks.lookup ·)) done
  | .loop _ none name e body none _ => do
    let (q, inner) ← l.series? name e
    return each q (← ofNodes? inner body) done
  | .choice branches _ => ofBranches? l branches
  | _ => none

/-- The form of the branches of a condition. -/
def ofBranches? (l : Level) : List (Hyphens × Option Expr × List Node) → Option Form
  | [] => some done
  | (_, none, body) :: _ => ofNodes? l body
  | (_, some e, body) :: rest => do
    let c ← l.condition? e
    return choice c (← ofNodes? (l.given c) body) (← ofBranches? l rest) done
end

/-- The form of the source of a template. -/
def ofSource? (l : Level) (source : List Char) : Option Form := (parse? source).bind (ofNodes? l)

end Form

/-! ### What is read is what is there -/

/-- The phases of a project answer to their names. -/
def Project.Answers (p : Project) : Prop :=
  ∀ phase ∈ p.descriptor.phases, p.descriptor.phases.reverse.find? (·.name = phase.name) = some phase

section Asking
variable {p : Project} {phase : Phase}

theorem Project.Answers.ask_named (h : p.Answers) (hphase : phase ∈ p.descriptor.phases) (current : Option String)
    (name : String) (query : Phase → Json) {args : Arguments} (hargs : args.lookup "phase" = some (.str phase.name)) :
    p.ask current name query args = .ok (query phase) := by
  simp [Project.ask, hargs, h phase hphase, bind, Except.bind, pure, Except.pure]

theorem Project.Answers.ask_current (h : p.Answers) (hphase : phase ∈ p.descriptor.phases) (name : String)
    (query : Phase → Json) {args : Arguments} (hargs : args.lookup "phase" = none) :
    p.ask (some phase.name) name query args = .ok (query phase) := by
  simp [Project.ask, hargs, h phase hphase, bind, Except.bind, pure, Except.pure]

end Asking

/-- The scopes and contexts in which the parts of a template are rendered. -/
inductive Level.Holds : Level → Scene → Scopes → Context → Prop
  | project {s : Scene} : Holds .project s [⟨[], none⟩] s.project.context
  | eachPhase {s : Scene} (hphase : s.phase ∈ s.project.descriptor.phases) (i count : Nat) :
      Holds .eachPhase s [⟨[], some ⟨none, "phase", s.phase.toJson, i, count⟩⟩, ⟨[], none⟩] s.project.context
  | phase {s : Scene} (hphase : s.phase ∈ s.project.descriptor.phases) :
      Holds .phase s [⟨[], none⟩] (s.project.phaseContext s.phase)
  | described {s : Scene} (hphase : s.phase ∈ s.project.descriptor.phases) (hdescribed : s.phase.description.isSome) :
      Holds .described s [⟨[], none⟩] (s.project.phaseContext s.phase)
  | eachInput {s : Scene} (i count : Nat) :
      Holds .eachInput s [⟨[], some ⟨none, "input", .str s.item, i, count⟩⟩, ⟨[], none⟩]
        (s.project.phaseContext s.phase)
  | eachOutput {s : Scene} (i count : Nat) :
      Holds .eachOutput s [⟨[], some ⟨none, "output", .str s.item, i, count⟩⟩, ⟨[], none⟩]
        (s.project.phaseContext s.phase)

section Reading
variable {s : Scene} {scopes : Scopes} {ctx : Context} {t : String}

theorem evalExpr_call {c : Call} {v : Json} (hv : v ≠ .null) (h : evalCall ⟨t, scopes, ctx⟩ c = .ok v) :
    evalExpr ⟨t, scopes, ctx⟩ (.mk (.call c) [] false) = .ok v := by
  rw [evalExpr, evalValue, h, settle_of_ne_null hv, evalFilters]
  rfl

theorem evalBool_call {c : Call} {b : Bool} (h : evalCall ⟨t, scopes, ctx⟩ c = .ok (.bool b)) :
    evalBool ⟨t, scopes, ctx⟩ (.mk (.call c) [] false) = .ok b := by
  have htruth : evalTruth ⟨t, scopes, ctx⟩ (.call c) = .ok (some b) := by
    rw [evalTruth, h]
    rfl
  rw [evalBool, htruth]
  cases b <;> rfl

theorem evalCall_eachPhase (hanswers : s.project.Answers) (hphase : s.phase ∈ s.project.descriptor.phases)
    (i count : Nat) (f : String) (query : Phase → Json)
    (hf : s.project.context.table.functions.lookup f = some (s.project.ask none f query)) :
    evalCall ⟨t, [⟨[], some ⟨none, "phase", s.phase.toJson, i, count⟩⟩, ⟨[], none⟩], s.project.context⟩
      (.mk f [("phase", .mk (.path ⟨"phase.name".toList⟩) [] false)]) = .ok (query s.phase) := by
  have hname : evalExpr ⟨t, [⟨[], some ⟨none, "phase", s.phase.toJson, i, count⟩⟩, ⟨[], none⟩], s.project.context⟩
      (.mk (.path ⟨"phase.name".toList⟩) [] false) = .ok (.str s.phase.name) := by
    obtain ⟨p, ⟨name, description, inputs, outputs⟩, item⟩ := s
    cases description <;> rfl
  have hnamed : ([("phase", .str s.phase.name)] : Arguments).lookup "phase" = some (.str s.phase.name) := rfl
  refine evalCall_of_answer hf ?_ (hanswers.ask_named hphase none f query hnamed)
  rw [evalArguments, hname]
  rfl

/-- A question without a phase is about the phase of the template. -/
theorem evalCall_phase (hanswers : s.project.Answers) (hphase : s.phase ∈ s.project.descriptor.phases) (f : String)
    (query : Phase → Json) (hf : (s.project.phaseContext s.phase).table.functions.lookup f =
      some (s.project.ask (some s.phase.name) f query)) :
    evalCall ⟨t, scopes, s.project.phaseContext s.phase⟩ (.mk f []) = .ok (query s.phase) := by
  exact evalCall_of_answer hf (by rw [evalArguments]; rfl) (hanswers.ask_current hphase f query rfl)

variable {l : Level}

/-- What an expression in a blank evaluates to is what the blank is filled with. -/
theorem evalExpr_of_blank (hanswers : s.project.Answers) (h : l.Holds s scopes ctx) (t : String) : ∀ r f,
    l.blanks.lookup r = some f → evalExpr ⟨t, scopes, ctx⟩ r.expr = .ok (.str (f.text s)) := by
  refine forall_of_lookup ?_
  obtain ⟨p, ⟨name, description, inputs, outputs⟩, item⟩ := s
  cases h with
  | project => 
    simp only [Level.blanks, Level.projectBlanks, List.forall_mem_cons, List.not_mem_nil, false_implies, implies_true,
      and_true]
    exact ⟨rfl, rfl, rfl, rfl, rfl, rfl, rfl, rfl, rfl⟩
  | eachPhase hphase i count =>
    simp only [Level.blanks, Level.projectBlanks, Level.eachPhaseBlanks, List.cons_append, List.nil_append,
      List.forall_mem_cons, List.not_mem_nil, false_implies, implies_true, and_true]
    refine ⟨rfl, rfl, rfl, rfl, rfl, rfl, rfl, rfl, rfl, ?_, ?_, ?_, ?_⟩
    · cases description <;> rfl
    · cases description <;> rfl
    · exact evalExpr_call (by simp) (evalCall_eachPhase hanswers hphase i count _ (fun phase => .str (p.workerImportPath phase)) rfl)
    · exact evalExpr_call (by simp) (evalCall_eachPhase hanswers hphase i count _ (fun phase => .str phase.workerPackage) rfl)
  | phase hphase =>
    simp only [Level.blanks, Level.phaseBlanks, List.forall_mem_cons, List.not_mem_nil, false_implies, implies_true,
      and_true]
    cases description <;> exact ⟨rfl, rfl, rfl, rfl, rfl, rfl⟩
  | described hphase hdescribed =>
    simp only [Level.blanks, Level.phaseBlanks, List.cons_append, List.nil_append, List.forall_mem_cons,
      List.not_mem_nil, false_implies, implies_true, and_true]
    cases description with
    | none => cases hdescribed
    | some d => exact ⟨rfl, rfl, rfl, rfl, rfl, rfl, rfl⟩
  | eachInput i count | eachOutput i count =>
    simp only [Level.blanks, Level.phaseBlanks, List.cons_append, List.nil_append, List.forall_mem_cons,
      List.not_mem_nil, false_implies, implies_true, and_true]
    cases description <;> exact ⟨rfl, rfl, rfl, rfl, rfl, rfl, rfl⟩

/-- What is read as a condition is true where that condition holds. -/
theorem evalBool_of_condition (hanswers : s.project.Answers) (h : l.Holds s scopes ctx) (t : String) {e : Expr}
    {c : Condition} (hc : l.condition? e = some c) : evalBool ⟨t, scopes, ctx⟩ e = .ok (c.holds s) := by
  cases h with
  | eachPhase hphase i count =>
    rw [Level.condition?] at hc
    split at hc
    · next hboth =>
      cases hc
      have hinputs := evalBool_call (t := t)
        (evalCall_eachPhase hanswers hphase i count "has_inputs" (fun phase => .bool phase.hasInputs) rfl)
      have houtputs := evalBool_call (t := t)
        (evalCall_eachPhase hanswers hphase i count "has_outputs" (fun phase => .bool phase.hasOutputs) rfl)
      -- inputs or outputs are what it takes to have generated files
      rw [eq_expr_of_either hboth, Reading.expr, Reading.expr, evalBool, evalTruth, connect, hinputs, houtputs]
      simp only [Condition.holds, Phase.generatesFiles]
      cases s.phase.hasInputs <;> cases s.phase.hasOutputs <;> rfl
    · cases hc
  | phase hphase =>
    rw [Level.condition?] at hc
    split at hc
    · next hreading =>
      cases hc
      rw [eq_expr_of_reading hreading]
      exact evalBool_call (evalCall_phase hanswers hphase "has_inputs" (fun phase => .bool phase.hasInputs) rfl)
    split at hc
    · next hreading =>
      cases hc
      rw [eq_expr_of_reading hreading]
      exact evalBool_call (evalCall_phase hanswers hphase "has_outputs" (fun phase => .bool phase.hasOutputs) rfl)
    split at hc
    · next hdefined =>
      cases hc
      rw [eq_expr_of_defined hdefined]
      obtain ⟨p, ⟨name, description, inputs, outputs⟩, item⟩ := s
      cases description <;> rfl
    · cases hc
  | _ => cases hc

/-- The value that a loop over a series has in a scene. -/
def Series.value (s : Scene) : Series → Json
  | .phases => s.phase.toJson
  | .inputs | .outputs => .str s.item

theorem evalExpr_of_series (h : l.Holds s scopes ctx) (t : String) {name : String} {e : Expr} {q : Series} {inner : Level}
    (hq : l.series? name e = some (q, inner)) :
    evalExpr ⟨t, scopes, ctx⟩ e = .ok (.arr ((q.scenes s).map q.value)) := by
  unfold Level.series? at hq
  split at hq
  · next hreading =>
    split at hq
    · next htext =>
      cases hq
      cases h with
      | project =>
        rw [eq_expr_of_reading hreading, htext.1]
        obtain ⟨⟨⟨apiVersion, kind, operatorName, phases⟩⟩, phase, item⟩ := s
        simp only [Series.scenes, List.map_map]
        cases operatorName <;> rfl
    · cases hq
  · next hreading =>
    cases h with
    | phase hphase =>
      obtain ⟨p, ⟨name, description, inputs, outputs⟩, item⟩ := s
      split at hq
      · next htext =>
        cases hq
        rw [eq_expr_of_reading hreading, htext.1]
        simp only [Series.scenes, List.map_map]
        cases description <;> rfl
      split at hq
      · next htext =>
        cases hq
        rw [eq_expr_of_reading hreading, htext.1]
        simp only [Series.scenes, List.map_map]
        cases description <;> rfl
      · cases hq
  · cases hq

theorem eq_path_of_series {name : String} {e : Expr} {q : Series} {inner : Level}
    (hq : l.series? name e = some (q, inner)) : ∃ p, e = .mk (.path p) [] false := by
  unfold Level.series? at hq
  split at hq
  · next hreading => exact ⟨_, eq_expr_of_reading hreading⟩
  · next hreading => exact ⟨_, eq_expr_of_reading hreading⟩
  · cases hq

/-- The body of a loop is rendered in the scenes of the series. -/
theorem Level.Holds.of_series (h : l.Holds s scopes ctx) {name : String} {e : Expr} {q : Series} {inner : Level}
    (hq : l.series? name e = some (q, inner)) (i count : Nat) : ∀ scene ∈ q.scenes s,
    scene.project = s.project ∧ inner.Holds scene (⟨[], some ⟨none, name, q.value scene, i, count⟩⟩ :: scopes) ctx := by
  intro scene hscene
  unfold Level.series? at hq
  split at hq
  · split at hq
    · next htext =>
      cases hq
      cases h
      obtain ⟨phase, hphase, rfl⟩ := List.mem_map.mp hscene
      rw [htext.2]
      exact ⟨rfl, .eachPhase hphase i count⟩
    · cases hq
  · cases h
    split at hq
    · next htext =>
      cases hq
      obtain ⟨item, -, rfl⟩ := List.mem_map.mp hscene
      rw [htext.2]
      exact ⟨rfl, .eachInput i count⟩
    split at hq
    · next htext =>
      cases hq
      obtain ⟨item, -, rfl⟩ := List.mem_map.mp hscene
      rw [htext.2]
      exact ⟨rfl, .eachOutput i count⟩
    · cases hq
  · cases hq

theorem Level.Holds.given (h : l.Holds s scopes ctx) {e : Expr} {c : Condition} (hc : l.condition? e = some c)
    (htrue : c.holds s = true) : (l.given c).Holds s scopes ctx := by
  cases c with
  | described =>
    cases h with
    | phase hphase => exact .described hphase htrue
    | eachPhase hphase i count => simp [Level.condition?] at hc
    | _ => cases hc
  | _ => exact h

end Reading

/-! ### Rendering -/

namespace Form

theorem chars_spell (text : List Char) (rest : Form) (s : Scene) : (spell text rest).chars s = text ++ rest.chars s := by
  unfold spell
  split
  · next hempty => rw [List.isEmpty_iff.mp hempty, List.nil_append]
  · rw [chars, String.toList_ofList]

theorem chars_ofText (text : List Char) (s : Scene) : (ofText text).chars s = text := by
  have hmore : ∀ more : List (List Char),
      (more.foldr (fun line rest => newline (spell line rest)) done).chars s = more.flatMap ('\n' :: ·) := by
    intro more
    induction more with
    | nil => rfl
    | cons line more ih => rw [List.foldr_cons, chars, chars_spell, ih, List.flatMap_cons, List.cons_append]
  obtain ⟨first, more, hsplit⟩ := List.exists_cons_of_ne_nil (Text.splitOn_ne_nil '\n' text)
  rw [ofText, hsplit]
  simp only
  rw [chars_spell, hmore, ← Text.joinWith_splitOn '\n' text, hsplit, Text.joinWith_cons]
  rfl

variable {t : String} {ctx : Context} {self : Scopes → Except Failure (List Char)}

theorem loopTexts_of_scenes {run : Scopes → Except Failure (List Char × Scopes)} {outer : Scopes} {name : String}
    {count : Nat} {value : Scene → Json} {text : Scene → List Char} : ∀ {scenes : List Scene} {i : Nat},
    (∀ scene ∈ scenes, ∀ i, ∃ inner, run (⟨[], some ⟨none, name, value scene, i, count⟩⟩ :: outer) = .ok (text scene, inner)) →
      loopTexts run outer name count i ((scenes.map value).map fun v => (none, v)) = .ok (scenes.flatMap text)
  | [], _, _ => rfl
  | scene :: scenes, i, h => by
    obtain ⟨hscene, hscenes⟩ := List.forall_mem_cons.mp h
    obtain ⟨inner, hscene⟩ := hscene i
    rw [List.map_cons, List.map_cons, loopTexts, hscene]
    exact bind_eq_ok.mpr ⟨_, rfl, bind_eq_ok.mpr ⟨_, loopTexts_of_scenes hscenes, rfl⟩⟩

mutual
theorem renderNodes_of_form : ∀ {nodes : List Node} {l : Level} {s : Scene} {scopes : Scopes} {F : Form},
    s.project.Answers → l.Holds s scopes ctx → ofNodes? l nodes = some F →
      renderNodes t ctx self scopes nodes = .ok (F.chars s, scopes)
  | [], _, _, _, _, _, _, h => by
    rw [ofNodes?] at h
    cases h
    rw [renderNodes]
    rfl
  | n :: rest, l, s, scopes, F, hanswers, hl, h => by
    rw [ofNodes?] at h
    obtain ⟨first, hfirst, h⟩ := Option.bind_eq_some_iff.mp h
    obtain ⟨more, hmore, h⟩ := Option.bind_eq_some_iff.mp h
    cases h
    rw [renderNodes, renderNode_of_form hanswers hl hfirst, chars_append]
    exact bind_eq_ok.mpr ⟨_, rfl, bind_eq_ok.mpr ⟨_, renderNodes_of_form hanswers hl hmore, rfl⟩⟩

theorem renderNode_of_form : ∀ {n : Node} {l : Level} {s : Scene} {scopes : Scopes} {F : Form},
    s.project.Answers → l.Holds s scopes ctx → ofNode? l n = some F →
      renderNode t ctx self scopes n = .ok (F.chars s, scopes)
  | .text text, _, s, _, _, _, _, h => by
    rw [ofNode?] at h
    cases h
    rw [renderNode, chars_ofText]
    rfl
  | .output _ e, l, s, scopes, F, hanswers, hl, h => by
    rw [ofNode?] at h
    obtain ⟨f, hf, h⟩ := Option.bind_eq_some_iff.mp h
    cases h
    obtain ⟨r, hr, hf⟩ := Option.bind_eq_some_iff.mp hf
    have hvalue := evalExpr_of_blank hanswers hl t r f hf
    rw [renderNode, eq_expr_of_reading hr, hvalue, chars, chars, List.append_nil]
    rfl
  | .loop _ none name e body none _, l, s, scopes, F, hanswers, hl, h => by
    rw [ofNode?] at h
    obtain ⟨⟨q, inner⟩, hq, h⟩ := Option.bind_eq_some_iff.mp h
    obtain ⟨B, hB, h⟩ := Option.bind_eq_some_iff.mp h
    cases h
    have hitems := evalExpr_of_series hl t hq
    have hloop : loopTexts (fun inner => renderNodes t ctx self inner body) scopes name (q.scenes s).length 0
        (((q.scenes s).map q.value).map fun v => (none, v)) = .ok ((q.scenes s).flatMap B.chars) := by
      -- each round sees the scene of its item
      refine loopTexts_of_scenes fun scene hscene i => ?_
      obtain ⟨hproject, hscene⟩ := hl.of_series hq i (q.scenes s).length scene hscene
      exact ⟨_, renderNodes_of_form (hproject ▸ hanswers) hscene hB⟩
    obtain ⟨p, rfl⟩ := eq_path_of_series hq
    rw [renderNode, chars, chars, List.append_nil]
    refine bind_eq_ok.mpr ⟨_, hitems, bind_eq_ok.mpr ⟨_, rfl, bind_eq_ok.mpr ⟨_, ?_, rfl⟩⟩⟩
    simpa using hloop
  | .choice branches _, l, s, scopes, F, hanswers, hl, h => by
    rw [ofNode?] at h
    rw [renderNode]
    exact renderBranches_of_form hanswers hl h
  | .comment _, _, _, _, _, _, _, h | .raw .., _, _, _, _, _, _, h | .assign .., _, _, _, _, _, _, h
  | .insertion .., _, _, _, _, _, _, h | .loop _ (some _) .., _, _, _, _, _, _, h
  | .loop _ none _ _ _ (some _) _, _, _, _, _, _, _, h => by
    simp [ofNode?] at h

theorem renderBranches_of_form : ∀ {branches : List (Hyphens × Option Expr × List Node)} {l : Level} {s : Scene}
    {scopes : Scopes} {F : Form}, s.project.Answers → l.Holds s scopes ctx → ofBranches? l branches = some F →
      renderBranches t ctx self scopes branches = .ok (F.chars s, scopes)
  | [], _, _, _, _, _, _, h => by
    rw [ofBranches?] at h
    cases h
    rw [renderBranches]
    rfl
  | (_, none, body) :: _, l, s, scopes, F, hanswers, hl, h => by
    rw [ofBranches?] at h
    rw [renderBranches]
    exact renderNodes_of_form hanswers hl h
  | (_, some e, body) :: rest, l, s, scopes, F, hanswers, hl, h => by
    rw [ofBranches?] at h
    obtain ⟨c, hc, h⟩ := Option.bind_eq_some_iff.mp h
    obtain ⟨yes, hyes, h⟩ := Option.bind_eq_some_iff.mp h
    obtain ⟨no, hno, h⟩ := Option.bind_eq_some_iff.mp h
    cases h
    have hcondition := evalBool_of_condition hanswers hl t hc
    rw [renderBranches, chars, chars, List.append_nil]
    refine bind_eq_ok.mpr ⟨_, hcondition, ?_⟩
    cases htrue : c.holds s with
    | true => exact renderNodes_of_form hanswers (hl.given hc htrue) hyes
    | false => exact renderBranches_of_form hanswers hl hno
end

theorem outputOf_of_form {l : Level} {s : Scene} (hanswers : s.project.Answers) (hl : l.Holds s [⟨[], none⟩] ctx)
    (id : String) {source : String} {F : Form} (h : ofSource? l source.toList = some F) :
    outputOf id source ctx = .ok ("\n".intercalate (F.lines s)) := by
  obtain ⟨nodes, hnodes, hF⟩ := Option.bind_eq_some_iff.mp h
  have hwhole : renderWhole id ctx nodes insertionDepth [⟨[], none⟩] = .ok (F.chars s) := by
    rw [show insertionDepth = insertionDepth - 1 + 1 from rfl, renderWhole, renderNodes_of_form hanswers hl hF]
    rfl
  simp only [outputOf, render, hnodes, hwhole, intercalate_lines]
  rfl

end Form

end Scaffold
