import Scaffold.Proofs.Plan.Writable

/-! The form of a template: fixed texts, line breaks, blanks to be filled in, and parts that are repeated or that
    depend on a condition. A form says outright what the text is for a project, and what its lines are
    (`Form.intercalate_lines`). A text that is filled in belongs to the line it is filled into, even if there are line
    breaks in it. -/

namespace Scaffold

/-! ### Forms -/

/-- What a template is filled in for. Templates of the whole project do not use the phase and the item. -/
structure Scene where
  project : Project
  phase : Phase
  /-- an input or output of the phase -/
  item : String

/-- What is filled into a blank. -/
inductive Field where
  | version
  | group
  | kind
  | kindLowerCamel
  | resource
  | operatorName
  | configImportPath
  | schedulerImportPath
  | typesImportPath
  | workerImportPath
  | workerPackage
  | phaseName
  | phaseCamel
  | description
  | itemCamel
  deriving DecidableEq

/-- What a part can depend on. -/
inductive Condition where
  | generatesFiles
  | hasInputs
  | hasOutputs
  | described
  deriving DecidableEq

/-- What a part can be repeated for. -/
inductive Series where
  | phases
  | inputs
  | outputs
  deriving DecidableEq

/-- A template as far as its output goes. -/
inductive Form where
  | done
  | fixed (s : String) (rest : Form)
  | newline (rest : Form)
  | field (f : Field) (rest : Form)
  | each (q : Series) (body rest : Form)
  | choice (c : Condition) (yes no rest : Form)
  deriving DecidableEq

def Field.text (s : Scene) : Field → String
  | .version => s.project.version
  | .group => s.project.group
  | .kind => s.project.descriptor.kind
  | .kindLowerCamel => s.project.kindLowerCamel
  | .resource => s.project.pluralKind
  | .operatorName => s.project.operatorName
  | .configImportPath => s.project.configImportPath
  | .schedulerImportPath => s.project.schedulerImportPath
  | .typesImportPath => s.project.typesImportPath
  | .workerImportPath => s.project.workerImportPath s.phase
  | .workerPackage => s.phase.workerPackage
  | .phaseName => s.phase.name
  | .phaseCamel => Naming.upperCamel s.phase.name
  | .description => s.phase.description.getD ""
  | .itemCamel => Naming.upperCamel s.item

def Condition.holds (s : Scene) : Condition → Bool
  | .generatesFiles => s.phase.generatesFiles
  | .hasInputs => s.phase.hasInputs
  | .hasOutputs => s.phase.hasOutputs
  | .described => s.phase.description.isSome

def Series.scenes (s : Scene) : Series → List Scene
  | .phases => s.project.descriptor.phases.map fun phase => { s with phase := phase }
  | .inputs => s.phase.inputs.map fun item => { s with item := item }
  | .outputs => s.phase.outputs.map fun item => { s with item := item }

namespace Form

/-- The text of a form. -/
def chars : Form → Scene → List Char
  | done, _ => []
  | fixed t rest, s => t.toList ++ rest.chars s
  | newline rest, s => '\n' :: rest.chars s
  | field f rest, s => (f.text s).toList ++ rest.chars s
  | each q body rest, s => (q.scenes s).flatMap body.chars ++ rest.chars s
  | choice c yes no rest, s => (if c.holds s then yes.chars s else no.chars s) ++ rest.chars s

/-- A text in front of lines belongs to the first of them. -/
def prepend (t : String) : List String → List String
  | [] => [t]
  | line :: lines => (t ++ line) :: lines

/-- The lines of a form, where `after` are the lines of what follows. -/
def linesThen : Form → Scene → List String → List String
  | done, _, after => after
  | fixed t rest, s, after => prepend t (rest.linesThen s after)
  | newline rest, s, after => "" :: rest.linesThen s after
  | field f rest, s, after => prepend (f.text s) (rest.linesThen s after)
  | each q body rest, s, after => (q.scenes s).foldr body.linesThen (rest.linesThen s after)
  | choice c yes no rest, s, after =>
    if c.holds s then yes.linesThen s (rest.linesThen s after) else no.linesThen s (rest.linesThen s after)

/-- The lines of a form. The last one is what stands behind the last line break. -/
def lines (F : Form) (s : Scene) : List String := F.linesThen s [""]

/-- One form after another. -/
def append : Form → Form → Form
  | done, G => G
  | fixed t rest, G => fixed t (rest.append G)
  | newline rest, G => newline (rest.append G)
  | field f rest, G => field f (rest.append G)
  | each q body rest, G => each q body (rest.append G)
  | choice c yes no rest, G => choice c yes no (rest.append G)

theorem chars_append : ∀ (F G : Form) (s : Scene), (F.append G).chars s = F.chars s ++ G.chars s
  | done, _, _ => rfl
  | fixed _ rest, G, s | newline rest, G, s | field _ rest, G, s | each _ _ rest, G, s | choice _ _ _ rest, G, s => by
    simp [append, chars, chars_append rest G s]

/-! ### Lines -/

theorem toList_intercalate_prepend (t : String) (lines : List String) :
    ("\n".intercalate (prepend t lines)).toList = t.toList ++ ("\n".intercalate lines).toList := by
  cases lines with
  | nil => simp [prepend]
  | cons line lines => cases lines <;> simp [prepend]

theorem toList_intercalate_newline {lines : List String} (h : lines ≠ []) :
    ("\n".intercalate ("" :: lines)).toList = '\n' :: ("\n".intercalate lines).toList := by
  cases lines with
  | nil => exact absurd rfl h
  | cons line lines => simp

theorem prepend_ne_nil (t : String) (lines : List String) : prepend t lines ≠ [] := by
  cases lines <;> simp [prepend]

theorem tail_prepend (t : String) (lines : List String) : (prepend t lines).tail = lines.tail := by
  cases lines <;> rfl

theorem linesThen_ne_nil : ∀ (F : Form) (s : Scene) {after : List String}, after ≠ [] → F.linesThen s after ≠ []
  | done, _, _, h => h
  | fixed t rest, s, after, _ => by rw [linesThen]; exact prepend_ne_nil t _
  | newline _, _, _, _ => by simp [linesThen]
  | field f rest, s, after, _ => by rw [linesThen]; exact prepend_ne_nil _ _
  | each q body rest, s, after, h => by
    rw [linesThen]
    induction q.scenes s with
    | nil => exact linesThen_ne_nil rest s h
    | cons scene _ ih => exact linesThen_ne_nil body scene ih
  | choice c yes no rest, s, after, h => by
    rw [linesThen]
    split
    · exact linesThen_ne_nil yes s (linesThen_ne_nil rest s h)
    · exact linesThen_ne_nil no s (linesThen_ne_nil rest s h)

/-- A form adds to the first of the lines that follow, and leaves the others alone. -/
theorem tail_suffix_linesThen : ∀ (F : Form) (s : Scene) (after : List String),
    after.tail <:+ (F.linesThen s after).tail
  | done, _, _ => List.suffix_rfl
  | fixed _ rest, s, after | field _ rest, s, after => by
    rw [linesThen, tail_prepend]
    exact tail_suffix_linesThen rest s after
  | newline rest, s, after => by
    rw [linesThen, List.tail_cons]
    exact (tail_suffix_linesThen rest s after).trans (List.tail_suffix _)
  | each q body rest, s, after => by
    rw [linesThen]
    induction q.scenes s with
    | nil => exact tail_suffix_linesThen rest s after
    | cons scene _ ih => exact ih.trans (tail_suffix_linesThen body scene _)
  | choice c yes no rest, s, after => by
    have hrest := tail_suffix_linesThen rest s after
    rw [linesThen]
    split
    · exact hrest.trans (tail_suffix_linesThen yes s _)
    · exact hrest.trans (tail_suffix_linesThen no s _)

theorem toList_intercalate_linesThen : ∀ (F : Form) (s : Scene) {after : List String}, after ≠ [] →
    ("\n".intercalate (F.linesThen s after)).toList = F.chars s ++ ("\n".intercalate after).toList
  | done, _, _, _ => rfl
  | fixed t rest, s, after, h => by
    rw [linesThen, chars, toList_intercalate_prepend, toList_intercalate_linesThen rest s h, List.append_assoc]
  | newline rest, s, after, h => by
    rw [linesThen, chars, toList_intercalate_newline (linesThen_ne_nil rest s h),
      toList_intercalate_linesThen rest s h, List.cons_append]
  | field f rest, s, after, h => by
    rw [linesThen, chars, toList_intercalate_prepend, toList_intercalate_linesThen rest s h, List.append_assoc]
  | each q body rest, s, after, h => by
    rw [linesThen, chars]
    -- each scene stands in front of the lines of the later ones
    have hseries : ∀ scenes : List Scene, scenes.foldr body.linesThen (rest.linesThen s after) ≠ [] ∧
        ("\n".intercalate (scenes.foldr body.linesThen (rest.linesThen s after))).toList =
          scenes.flatMap body.chars ++ (rest.chars s ++ ("\n".intercalate after).toList) := by
      intro scenes
      induction scenes with
      | nil => exact ⟨linesThen_ne_nil rest s h, toList_intercalate_linesThen rest s h⟩
      | cons scene scenes ih =>
        obtain ⟨hne, ih⟩ := ih
        refine ⟨linesThen_ne_nil body scene hne, ?_⟩
        rw [List.foldr_cons, toList_intercalate_linesThen body scene hne, ih, List.flatMap_cons, List.append_assoc]
    rw [(hseries _).2, List.append_assoc]
  | choice c yes no rest, s, after, h => by
    have hrest := toList_intercalate_linesThen rest s h
    have hne := linesThen_ne_nil rest s h
    rw [linesThen, chars]
    split
    · rw [toList_intercalate_linesThen yes s hne, hrest, List.append_assoc]
    · rw [toList_intercalate_linesThen no s hne, hrest, List.append_assoc]

theorem intercalate_lines (F : Form) (s : Scene) : "\n".intercalate (F.lines s) = String.ofList (F.chars s) := by
  rw [← String.toList_inj, lines, toList_intercalate_linesThen F s (by simp)]
  simp

/-! ### Lines of cells -/

/-- A part of a line. -/
inductive Cell where
  | fixed (s : String)
  | field (f : Field)

instance : Coe String Cell := ⟨.fixed⟩
instance : Coe Field Cell := ⟨.field⟩

/-- Cells in front of a form. -/
def cells : List Cell → Form → Form
  | [], rest => rest
  | .fixed s :: cs, rest => fixed s (cells cs rest)
  | .field f :: cs, rest => field f (cells cs rest)

/-- A new line of cells in front of a form. -/
def line (cs : List Cell) (rest : Form) : Form := newline (cells cs rest)

/-- The text of a line. -/
def cellsText (s : Scene) : List Cell → String
  | [] => ""
  | .fixed t :: cs => t ++ cellsText s cs
  | .field f :: cs => f.text s ++ cellsText s cs

theorem prepend_append (a b : String) (lines : List String) : prepend (a ++ b) lines = prepend a (prepend b lines) := by
  cases lines with
  | nil => rfl
  | cons line lines => simp [prepend, String.append_assoc]

section
variable {s : Scene} {rest : Form} {after more : List String}

theorem linesThen_cells (cs : List Cell) (h : rest.linesThen s after = "" :: more) :
    (cells cs rest).linesThen s after = cellsText s cs :: more := by
  have hcells : ∀ cs, (cells cs rest).linesThen s after = prepend (cellsText s cs) ("" :: more) := by
    intro cs
    induction cs with
    | nil => rw [cells, h, cellsText, prepend, String.append_empty]
    | cons c cs ih => cases c <;> rw [cells, linesThen, ih, cellsText, prepend_append]
  rw [hcells cs, prepend, String.append_empty]

theorem linesThen_line (cs : List Cell) (h : rest.linesThen s after = "" :: more) :
    (line cs rest).linesThen s after = "" :: cellsText s cs :: more := by
  rw [line, linesThen, linesThen_cells cs h]

/-- A part that begins with a new line is repeated line by line. -/
theorem linesThen_each {q : Series} {body : Form} {rows : Scene → List String}
    (hbody : ∀ scene more, body.linesThen scene ("" :: more) = "" :: (rows scene ++ more))
    (h : rest.linesThen s after = "" :: more) :
    (each q body rest).linesThen s after = "" :: ((q.scenes s).flatMap rows ++ more) := by
  rw [linesThen, h]
  induction q.scenes s with
  | nil => rfl
  | cons scene scenes ih => rw [List.foldr_cons, ih, hbody, List.flatMap_cons, List.append_assoc]

theorem linesThen_break : (line [] done).linesThen s after = "" :: after := rfl

end

/-! ### Beginnings -/

/-- What follows one form at the beginning of another. -/
def after? : Form → Form → Option Form
  | done, F => some F
  | fixed s rest, fixed t F => if s = t then rest.after? F else none
  | newline rest, newline F => rest.after? F
  | field f rest, field g F => if f = g then rest.after? F else none
  | each q body rest, each q' body' F => if q = q' ∧ body = body' then rest.after? F else none
  | choice c yes no rest, choice c' yes' no' F =>
    if c = c' ∧ yes = yes' ∧ no = no' then rest.after? F else none
  | _, _ => none

theorem eq_append_of_after : ∀ {P F G : Form}, P.after? F = some G → F = P.append G
  | done, _, _, h => by
    cases h
    rfl
  | newline rest, F, G, h => by
    cases F <;> simp only [after?, reduceCtorEq] at h
    rw [eq_append_of_after h, append]
  | fixed _ rest, F, G, h | field _ rest, F, G, h | each _ _ rest, F, G, h | choice _ _ _ rest, F, G, h => by
    cases F <;> simp only [after?, Option.ite_none_right_eq_some, reduceCtorEq] at h
    simp [append, h.1, eq_append_of_after h.2]

theorem linesThen_append : ∀ (P G : Form) (s : Scene) (after : List String),
    (P.append G).linesThen s after = P.linesThen s (G.linesThen s after)
  | done, _, _, _ => rfl
  | fixed _ rest, G, s, after | newline rest, G, s, after | field _ rest, G, s, after | each _ _ rest, G, s, after
  | choice _ _ _ rest, G, s, after => by
    simp only [append, linesThen, linesThen_append rest G s after]

end Form

end Scaffold
