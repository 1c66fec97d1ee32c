import Scaffold.Proofs.Plan.Locality

/-! The texts of a phase in the comments of generated code (`Project.comments_fit`). Templates put the name and the
    description of a phase behind `//` as they are, and nothing that loading asks of them concerns line breaks but that
    the words of the name make up identifiers. So the texts stay inside comments exactly if every line break in them is
    followed by another one or by `//`. -/

namespace Scaffold

/-! ### Marked texts -/

/-- Characters, some of which have a mark. -/
abbrev Marked := List (Char × Bool)

namespace Marked

/-- A text all of whose characters have that mark. -/
def all (b : Bool) (s : List Char) : Marked := s.map (·, b)

theorem all_cons (b : Bool) (c : Char) (s : List Char) : all b (c :: s) = (c, b) :: all b s := rfl

theorem all_append (b : Bool) (s t : List Char) : all b (s ++ t) = all b s ++ all b t := List.map_append

theorem map_fst_all (b : Bool) (s : List Char) : (all b s).map Prod.fst = s := by
  simp [all, Function.comp_def]

/-- The lines of a marked text. The last one is what stands behind the last line break. -/
def lines (t : Marked) : List Marked := t.splitOnP (·.1 = '\n')

/-- A line that is a comment if there is a mark on it. -/
def IsSheltered (line : Marked) : Prop := (∃ c ∈ line, c.2 = true) → ['/', '/'] <+: line.map Prod.fst

/-- All characters with marks are on lines that begin with `//`. A line break is on no line. -/
def InComments (t : Marked) : Prop := ∀ line ∈ t.lines, line.IsSheltered

variable {c : Char} {b : Bool} {first : Marked} {rest : List Marked} {t : Marked}

theorem exists_lines (t : Marked) : ∃ first rest, t.lines = first :: rest :=
  List.exists_cons_of_ne_nil (List.splitOnP_ne_nil _ t)

theorem lines_newline (b : Bool) (t : Marked) : lines (('\n', b) :: t) = [] :: t.lines := by
  simp [lines, List.splitOnP_cons_eq_if_modifyHead]

theorem lines_cons (hc : c ≠ '\n') (h : t.lines = first :: rest) : lines ((c, b) :: t) = ((c, b) :: first) :: rest := by
  rw [lines] at h
  simp [lines, List.splitOnP_cons_eq_if_modifyHead, hc, h]

theorem isSheltered_nil : IsSheltered [] := fun ⟨_, hc, _⟩ => absurd hc List.not_mem_nil

theorem isSheltered_of_unmarked {line : Marked} (h : ∀ c ∈ line, c.2 = false) : line.IsSheltered := by
  rintro ⟨c, hc, hmark⟩
  rw [h c hc] at hmark
  cases hmark

/-! ### From the middle of a line -/

/-- What is known of the line up to some point. -/
inductive LineState where
  /-- nothing stands on it -/
  | start
  /-- it begins with `//` -/
  | comment
  | unknown
  deriving DecidableEq

/-- In a text that goes on from there all characters with marks are in comments. -/
def From (t : Marked) : LineState → Prop
  | .start => t.InComments
  | .comment => ∀ line ∈ t.lines.tail, line.IsSheltered
  | .unknown => (∀ c ∈ t.lines.headD [], c.2 = false) ∧ ∀ line ∈ t.lines.tail, line.IsSheltered

theorem inComments_iff (h : t.lines = first :: rest) : t.InComments ↔ first.IsSheltered ∧ t.From .comment := by
  rw [InComments, From, h, List.forall_mem_cons, List.tail_cons]

/-- What is in comments on a line of which nothing is known is so on any line. -/
theorem From.of_unknown (h : t.From .unknown) : ∀ σ, t.From σ
  | .start => by
    obtain ⟨first, rest, hlines⟩ := t.exists_lines
    obtain ⟨hfirst, hrest⟩ := h
    rw [hlines] at hfirst
    exact (inComments_iff hlines).mpr ⟨isSheltered_of_unmarked hfirst, hrest⟩
  | .comment => h.2
  | .unknown => h

theorem From.newline (h : t.InComments) (b : Bool) : ∀ σ, From (('\n', b) :: t) σ
  | .start => by
    rw [From, inComments_iff (lines_newline b t), From, lines_newline]
    exact ⟨isSheltered_nil, h⟩
  | .comment => by rwa [From, lines_newline]
  | .unknown => by
    rw [From, lines_newline]
    exact ⟨List.forall_mem_nil _, h⟩

theorem From.unmarked (h : t.From .unknown) (hc : c ≠ '\n') : ∀ σ, From ((c, false) :: t) σ := by
  obtain ⟨first, rest, hlines⟩ := t.exists_lines
  refine From.of_unknown ?_
  rw [From, hlines] at h
  rw [From, lines_cons hc hlines]
  exact ⟨List.forall_mem_cons.mpr ⟨rfl, h.1⟩, h.2⟩

theorem from_comment_cons (hc : c ≠ '\n') : From ((c, b) :: t) .comment ↔ t.From .comment := by
  obtain ⟨first, rest, hlines⟩ := t.exists_lines
  rw [From, From, lines_cons hc hlines, hlines, List.tail_cons, List.tail_cons]

theorem from_nil : From [] .comment := List.forall_mem_nil _

theorem from_comment_newline : From (('\n', b) :: t) .comment ↔ t.InComments := by
  rw [From, lines_newline, List.tail_cons, InComments]

theorem inComments_slashes : InComments (('/', b) :: ('/', b) :: t) ↔ t.From .comment := by
  obtain ⟨first, rest, hlines⟩ := t.exists_lines
  have hslash : lines (('/', b) :: t) = (('/', b) :: first) :: rest := lines_cons (by decide) hlines
  rw [inComments_iff (lines_cons (by decide) hslash), from_comment_cons (by decide), from_comment_cons (by decide)]
  exact and_iff_right fun _ => ⟨first.map Prod.fst, rfl⟩

theorem From.unmarked_append (h : t.From .unknown) : ∀ (s : List Char) (σ : LineState), From (all false s ++ t) σ
  | [], σ => h.of_unknown σ
  | c :: s, σ => by
    have ih := From.unmarked_append h s
    by_cases hc : c = '\n'
    · rw [hc]
      exact From.newline (ih .start) false σ
    · exact From.unmarked (ih .unknown) hc σ

theorem from_comment_append {s : List Char} (hs : '\n' ∉ s) : From (all b s ++ t) .comment ↔ t.From .comment := by
  induction s with
  | nil => rfl
  | cons c s ih =>
    obtain ⟨hc, hs⟩ := not_or.mp (mt List.mem_cons.mpr hs)
    rw [← ih hs]
    exact from_comment_cons (Ne.symm hc)

end Marked

/-! ### Texts that stay inside a comment -/

/-- Every line break of a text is followed by another one or by `//`. -/
def StaysComment (s : List Char) : Prop := ∀ rest, '\n' :: rest <:+ s → ['\n'] <+: rest ∨ ['/', '/'] <+: rest

namespace StaysComment
open Marked

variable {c : Char} {s : List Char}

theorem nil : StaysComment [] := fun _ h => absurd h (by simp)

theorem cons_iff (hc : c ≠ '\n') : StaysComment (c :: s) ↔ StaysComment s := by
  simp only [StaysComment, List.suffix_cons_iff, List.cons.injEq, or_imp, forall_and]
  exact and_iff_right fun _ h => absurd h.1.symm hc

theorem newline_iff : StaysComment ('\n' :: s) ↔ (['\n'] <+: s ∨ ['/', '/'] <+: s) ∧ StaysComment s := by
  simp only [StaysComment, List.suffix_cons_iff, List.cons.injEq, true_and, or_imp, forall_and, forall_eq]

instance decide : ∀ s, Decidable (StaysComment s)
  | [] => isTrue nil
  | c :: s =>
    have := decide s
    if hc : c = '\n' then decidable_of_iff (_ ∧ StaysComment s) (hc ▸ newline_iff).symm
    else decidable_of_iff (StaysComment s) (cons_iff hc).symm

theorem from_append {t : Marked} (h : t.From .comment) :
    ∀ {s : List Char}, StaysComment s → From (all true s ++ t) .comment
  | [], _ => h
  | c :: s, hs => by
    by_cases hc : c = '\n'
    · rw [hc] at hs ⊢
      obtain ⟨hnext, hs⟩ := newline_iff.mp hs
      have ih := from_append h hs
      refine from_comment_newline.mpr ?_
      rcases hnext with ⟨rest, rfl⟩ | ⟨rest, rfl⟩
      · exact From.newline (from_comment_newline.mp ih) true .start
      · refine inComments_slashes.mpr ?_
        exact (from_comment_cons (by decide)).mp ((from_comment_cons (by decide)).mp ih)
    · exact (from_comment_cons hc).mpr (from_append h ((cons_iff hc).mp hs))

/-- A line in comments that begins with a mark begins with `//`. -/
theorem slashes_of_inComments {t : Marked} (h : InComments ((c, true) :: t)) (hc : c ≠ '\n') :
    c = '/' ∧ ∃ b rest, t = ('/', b) :: rest := by
  obtain ⟨first, others, hlines⟩ := t.exists_lines
  obtain ⟨rest, hslashes⟩ := ((inComments_iff (lines_cons hc hlines)).mp h).1 ⟨_, List.mem_cons_self .., rfl⟩
  obtain ⟨rfl, hsecond⟩ := List.cons.inj hslashes
  refine ⟨rfl, ?_⟩
  cases t with
  | nil =>
    cases hlines
    cases hsecond
  | cons x t =>
    obtain ⟨a, b⟩ := x
    by_cases ha : a = '\n'
    · rw [ha, lines_newline] at hlines
      cases hlines
      cases hsecond
    · obtain ⟨second, others', hrest⟩ := exists_lines t
      rw [lines_cons ha hrest] at hlines
      cases hlines
      obtain ⟨rfl, -⟩ := List.cons.inj hsecond
      exact ⟨b, t, rfl⟩

/-- A text with marks that stays inside a comment in front of a mark is such a text. -/
theorem of_from {t : Marked} (hc : c ≠ '\n') (hslash : c ≠ '/') : ∀ {s : List Char},
    From (all true s ++ (c, true) :: t) .comment → StaysComment s ∧ From ((c, true) :: t) .comment
  | [], h => ⟨nil, h⟩
  | a :: s, h => by
    by_cases ha : a = '\n'
    · rw [ha] at h ⊢
      have hcomments : InComments (all true s ++ (c, true) :: t) := from_comment_newline.mp h
      obtain ⟨first, others, hlines⟩ := Marked.exists_lines (all true s ++ (c, true) :: t)
      obtain ⟨hs, ht⟩ := of_from hc hslash ((inComments_iff hlines).mp hcomments).2
      refine ⟨newline_iff.mpr ⟨?_, hs⟩, ht⟩
      match s with
      | [] => exact absurd (slashes_of_inComments hcomments hc).1 hslash
      | x :: s =>
        by_cases hx : x = '\n'
        · exact .inl ⟨s, by rw [hx]; rfl⟩
        · obtain ⟨rfl, b, rest, hsecond⟩ := slashes_of_inComments hcomments hx
          -- the second character is not the one behind the text
          cases s with
          | nil => exact absurd (Prod.mk.inj (List.cons.inj hsecond).1).1 hslash
          | cons y s =>
            obtain rfl : y = '/' := (Prod.mk.inj (List.cons.inj hsecond).1).1
            exact .inr ⟨s, rfl⟩
    · obtain ⟨hs, ht⟩ := of_from hc hslash ((from_comment_cons ha).mp h)
      exact ⟨(cons_iff ha).mpr hs, ht⟩

theorem from_iff {t : Marked} (hc : c ≠ '\n') (hslash : c ≠ '/') :
    From (all true s ++ (c, true) :: t) .comment ↔ StaysComment s ∧ From ((c, true) :: t) .comment :=
  ⟨of_from hc hslash, fun h => from_append h.2 h.1⟩

end StaysComment

/-! ### Templates -/

/-- Whether a blank is filled with the name or the description of a phase. -/
def Field.isProse : Field → Bool
  | .phaseName | .description => true
  | _ => false

/-- The texts of a phase stay inside a comment. -/
def Phase.StaysComment (phase : Phase) : Prop :=
  Scaffold.StaysComment phase.name.toList ∧ ∀ text ∈ phase.description, Scaffold.StaysComment text.toList

namespace Form
open Marked

/-- The text of a form, with marks on the names and the descriptions of phases. -/
def marked : Form → Scene → Marked
  | done, _ => []
  | fixed t rest, s => all false t.toList ++ rest.marked s
  | newline rest, s => ('\n', false) :: rest.marked s
  | field f rest, s => all f.isProse (f.text s).toList ++ rest.marked s
  | each q body rest, s => (q.scenes s).flatMap body.marked ++ rest.marked s
  | choice c yes no rest, s => (if c.holds s then yes.marked s else no.marked s) ++ rest.marked s

theorem map_fst_marked : ∀ (F : Form) (s : Scene), (F.marked s).map Prod.fst = F.chars s
  | done, _ => rfl
  | fixed t rest, s => by rw [marked, chars, List.map_append, map_fst_all, map_fst_marked rest s]
  | newline rest, s => by rw [marked, chars, List.map_cons, map_fst_marked rest s]
  | field f rest, s => by rw [marked, chars, List.map_append, map_fst_all, map_fst_marked rest s]
  | each q body rest, s => by
    rw [marked, chars, List.map_append, List.map_flatMap, map_fst_marked rest s]
    simp only [map_fst_marked body]
  | choice c yes no rest, s => by
    rw [marked, chars, List.map_append, apply_ite (List.map Prod.fst), map_fst_marked yes s, map_fst_marked no s,
      map_fst_marked rest s]

/-- What is known of a line behind a fixed text. -/
def afterFixed (t : String) : LineState → LineState
  | .start => if ['/', '/'].isPrefixOf t.toList then .comment else .unknown
  | σ => σ

/-- What is known of the line behind a form if all prose in it stands behind `//`. -/
def shelter? : Form → LineState → Option LineState
  | done, σ => some σ
  | fixed t rest, σ => if '\n' ∈ t.toList then none else rest.shelter? (afterFixed t σ)
  | newline rest, _ => rest.shelter? .start
  | field f rest, σ =>
    if f.isProse then if σ = .comment then rest.shelter? .comment else none else rest.shelter? .unknown
  | each q body rest, _ =>
    -- in the parts that are repeated for phases there is prose of other phases
    if q = .phases then none else (body.shelter? .unknown).bind fun _ => rest.shelter? .unknown
  | choice _ yes no rest, σ =>
    (yes.shelter? σ).bind fun τ => (no.shelter? σ).bind fun τ' => rest.shelter? (if τ = τ' then τ else .unknown)

section
variable {s : Scene} {more : Marked}

theorem from_fixed {t : String} (hbreak : '\n' ∉ t.toList) : ∀ {σ : LineState}, more.From (afterFixed t σ) →
    From (all false t.toList ++ more) σ
  | .start, h => by
    rw [afterFixed] at h
    split at h
    · rename_i hslashes
      obtain ⟨rest, hrest⟩ := List.isPrefixOf_iff_prefix.mp hslashes
      rw [← hrest] at hbreak ⊢
      have hfree : '\n' ∉ rest := fun hmem => hbreak (List.mem_append_right _ hmem)
      exact inComments_slashes.mpr ((from_comment_append hfree).mpr h)
    · exact h.unmarked_append _ _
  | .comment, h => (from_comment_append hbreak).mpr h
  | .unknown, h => h.unmarked_append _ _

theorem staysComment_of_isProse (hphase : s.phase.StaysComment) : ∀ {f : Field}, f.isProse = true →
    StaysComment (f.text s).toList
  | .phaseName, _ => hphase.1
  | .description, _ => by
    rw [Field.text]
    cases hdescription : s.phase.description with
    | none => exact StaysComment.nil
    | some text => exact hphase.2 text hdescription

theorem scene_phase {q : Series} (hq : q ≠ .phases) : ∀ scene ∈ q.scenes s, scene.phase = s.phase := by
  cases q with
  | phases => exact absurd rfl hq
  | inputs | outputs =>
    rw [Series.scenes, List.forall_mem_map]
    exact fun _ _ => rfl

/-- A form all of whose prose stands behind `//` keeps it in comments, whatever follows. -/
theorem from_of_shelter : ∀ {F : Form} {σ τ : LineState} {s : Scene} {more : Marked}, F.shelter? σ = some τ →
    s.phase.StaysComment → more.From τ → From (F.marked s ++ more) σ
  | done, _, _, _, _, h, _, hmore => by
    cases h
    exact hmore
  | fixed t rest, σ, τ, s, more, h, hphase, hmore => by
    rw [shelter?] at h
    split at h
    · cases h
    · rename_i hbreak
      rw [marked, List.append_assoc]
      exact from_fixed hbreak (from_of_shelter h hphase hmore)
  | newline rest, σ, τ, s, more, h, hphase, hmore => by
    have hrest : From (rest.marked s ++ more) .start := from_of_shelter h hphase hmore
    exact From.newline hrest false σ
  | field f rest, σ, τ, s, more, h, hphase, hmore => by
    rw [shelter?] at h
    rw [marked, List.append_assoc]
    split at h
    · rename_i hprose
      split at h
      · rename_i hσ
        rw [hσ, hprose]
        exact StaysComment.from_append (from_of_shelter h hphase hmore) (staysComment_of_isProse hphase hprose)
      · cases h
    · rename_i hprose
      rw [Bool.not_eq_true] at hprose
      rw [hprose]
      exact (from_of_shelter h hphase hmore).unmarked_append _ _
  | each q body rest, σ, τ, s, more, h, hphase, hmore => by
    rw [shelter?] at h
    split at h
    · cases h
    rename_i hq
    obtain ⟨ρ, hbody, hrest⟩ := Option.bind_eq_some_iff.mp h
    rw [marked, List.append_assoc]
    -- the invariant between two scenes: nothing is known of the line
    have hseries : ∀ scenes : List Scene, (∀ scene ∈ scenes, scene.phase = s.phase) →
        From (scenes.flatMap body.marked ++ (rest.marked s ++ more)) .unknown := by
      intro scenes hscenes
      induction scenes with
      | nil => exact from_of_shelter hrest hphase hmore
      | cons scene scenes ih =>
        obtain ⟨hscene, hscenes⟩ := List.forall_mem_cons.mp hscenes
        rw [List.flatMap_cons, List.append_assoc]
        exact from_of_shelter hbody (hscene ▸ hphase) ((ih hscenes).of_unknown ρ)
    exact (hseries _ (scene_phase hq)).of_unknown σ
  | choice c yes no rest, σ, τ, s, more, h, hphase, hmore => by
    rw [shelter?] at h
    obtain ⟨ρ, hyes, h⟩ := Option.bind_eq_some_iff.mp h
    obtain ⟨ρ', hno, h⟩ := Option.bind_eq_some_iff.mp h
    have hrest := from_of_shelter h hphase hmore
    have hboth : From (rest.marked s ++ more) ρ ∧ From (rest.marked s ++ more) ρ' := by
      split at hrest
      · rename_i heq
        exact ⟨hrest, heq ▸ hrest⟩
      · exact ⟨hrest.of_unknown _, hrest.of_unknown _⟩
    rw [marked, List.append_assoc]
    split
    · exact from_of_shelter hyes hphase hboth.1
    · exact from_of_shelter hno hphase hboth.2

end

end Form

/-! ### The files of a phase -/

section Files
open Template Form Marked

/-- The text of a file with marks on what is from the name and the description of its phase. -/
def Project.markedOf (p : Project) (f : PlannedFile) : Marked :=
  (shippedForm? f.templateId).elim [] (·.marked (p.sceneOf f.scope))

/-- A worker up to the end of its imports. -/
def Project.workerImports (p : Project) (phase : Phase) : String :=
  "package " ++ phase.workerPackage ++ "\n\nimport (\n\t\"context\"\n\n\t" ++ p.version ++ " \"" ++ p.typesImportPath ++
    "\"\n)\n"

/-- The comment of a worker from the full stop on. -/
def workerNote : String :=
  ".\n//\n// This file is generated once and then owned by you; regeneration will not\n// overwrite it."

/-- The comment in front of the type of a worker. -/
def Phase.workerDoc (phase : Phase) : String :=
  "// Worker runs the " ++ phase.name ++ " phase" ++ phase.description.elim "" (": " ++ ·) ++ workerNote

/-- The texts of a phase stay inside the comments of its files, and of the lines in front of the type of its worker
    all are comments or empty. -/
def Project.KeepsComments (p : Project) (files : List GeneratedFile) (phase : Phase) : Prop :=
  (∀ f ∈ files, f.scope = .phase phase → (p.markedOf f.toPlannedFile).InComments) ∧
    ∀ line ∈ Text.splitOn '\n' phase.workerDoc.toList, line = [] ∨ ['/', '/'] <+: line

/-- The comments of generated files that texts of a phase are put into. -/
structure Project.CommentsFit (p : Project) (files : List GeneratedFile) : Prop where
  marked : ∀ f ∈ files, f.content.toList = (p.markedOf f.toPlannedFile).map Prod.fst
  /-- nothing but an empty line and the comment stands between the imports and the type of a worker -/
  documented : ∀ phase ∈ p.descriptor.phases, p.filesOf phase ≠ [] → ∃ f ∈ files, f.scope = .phase phase ∧
    f.outputPath = p.workerImportPath phase ++ "/worker.go" ∧ ∃ methods,
      f.content = p.workerImports phase ++ "\n" ++ phase.workerDoc ++ "\ntype Worker struct\x7b\x7d\n" ++ methods
  /-- comments keep their texts if every line break in these is followed by another one or by `//`, and only then -/
  kept : ∀ phase ∈ p.descriptor.phases, p.filesOf phase ≠ [] → (p.KeepsComments files phase ↔ phase.StaysComment)

theorem forall_lines_iff (s : List Char) :
    (∀ line ∈ Text.splitOn '\n' s, line = [] ∨ ['/', '/'] <+: line) ↔ (all true s).InComments := by
  have hlines : ∀ s : List Char, (all true s).lines = (Text.splitOn '\n' s).map (all true) := by
    intro s
    induction s with
    | nil => rfl
    | cons c s ih =>
      by_cases hc : c = '\n'
      · rw [hc, all_cons, lines_newline, ih, Text.splitOn, if_pos rfl, List.map_cons]
        rfl
      · obtain ⟨first, rest, hsplit⟩ := List.exists_cons_of_ne_nil (Text.splitOn_ne_nil '\n' s)
        rw [hsplit] at ih
        rw [Text.splitOn_cons_of_ne hc hsplit]
        exact lines_cons hc ih
  rw [InComments, hlines, List.forall_mem_map]
  refine forall₂_congr fun line _ => ?_
  rw [IsSheltered, map_fst_all]
  cases line with
  | nil => simp [all]
  | cons c line => simp [all]

/-- Nothing but comments and empty lines stand in front of the type of a worker if the texts of its phase stay inside a
    comment, and only then. -/
theorem workerDoc_iff (phase : Phase) :
    (∀ line ∈ Text.splitOn '\n' phase.workerDoc.toList, line = [] ∨ ['/', '/'] <+: line) ↔ phase.StaysComment := by
  have hlead : "// Worker runs the ".toList = '/' :: '/' :: " Worker runs the ".toList := by decide
  have hnoun : " phase".toList = ' ' :: "phase".toList := by decide
  have hslashes : phase.workerDoc.toList = '/' :: '/' :: (" Worker runs the ".toList ++ (phase.name.toList ++
      (' ' :: "phase".toList ++ ((phase.description.elim "" (": " ++ ·)).toList ++ workerNote.toList)))) := by
    unfold Phase.workerDoc
    generalize workerNote = note
    simp only [String.toList_append, hlead, hnoun, List.append_assoc, List.cons_append]
  have hopening : '\n' ∉ " Worker runs the ".toList := by decide
  have hphase : '\n' ∉ ' ' :: "phase".toList := by decide
  rw [forall_lines_iff, hslashes, all_cons, all_cons, inComments_slashes, all_append, from_comment_append hopening,
    all_append, List.cons_append, all_cons, StaysComment.from_iff (by decide) (by decide), ← all_cons, ← List.cons_append,
    all_append, from_comment_append hphase, Phase.StaysComment]
  refine and_congr_right fun _ => ?_
  obtain ⟨note, hnote⟩ := List.head?_eq_some_iff.mp (by decide +kernel : workerNote.toList.head? = some '.')
  have hend : From (all true workerNote.toList) .comment := by
    rw [← List.append_nil (all true _)]
    exact StaysComment.from_append from_nil (by decide +kernel)
  cases phase.description with
  | none => simpa using hend
  | some text =>
    have hcolon : '\n' ∉ ": ".toList := by decide
    rw [hnote, all_cons] at hend
    rw [Option.elim_some, String.toList_append, List.append_assoc, all_append, from_comment_append hcolon, all_append,
      hnote, all_cons, StaysComment.from_iff (by decide) (by decide)]
    simp [hend]

theorem exists_sheltered_form : ∀ id ∈ phaseTemplates, ∃ F, shippedForm? id = some F ∧ (F.shelter? .start).isSome := by
  simp only [phaseTemplates, List.forall_mem_cons, List.not_mem_nil, false_implies, implies_true, and_true]
  refine ⟨?_, ?_⟩
  -- a source is spelled before it is read, as in `shippedForm_eq`
  all_goals
    apply exists_form_of_toList rfl rfl
    · apply toList_wholeLines_cons rfl
      repeat with_reducible apply toList_wholeLines_cons rfl
      exact toList_wholeLines_nil
    · decide +kernel

/-- The imports of a worker. -/
def workerHead : GoHead :=
  ⟨false, ["package ", Field.workerPackage],
    [["\t\"context\""], [], ["\t", Field.version, " \"", Field.typesImportPath, "\""]]⟩

/-- The comment of a worker from the full stop on, and its type. -/
def workerNotePart : Form :=
  cells ["."] <|
  line ["//"] <|
  line ["// This file is generated once and then owned by you; regeneration will not"] <|
  line ["// overwrite it."] <|
  line ["type Worker struct\x7b\x7d"] <|
  line [] <|
  .done

/-- The comment of a worker, and its type. -/
def workerPart : Form :=
  line ["// Worker runs the ", Field.phaseName, " phase"] <|
  .choice .described (cells [": ", Field.description] .done) .done <|
  workerNotePart

theorem isSome_after_worker :
    ((shippedForm? "code/worker.go.tera").bind (workerHead.form.append workerPart).after?).isSome := by
  apply isSome_after_of_toList rfl rfl
  · apply toList_wholeLines_cons rfl
    repeat with_reducible apply toList_wholeLines_cons rfl
    exact toList_wholeLines_nil
  · decide +kernel

theorem chars_workerHead (p : Project) (phase : Phase) :
    workerHead.form.chars ⟨p, phase, ""⟩ = (p.workerImports phase).toList := by
  simp [workerHead, GoHead.form, Project.workerImports, line, cells, chars, Field.text]

theorem chars_workerNotePart (s : Scene) :
    workerNotePart.chars s = (workerNote ++ "\ntype Worker struct\x7b\x7d\n").toList := by
  simp only [workerNotePart, line, cells, chars]
  decide +kernel

theorem chars_workerPart (p : Project) (phase : Phase) : workerPart.chars ⟨p, phase, ""⟩ =
    ("\n" ++ phase.workerDoc ++ "\ntype Worker struct\x7b\x7d\n").toList := by
  unfold workerPart Phase.workerDoc
  simp only [line, cells, chars, chars_workerNotePart, String.toList_append, List.append_assoc]
  generalize workerNote.toList = note
  cases h : phase.description <;> simp [Field.text, Condition.holds, h]

variable {p : Project} {phase : Phase}

/-- A worker is documented between its imports and its type. -/
theorem linesOf_worker {f : PlannedFile} (htemplate : f.templateId = "code/worker.go.tera")
    (hscope : f.scope = .phase phase) : ∃ methods, "\n".intercalate (p.linesOf f) =
      p.workerImports phase ++ "\n" ++ phase.workerDoc ++ "\ntype Worker struct\x7b\x7d\n" ++ methods := by
  obtain ⟨G, hG⟩ := exists_append_of_isSome isSome_after_worker
  refine ⟨String.ofList (G.chars ⟨p, phase, ""⟩), ?_⟩
  have hlines : p.linesOf f = Form.lines ((workerHead.form.append workerPart).append G) ⟨p, phase, ""⟩ := by
    rw [Project.linesOf, htemplate, hG, Option.elim_some, hscope, Project.sceneOf]
  refine String.toList_inj.mp ?_
  simp only [hlines, intercalate_lines, chars_append, chars_workerHead, chars_workerPart, String.toList_ofList,
    String.toList_append, List.append_assoc]

theorem map_fst_markedOf (p : Project) (f : PlannedFile) :
    ("\n".intercalate (p.linesOf f)).toList = (p.markedOf f).map Prod.fst := by
  rw [Project.linesOf, Project.markedOf]
  cases shippedForm? f.templateId with
  | none => rfl
  | some F => rw [Option.elim_some, Option.elim_some, intercalate_lines, String.toList_ofList, map_fst_marked]

theorem inComments_markedOf {f : PlannedFile} (hf : f ∈ p.phaseFiles phase) (h : phase.StaysComment) :
    (p.markedOf f).InComments := by
  obtain ⟨F, hF, hsheltered⟩ := exists_sheltered_form f.templateId (templateId_of_mem_phaseFiles hf)
  obtain ⟨σ, hσ⟩ := Option.isSome_iff_exists.mp hsheltered
  rw [Project.markedOf, hF, Option.elim_some, scope_of_mem_phaseFiles hf, ← List.append_nil (F.marked _)]
  have hend : From [] .unknown := ⟨List.forall_mem_nil _, List.forall_mem_nil _⟩
  exact from_of_shelter hσ h (hend.of_unknown σ)

theorem workerFile_mem (hphase : phase ∈ p.descriptor.phases) (hgenerates : phase.generatesFiles = true) :
    ∃ f ∈ p.laidOut p.plan, f.scope = .phase phase ∧ f.outputPath = p.workerImportPath phase ++ "/worker.go" ∧ ∃ methods,
      f.content = p.workerImports phase ++ "\n" ++ phase.workerDoc ++ "\ntype Worker struct\x7b\x7d\n" ++ methods := by
  obtain ⟨f, hf, htemplate, hscope, hpath⟩ : ∃ f ∈ p.phaseFiles phase, f.templateId = "code/worker.go.tera" ∧
      f.scope = .phase phase ∧ f.outputPath = p.workerImportPath phase ++ "/worker.go" := by
    rw [Project.phaseFiles, if_pos hgenerates]
    exact ⟨_, .tail _ (.head _), rfl, rfl, rfl⟩
  have hplanned : f ∈ p.plan := List.mem_append_right _ (List.mem_flatMap.mpr ⟨phase, hphase, hf⟩)
  exact ⟨_, List.mem_map_of_mem hplanned, hscope, hpath, linesOf_worker htemplate hscope⟩

end Files

open Template in
/-- **Texts of the descriptor in comments**: for every loaded project and every phase with planned files, the name and
    the description stay inside the comments of the files, and comments are all that stands between the imports and the
    type of the worker, exactly if every line break in the name and the description is followed by another one or by
    `//`. -/
theorem Project.comments_fit {bytes : ByteArray} {root : Except RootError String} {p : Project}
    (h : load bytes root = .ok p) : ∃ files, (∀ (m : Type → Type) [Monad m] [LawfulMonad m],
      p.generate (Store.shipped : Store m) = pure (.ok files)) ∧ p.CommentsFit files := by
  have hpackaged := (loaded_of_load h).packaged
  refine ⟨_, generate_eq_lines h, ?_, fun phase hphase hfiles => ?_, fun phase hphase hfiles => ?_⟩
  · intro f hf
    rw [content_of_mem_laidOut f hf]
    exact map_fst_markedOf p f.toPlannedFile
  · exact workerFile_mem hphase ((filesOf_ne_nil_iff hpackaged hphase).mp hfiles)
  · rw [KeepsComments, workerDoc_iff, and_iff_right_iff_imp]
    intro hstays f hf hscope
    have hfile : f.toPlannedFile ∈ p.filesOf phase := by
      obtain ⟨g, hg, rfl⟩ := List.mem_map.mp hf
      exact List.mem_filter.mpr ⟨hg, decide_eq_true hscope⟩
    exact inComments_markedOf (filesOf_eq_phaseFiles hpackaged hphase ▸ hfile) hstays

/-- A project with a description of two lines, and with one whose second line is a comment of its own. -/
def Project.described : Project where
  descriptor := ⟨"a/v1", "K", none, [⟨"a", some "x\ny", ["i"], []⟩, ⟨"b", some "x\n\n//y", [], ["o"]⟩]⟩
  moduleRoot := "m"
  group := "a"
  version := "v1"
  typesImportPath := "m/pkg/apis/ks/v1"
  schedulerImportPath := "m/pkg/scheduler"
  configImportPath := "m/pkg/config"
  kindLowerCamel := "k"
  operatorName := "m"

/-- The descriptor of that project. -/
def describedText : String :=
  "apiVersion: a/v1\nkind: K\nphases:\n- name: a\n  description: \"x\\ny\"\n  inputs: [i]\n" ++
    "- name: b\n  description: \"x\\n\\n//y\"\n  outputs: [o]\n"

/-- The second line of the one description is left outside the comment of its worker, the other one stays inside. -/
theorem Project.comments_fit_described :
    load (Text.encode describedText) (.ok "m") = .ok described ∧
    ∃ files, described.CommentsFit files ∧
      ¬described.KeepsComments files ⟨"a", some "x\ny", ["i"], []⟩ ∧
      described.KeepsComments files ⟨"b", some "x\n\n//y", [], ["o"]⟩ := by
  have hload : load (Text.encode describedText) (.ok "m") = .ok described := eq_ok_of_toOption (by decide +kernel)
  obtain ⟨files, -, hfits⟩ := comments_fit hload
  exact ⟨hload, files, hfits, mt (hfits.kept _ (by decide) (by decide +kernel)).mp (fun h => absurd h.2 (by decide)),
    (hfits.kept _ (by decide) (by decide +kernel)).mpr ⟨by decide, by decide⟩⟩

end Scaffold
