import Scaffold.CommandLine.PhaseArgument
import Scaffold.Proofs.Text.Split
import Scaffold.Proofs.Text.Trim

/-! Phases on the command line. An argument has up to three parts (`Parts`), and a part that lists items has them between
    its commas, each between blanks; what is blank altogether is no item (`Listed`). What is read that way has neither
    blanks at its ends nor the marks that would cut it, so it reads back from the text that is written for it
    (`argument_reads_back`). Only an argument that names no phase is refused. -/

namespace Scaffold.PhaseArgument
open Text

/-! ### What an argument says -/

/-- Neither empty nor with blanks at its ends. -/
structure Trimmed (s : String) : Prop where
  notEmpty : s ≠ ""
  bare : Bare s.toList

/-- The text is `s` between blanks. -/
structure Shows (text : List Char) (s : String) : Prop where
  trimmed : Trimmed s
  margins : ∃ before after, text = before ++ s.toList ++ after ∧ (∀ c ∈ before, isBlank c = true) ∧
    ∀ c ∈ after, isBlank c = true

/-- The items that pieces of a text show, in order. -/
inductive Listed : List (List Char) → List String → Prop
  | nil : Listed [] []
  | blank {piece : List Char} {pieces : List (List Char)} {items : List String} (hblank : ∀ c ∈ piece, isBlank c = true)
      (h : Listed pieces items) : Listed (piece :: pieces) items
  | item {piece : List Char} {pieces : List (List Char)} {item : String} {items : List String} (hitem : Shows piece item)
      (h : Listed pieces items) : Listed (piece :: pieces) (item :: items)

/-- The text lists these items between its commas. -/
def Lists (text : List Char) (items : List String) : Prop :=
  ∃ pieces, text = joinWith [','] pieces ∧ (∀ piece ∈ pieces, ',' ∉ piece) ∧ Listed pieces items

/-- The parts of an argument, which the first two colons end; what is left out is empty. -/
inductive Parts : List Char → List Char → List Char → List Char → Prop
  | name {name : List Char} (hname : ':' ∉ name) : Parts name name [] []
  | inputs {name inputs : List Char} (hname : ':' ∉ name) (hinputs : ':' ∉ inputs) :
      Parts (name ++ ':' :: inputs) name inputs []
  | outputs {name inputs : List Char} (outputs : List Char) (hname : ':' ∉ name) (hinputs : ':' ∉ inputs) :
      Parts (name ++ ':' :: (inputs ++ ':' :: outputs)) name inputs outputs

/-- The argument gives the phase: its name, its inputs and its outputs. -/
structure Gives (arg : String) (p : Phase) : Prop where
  parts : ∃ name inputs outputs, Parts arg.toList name inputs outputs ∧ Shows name p.name ∧ Lists inputs p.inputs ∧
    Lists outputs p.outputs
  description : p.description = none

/-! ### Blanks -/

section
variable {text : List Char} {s : String}

theorem Trimmed.toList_ne_nil (h : Trimmed s) : s.toList ≠ [] := by
  simpa using h.notEmpty

theorem Trimmed.trim_eq (h : Trimmed s) : trim s.toList = s.toList := by
  have htrim : trim ([] ++ s.toList ++ []) = s.toList :=
    trim_margins h.bare h.toList_ne_nil (List.forall_mem_nil _) (List.forall_mem_nil _)
  rwa [List.nil_append, List.append_nil] at htrim

theorem trim_eq_nil_iff : trim text = [] ↔ ∀ c ∈ text, isBlank c = true := by
  refine ⟨fun h => ?_, trim_of_blank⟩
  obtain ⟨before, after, htext, hbefore, hafter⟩ := exists_margins text
  rw [htext, h, List.append_nil]
  exact List.forall_mem_append.mpr ⟨hbefore, hafter⟩

theorem shows_trim (h : trim text ≠ []) : Shows text (String.ofList (trim text)) where
  trimmed := ⟨by simpa using h, by rw [String.toList_ofList]; exact bare_trim text⟩
  margins := by
    rw [String.toList_ofList]
    exact exists_margins text

theorem Shows.mem (h : Shows text s) {c : Char} (hc : c ∈ s.toList) : c ∈ text := by
  obtain ⟨before, after, rfl, -⟩ := h.margins
  exact List.mem_append_left _ (List.mem_append_right _ hc)

end

/-! ### Lists -/

section
variable {pieces : List (List Char)} {items : List String} {text : List Char}

theorem listed_pieces : ∀ pieces : List (List Char),
    Listed pieces (((pieces.map trim).filter (· ≠ [])).map String.ofList)
  | [] => .nil
  | piece :: pieces => by
    have ih := listed_pieces pieces
    by_cases h : trim piece = []
    · rw [List.map_cons, List.filter_cons_of_neg (by simpa using h)]
      exact ih.blank (trim_eq_nil_iff.mp h)
    · rw [List.map_cons, List.filter_cons_of_pos (by simpa using h), List.map_cons]
      exact ih.item (shows_trim h)

theorem lists_listItems (text : List Char) : Lists text (listItems text) :=
  ⟨splitOn ',' text, (joinWith_splitOn ',' text).symm, fun _ => notMem_of_mem_splitOn, listed_pieces _⟩

theorem Listed.exists_piece (h : Listed pieces items) : ∀ item ∈ items, ∃ piece ∈ pieces, Shows piece item := by
  induction h with
  | nil => exact List.forall_mem_nil _
  | blank _ _ ih =>
    intro item hitem
    obtain ⟨piece, hpiece, hshows⟩ := ih item hitem
    exact ⟨piece, List.mem_cons_of_mem _ hpiece, hshows⟩
  | item hshows _ ih =>
    refine List.forall_mem_cons.mpr ⟨⟨_, List.mem_cons_self, hshows⟩, fun item hitem => ?_⟩
    obtain ⟨piece, hpiece, hshows⟩ := ih item hitem
    exact ⟨piece, List.mem_cons_of_mem _ hpiece, hshows⟩

/-- An item has no comma, and else only what its text has. -/
theorem Lists.item (h : Lists text items) :
    ∀ item ∈ items, Trimmed item ∧ ',' ∉ item.toList ∧ ∀ c ∈ item.toList, c ∈ text := by
  obtain ⟨pieces, rfl, hfree, hlisted⟩ := h
  intro item hitem
  obtain ⟨piece, hpiece, hshows⟩ := hlisted.exists_piece item hitem
  exact ⟨hshows.trimmed, fun hcomma => hfree piece hpiece (hshows.mem hcomma), fun c hc =>
    mem_joinWith_of_mem hpiece (hshows.mem hc)⟩

theorem listItems_joinWith (h : ∀ item ∈ items, Trimmed item ∧ ',' ∉ item.toList) :
    listItems (joinWith [','] (items.map String.toList)) = items := by
  by_cases hne : items = []
  · rw [hne]
    rfl
  have hsplit : splitOn ',' (joinWith [','] (items.map String.toList)) = items.map String.toList :=
    splitOn_joinWith (by simpa using hne) (List.forall_mem_map.mpr fun item hitem => (h item hitem).2)
  have htrim : (items.map String.toList).map trim = items.map String.toList := by
    rw [List.map_map]
    exact List.map_congr_left fun item hitem => (h item hitem).1.trim_eq
  have hkept : (items.map String.toList).filter (· ≠ []) = items.map String.toList :=
    List.filter_eq_self.mpr (List.forall_mem_map.mpr fun item hitem => by simpa using (h item hitem).1.toList_ne_nil)
  rw [listItems, hsplit, htrim, hkept, List.map_map]
  simp [Function.comp_def]

end

/-! ### Arguments -/

section
variable {arg name inputs outputs : List Char} {s : String} {p : Phase}

theorem exists_parts (arg : List Char) : ∃ name inputs outputs, Parts arg name inputs outputs := by
  by_cases hcolon : ':' ∈ arg
  · obtain ⟨name, rest, rfl, hname⟩ := List.eq_append_cons_of_mem hcolon
    by_cases hsecond : ':' ∈ rest
    · obtain ⟨inputs, outputs, rfl, hinputs⟩ := List.eq_append_cons_of_mem hsecond
      exact ⟨_, _, _, .outputs outputs hname hinputs⟩
    · exact ⟨_, _, _, .inputs hname hsecond⟩
  · exact ⟨_, _, _, .name hcolon⟩

theorem Parts.takeWhile_eq (h : Parts arg name inputs outputs) : arg.takeWhile (· ≠ ':') = name := by
  have hfree {name : List Char} (h : ':' ∉ name) : ∀ c ∈ name, decide (c ≠ ':') = true := fun c hc =>
    decide_eq_true (ne_of_mem_of_not_mem hc h)
  cases h with
  | name hname => exact List.takeWhile_eq_self_iff.mpr (hfree hname)
  | inputs hname _ =>
    rw [List.takeWhile_append_of_pos (hfree hname)]
    simp
  | outputs _ hname _ =>
    rw [List.takeWhile_append_of_pos (hfree hname)]
    simp

theorem Parts.free (h : Parts arg name inputs outputs) : ':' ∉ name ∧ ':' ∉ inputs := by
  cases h with
  | name hname => exact ⟨hname, List.not_mem_nil⟩
  | inputs hname hinputs => exact ⟨hname, hinputs⟩
  | outputs _ hname hinputs => exact ⟨hname, hinputs⟩

theorem Parts.getD_eq (h : Parts arg name inputs outputs) : (splitAtMost ':' 2 arg).getD 0 [] = name ∧
    (splitAtMost ':' 2 arg).getD 1 [] = inputs ∧ (splitAtMost ':' 2 arg).getD 2 [] = outputs := by
  cases h with
  | name hname =>
    rw [splitAtMost_of_notMem hname]
    exact ⟨rfl, rfl, rfl⟩
  | inputs hname hinputs =>
    rw [splitAtMost_append hname, splitAtMost_of_notMem hinputs]
    exact ⟨rfl, rfl, rfl⟩
  | outputs _ hname hinputs =>
    rw [splitAtMost_append hname, splitAtMost_append hinputs]
    exact ⟨rfl, rfl, rfl⟩

theorem parse?_of_parts (h : Parts s.toList name inputs outputs) : parse? s =
    if trim name = [] then none
    else some ⟨String.ofList (trim name), none, listItems inputs, listItems outputs⟩ := by
  obtain ⟨hname, hinputs, houtputs⟩ := h.getD_eq
  rw [parse?, hname, hinputs, houtputs]
  cases trim name <;> simp

theorem gives_of_parse? (h : parse? s = some p) : Gives s p := by
  obtain ⟨name, inputs, outputs, hparts⟩ := exists_parts s.toList
  rw [parse?_of_parts hparts] at h
  split at h
  · cases h
  · next hname =>
    cases h
    exact ⟨⟨name, inputs, outputs, hparts, shows_trim hname, lists_listItems inputs, lists_listItems outputs⟩, rfl⟩

/-- Only an argument with nothing but blanks in front of its first colon is refused. -/
theorem parse?_eq_none_iff : parse? s = none ↔ ∀ c ∈ s.toList.takeWhile (· ≠ ':'), isBlank c = true := by
  obtain ⟨name, inputs, outputs, hparts⟩ := exists_parts s.toList
  rw [parse?_of_parts hparts, hparts.takeWhile_eq, ← trim_eq_nil_iff]
  split <;> simp [*]

end

/-! ### Reading back -/

/-- What a phase has that is read from an argument. -/
structure Sound (p : Phase) : Prop where
  name : Trimmed p.name
  nameFree : ':' ∉ p.name.toList
  description : p.description = none
  inputs : ∀ item ∈ p.inputs, Trimmed item ∧ ',' ∉ item.toList
  inputsFree : ∀ item ∈ p.inputs, ':' ∉ item.toList
  outputs : ∀ item ∈ p.outputs, Trimmed item ∧ ',' ∉ item.toList

section
variable {s : String} {p : Phase}

theorem Gives.sound (h : Gives s p) : Sound p := by
  obtain ⟨name, inputs, outputs, hparts, hname, hinputs, houtputs⟩ := h.parts
  obtain ⟨hnameFree, hinputsFree⟩ := hparts.free
  refine ⟨hname.trimmed, fun hcolon => hnameFree (hname.mem hcolon), h.description, fun item hitem => ?_,
    fun item hitem => ?_, fun item hitem => ?_⟩
  · obtain ⟨htrimmed, hcomma, -⟩ := hinputs.item item hitem
    exact ⟨htrimmed, hcomma⟩
  · obtain ⟨-, -, hmem⟩ := hinputs.item item hitem
    exact fun hcolon => hinputsFree (hmem ':' hcolon)
  · obtain ⟨htrimmed, hcomma, -⟩ := houtputs.item item hitem
    exact ⟨htrimmed, hcomma⟩

theorem toList_text (p : Phase) : (text p).toList = p.name.toList ++ ':' :: (joinWith [','] (p.inputs.map String.toList) ++
    ':' :: joinWith [','] (p.outputs.map String.toList)) := by
  simp [text, intercalate_eq_joinWith]

theorem Sound.parts (h : Sound p) : Parts (text p).toList p.name.toList (joinWith [','] (p.inputs.map String.toList))
    (joinWith [','] (p.outputs.map String.toList)) := by
  have hinputs : ':' ∉ joinWith [','] (p.inputs.map String.toList) := fun hcolon => by
    rcases mem_joinWith hcolon with hcomma | ⟨piece, hpiece, hcolon⟩
    · exact absurd hcomma (by decide)
    · obtain ⟨item, hitem, rfl⟩ := List.mem_map.mp hpiece
      exact h.inputsFree item hitem hcolon
  rw [toList_text]
  exact .outputs _ h.nameFree hinputs

theorem Sound.parse?_text (h : Sound p) : parse? (text p) = some p := by
  rw [parse?_of_parts h.parts, h.name.trim_eq, if_neg h.name.toList_ne_nil, listItems_joinWith h.inputs,
    listItems_joinWith h.outputs, String.ofList_toList, ← h.description]

end

/-- What is known of a phase that an argument gives. -/
structure ReadsBack (arg : String) (p : Phase) : Prop where
  gives : Gives arg p
  trimmed : ∀ item ∈ p.inputs ++ p.outputs, Trimmed item
  again : parse? (text p) = some p

/-- An argument is refused if it has no name, and else its phase reads back from the text written for it. -/
theorem argument_reads_back (arg : String) :
    (parse? arg = none ↔ ∀ c ∈ arg.toList.takeWhile (· ≠ ':'), isBlank c = true) ∧
      ∀ p, parse? arg = some p → ReadsBack arg p := by
  refine ⟨parse?_eq_none_iff, fun p h => ?_⟩
  have hgives := gives_of_parse? h
  have hsound := hgives.sound
  refine ⟨hgives, List.forall_mem_append.mpr ⟨fun item hitem => ?_, fun item hitem => ?_⟩, hsound.parse?_text⟩
  · exact (hsound.inputs item hitem).1
  · exact (hsound.outputs item hitem).1

/-- Outputs may have colons; blanks and what is empty between commas are left out. -/
theorem argument_reads_back_spread :
    parse? " build : spec,, config :a:b , " = some ⟨"build", none, ["spec", "config"], ["a:b"]⟩ ∧
      ReadsBack " build : spec,, config :a:b , " ⟨"build", none, ["spec", "config"], ["a:b"]⟩ ∧
      text ⟨"build", none, ["spec", "config"], ["a:b"]⟩ = "build:spec,config:a:b" := by
  have h : parse? " build : spec,, config :a:b , " = some ⟨"build", none, ["spec", "config"], ["a:b"]⟩ := by
    decide +kernel
  exact ⟨h, (argument_reads_back _).2 _ h, by decide +kernel⟩

end Scaffold.PhaseArgument
