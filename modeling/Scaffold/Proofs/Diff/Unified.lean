import Scaffold.Proofs.Diff.Hunks

/-! The text of a difference is read as hunks, and what they are good for. They have the lines of a patch that leads from
    the old text to the new one, and they are that patch if their headers are consistent. The header of the first hunk or
    of the last one may not be: where edits were moved past each other, an edit still notes its old place in the list that
    it takes no lines from, and a hunk that begins or ends with it says that place. -/

namespace Scaffold.Diff

section
variable {α : Type} [DecidableEq α] {old new : List α} {e : Edit}

/-! ### One edit -/

theorem moveEdits_singleton (kind : EditKind) : ∀ bound : Nat, moveEdits kind old new bound [] [e] = [e]
  | 0 => rfl
  | bound + 1 => by
    have hdone : ∀ e : Edit, moveEdits kind old new bound [e] [] = [e] := fun _ => by cases bound <;> rfl
    rw [moveEdits]
    split
    · exact hdone e
    · exact hdone e

theorem tidy_singleton (e : Edit) : tidy old new [e] = [e] := by
  rw [tidy, moved, moveEdits_singleton, moveEdits_singleton]
  obtain ⟨kind, _, _, _, _⟩ := e
  cases kind <;> rfl

theorem shortest_nil_left (h : new ≠ []) : shortest [] new = [.insert 0 0 new.length] := by
  simp [shortest, editsAt, commonStart, commonEnd, kept, h]

theorem shortest_nil_right (h : old ≠ []) : shortest old [] = [.delete 0 old.length 0] := by
  have hstart : ∀ xs : List α, commonStart xs [] = 0 := fun xs => by cases xs <;> rfl
  simp [shortest, editsAt, commonEnd, hstart, kept, h]

end

/-! ### What a difference is good for -/

/-- What hunks that lead from one text to another are good for. -/
structure PatchFor (old new : String) (hunks : List Hunk) : Prop where
  nonempty : hunks ≠ []
  /-- They are applied if they are consistent, and then give the new text. -/
  applied : applied? hunks old = if Consistent hunks then some new else none
  /-- Their lines are those of hunks that give the new text, and most of their headers too: that of the first one may
      not be if it does not begin with a line that is kept, and that of the last one if it does not end with one. -/
  repaired : ∃ right, applied? right old = some new ∧ right.map Hunk.lines = hunks.map Hunk.lines ∧
    ∀ k h, hunks[k]? = some h → (k = 0 → h.BeginsKept) → (k + 1 = hunks.length → h.EndsKept) → right[k]? = some h
  /-- They are consistent where nothing is there before or nothing is left. -/
  consistent_of_empty : old = "" ∨ new = "" → Consistent hunks

section
variable {old new : List (List Char)} {e : Edit}

theorem groups_singleton (h : e.kind ≠ .keep) : groups [e] = [[e]] := by
  simp [groups, cutFirst, cutLast, groupsFrom, worthwhile, h]

/-- One edit that is right about both places makes one hunk with a right header. -/
theorem consistent_singleton (hkind : e.kind ≠ .keep) (h : e.Fits old new 0 0) (hold : e.old = 0) (hnew : e.new = 0) :
    Consistent ((groups (tidy old new [e])).map (hunkOf old new)) := by
  have hcounts : (hunkOf old new [e]).Counts := by
    have holdSize := h.turns.old_length
    have hnewSize := h.turns.new_length
    constructor
    · simp only [hunkOf, List.headD_cons, List.getLastD_cons, List.getLastD_nil, List.flatMap_singleton]
      omega
    · simp only [hunkOf, List.headD_cons, List.getLastD_cons, List.getLastD_nil, List.flatMap_singleton]
      omega
  rw [tidy_singleton, groups_singleton hkind]
  exact ⟨List.forall_mem_singleton.mpr hcounts, fun _ hfirst => Option.some.inj hfirst ▸ hold.trans hnew.symm⟩

theorem consistent_of_nil (hne : old ≠ new) (h : old = [] ∨ new = []) :
    Consistent ((groups (tidy old new (shortest old new))).map (hunkOf old new)) := by
  rcases h with rfl | rfl
  · have hpos := List.length_pos_iff.mpr hne.symm
    rw [shortest_nil_left hne.symm]
    exact consistent_singleton nofun (.insert hpos (Nat.le_of_eq (Nat.zero_add _))) rfl rfl
  · have hpos := List.length_pos_iff.mpr hne
    rw [shortest_nil_right hne]
    exact consistent_singleton nofun (.delete hpos (Nat.le_of_eq (Nat.zero_add _))) rfl rfl

end

/-! ### Its text -/

section
variable {old new : List Char} {parts : List (List Edit)} {hunks : List Hunk}

/-- The groups of edits between two texts. -/
def groupsBetween (old new : List Char) : List (List Edit) :=
  let oldLines := Text.linesWithEnds old
  let newLines := Text.linesWithEnds new
  groups (tidy oldLines newLines (shortest oldLines newLines))

/-- The hunks between two texts. -/
def hunksBetween (old new : List Char) : List Hunk :=
  (groupsBetween old new).map (hunkOf (Text.linesWithEnds old) (Text.linesWithEnds new))

theorem exists_spread (old new : List Char) :
    ∃ right, Spread (Text.linesWithEnds old) (Text.linesWithEnds new) 0 0 (groupsBetween old new) right :=
  spread_groups (leads_tidy (leads_shortest _ _))

theorem hunks_eq (old new : List Char) : Diff.hunks old new = (hunksBetween old new).map Hunk.chars := by
  obtain ⟨right, hspread⟩ := exists_spread old new
  rw [hunksBetween, List.map_map]
  exact List.map_congr_left fun group hgroup => hunkChars_eq (hspread.mem hgroup).1

theorem isLine_of_signed {x : Sign × List Char} {h : Hunk} (hh : h ∈ hunksBetween old new) (hx : x ∈ h.lines) :
    Text.IsLine x.2 := by
  obtain ⟨group, -, rfl⟩ := List.mem_map.mp hh
  obtain ⟨e, -, hx⟩ := List.mem_flatMap.mp hx
  have hline : x.2 ∈ Text.linesWithEnds old ∨ x.2 ∈ Text.linesWithEnds new := by
    rw [signedLines] at hx
    split at hx
    · obtain ⟨line, hline, rfl⟩ := List.mem_map.mp hx
      exact .inl (List.mem_of_mem_drop (List.mem_of_mem_take hline))
    · rcases List.mem_append.mp hx with hx | hx
      · obtain ⟨line, hline, rfl⟩ := List.mem_map.mp hx
        exact .inl (List.mem_of_mem_drop (List.mem_of_mem_take hline))
      · obtain ⟨line, hline, rfl⟩ := List.mem_map.mp hx
        exact .inr (List.mem_of_mem_drop (List.mem_of_mem_take hline))
  exact hline.elim (Text.isLine_of_mem _) (Text.isLine_of_mem _)

theorem linesWithEnds_inj (h : Text.linesWithEnds old = Text.linesWithEnds new) : old = new := by
  rw [← Text.flatten_linesWithEnds old, h, Text.flatten_linesWithEnds]

end

theorem readPatch?_unified (oldName newName : String) {old new : String} (h : hunksBetween old.toList new.toList ≠ []) :
    readPatch? oldName newName (unified oldName newName old new) = some (hunksBetween old.toList new.toList) := by
  have htext : unified oldName newName old new = "--- " ++ oldName ++ "\n+++ " ++ newName ++ "\n" ++
      String.ofList ((hunksBetween old.toList new.toList).flatMap Hunk.chars) := by
    rw [unified]
    split
    · next hnil => exact absurd (List.map_eq_nil_iff.mp ((hunks_eq _ _).symm.trans hnil)) h
    · rw [hunks_eq, List.flatMap_def]
  rw [htext, readPatch?]
  generalize "--- " ++ oldName ++ "\n+++ " ++ newName ++ "\n" = names
  rw [String.toList_append, Text.dropStart?_append, String.toList_ofList, Option.bind_some]
  exact readHunks?_chars fun h hh x hx => isLine_of_signed hh hx

/-- The text of a difference is read as hunks that are good for what it says. -/
theorem exists_patch (oldName newName : String) {old new : String} (hne : old ≠ new) :
    ∃ hunks, readPatch? oldName newName (unified oldName newName old new) = some hunks ∧ PatchFor old new hunks := by
  obtain ⟨right, hspread⟩ := exists_spread old.toList new.toList
  have hlines : Text.linesWithEnds old.toList ≠ Text.linesWithEnds new.toList := fun heq =>
    hne (String.toList_inj.mp (linesWithEnds_inj heq))
  have hhunks : hunksBetween old.toList new.toList ≠ [] := mt List.map_eq_nil_iff.mp (hspread.ne_nil hlines)
  have hright : applied? right old = some new := by
    rw [applied?, applyHunks?, ← List.drop_zero (l := Text.linesWithEnds old.toList), hspread.applies, List.drop_zero,
      Option.map_some, Text.flatten_linesWithEnds, String.ofList_toList]
  have hheaders : ∀ k h, (hunksBetween old.toList new.toList)[k]? = some h → (k = 0 → h.BeginsKept) →
      (k + 1 = (hunksBetween old.toList new.toList).length → h.EndsKept) → right[k]? = some h :=
    fun k h hget hbegins hends => hspread.right hget hbegins fun hlast => hends (by rwa [hunksBetween, List.length_map])
  refine ⟨_, readPatch?_unified oldName newName hhunks, hhunks, ?_, ⟨right, hright, hspread.map_lines, hheaders⟩,
    fun hempty => ?_⟩
  · split
    · next hconsistent => rwa [hunksBetween, ← hspread.eq_of_consistent (parted_groups _).1 hconsistent]
    · next hconsistent =>
      rw [applied?, Option.map_eq_none_iff, Option.eq_none_iff_forall_ne_some]
      exact fun result happly => hconsistent (consistent_of_applyHunks? happly)
  · refine consistent_of_nil hlines (hempty.imp ?_ ?_)
    · rintro rfl
      rfl
    · rintro rfl
      rfl

end Scaffold.Diff
