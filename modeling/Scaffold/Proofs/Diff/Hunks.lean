import Scaffold.Proofs.Diff.Patch
import Scaffold.Proofs.Diff.Search

/-! Edits as hunks. The edits that lead from one list of lines to another are divided where many lines are kept, so what
    lies between two hunks is the same in both lists, and applying the hunks gives the new lines. That is so with headers
    that say where the edits are; the header that is written says what the first edit of a hunk and its last one note. -/

namespace Scaffold.Diff

section
variable {old new : List (List Char)} {i j x y i' j' n m : Nat} {e : Edit} {edits group : List Edit}
  {parts : List (List Edit)} {hunks : List Hunk} {lines lines' : List (Sign × List Char)}

/-! ### Lines with their signs -/

/-- The lines of an edit, each with its sign. -/
def signedLines (old new : List (List Char)) (e : Edit) : List (Sign × List Char) :=
  if e.kind = .keep then (e.oldLines old).map (.both, ·)
  else (e.oldLines old).map (.old, ·) ++ (e.newLines new).map (.new, ·)

theorem editChars_eq (e : Edit) :
    editChars old new e = (signedLines old new e).flatMap fun (sign, line) => signedLine sign.toChar line := by
  unfold editChars signedLines
  split
  · next hkeep =>
    rw [if_pos hkeep, List.flatMap_map]
    rfl
  · next hkeep =>
    rw [if_neg hkeep, List.flatMap_append, List.flatMap_map, List.flatMap_map]
    rfl

@[simp] theorem oldSide_append (xs ys : List (Sign × List Char)) : oldSide (xs ++ ys) = oldSide xs ++ oldSide ys := by
  simp [oldSide]

@[simp] theorem newSide_append (xs ys : List (Sign × List Char)) : newSide (xs ++ ys) = newSide xs ++ newSide ys := by
  simp [newSide]

@[simp] theorem oldSide_map (sign : Sign) (xs : List (List Char)) :
    oldSide (xs.map (sign, ·)) = if sign = .new then [] else xs := by
  cases sign <;> simp [oldSide, List.filter_map, Function.comp_def]

@[simp] theorem newSide_map (sign : Sign) (xs : List (List Char)) :
    newSide (xs.map (sign, ·)) = if sign = .old then [] else xs := by
  cases sign <;> simp [newSide, List.filter_map, Function.comp_def]

theorem oldSide_signedLines (e : Edit) : oldSide (signedLines old new e) = e.oldLines old := by
  unfold signedLines
  split <;> simp only [oldSide_append, oldSide_map, reduceCtorEq, if_true, if_false, List.append_nil]

theorem newSide_signedLines (e : Edit) :
    newSide (signedLines old new e) = if e.kind = .keep then e.oldLines old else e.newLines new := by
  unfold signedLines
  split <;> simp only [newSide_append, newSide_map, reduceCtorEq, if_true, if_false, List.nil_append]

/-- The lines with their signs turn the old lines from `i` up to `x` into the new ones from `j` up to `y`. -/
structure Turns (old new : List (List Char)) (i j : Nat) (lines : List (Sign × List Char)) (x y : Nat) : Prop where
  old : old.drop i = oldSide lines ++ old.drop x
  old_length : i + (oldSide lines).length = x
  new : new.drop j = newSide lines ++ new.drop y
  new_length : j + (newSide lines).length = y

theorem Turns.append (h : Turns old new i j lines x y) (h' : Turns old new x y lines' i' j') :
    Turns old new i j (lines ++ lines') i' j' where
  old := by rw [h.old, h'.old, oldSide_append, List.append_assoc]
  old_length := by rw [oldSide_append, List.length_append, ← Nat.add_assoc, h.old_length, h'.old_length]
  new := by rw [h.new, h'.new, newSide_append, List.append_assoc]
  new_length := by rw [newSide_append, List.length_append, ← Nat.add_assoc, h.new_length, h'.new_length]

theorem turns_of_slices (hold : oldSide lines = (old.drop i).take n) (hn : n ≤ old.length - i)
    (hnew : newSide lines = (new.drop j).take m) (hm : m ≤ new.length - j) : Turns old new i j lines (i + n) (j + m) where
  old := by rw [hold, ← List.drop_drop, List.take_append_drop]
  old_length := by rw [hold, List.length_take, List.length_drop, Nat.min_eq_left hn]
  new := by rw [hnew, ← List.drop_drop, List.take_append_drop]
  new_length := by rw [hnew, List.length_take, List.length_drop, Nat.min_eq_left hm]

theorem Edit.Fits.turns (h : e.Fits old new i j) :
    Turns old new i j (signedLines old new e) (i + e.oldSize) (j + e.newSize) := by
  cases h with
  | keep _ h =>
    exact turns_of_slices (oldSide_signedLines _) (Nat.le_sub_of_add_le' h.old_le) ((newSide_signedLines _).trans h.slice)
      (Nat.le_sub_of_add_le' h.new_le)
  | delete _ h =>
    exact turns_of_slices (oldSide_signedLines _) (Nat.le_sub_of_add_le' h) (newSide_signedLines _) (Nat.zero_le _)
  | insert _ h =>
    exact turns_of_slices (oldSide_signedLines _) (Nat.zero_le _) (newSide_signedLines _) (Nat.le_sub_of_add_le' h)
  | replace _ _ h h' =>
    exact turns_of_slices (oldSide_signedLines _) (Nat.le_sub_of_add_le' h) (newSide_signedLines _)
      (Nat.le_sub_of_add_le' h')

theorem Leads.turns (h : Leads old new i j edits x y) : Turns old new i j (edits.flatMap (signedLines old new)) x y := by
  induction h with
  | nil => exact ⟨rfl, rfl, rfl, rfl⟩
  | cons hfits _ ih => exact hfits.turns.append ih

/-! ### Hunks -/

/-- The hunk for edits that stand next to each other. -/
def hunkOf (old new : List (List Char)) (group : List Edit) : Hunk :=
  let first := group.headD (.keep 0 0 0)
  let last := group.getLastD (.keep 0 0 0)
  ⟨⟨first.old, last.old + last.oldSize - first.old⟩, ⟨first.new, last.new + last.newSize - first.new⟩,
    group.flatMap (signedLines old new)⟩

theorem headerChars_eq (first last : Edit) : headerChars first last =
    headerOf ⟨first.old, last.old + last.oldSize - first.old⟩ ⟨first.new, last.new + last.newSize - first.new⟩ := by
  rw [headerChars, rangeChars_eq, rangeChars_eq, headerOf, headerFront, List.append_assoc _ [' ', '@', '@']]
  rfl

theorem hunkChars_eq (h : group ≠ []) : hunkChars old new group = (hunkOf old new group).chars := by
  obtain ⟨first, hfirst⟩ := Option.ne_none_iff_exists'.mp (mt List.head?_eq_none_iff.mp h)
  obtain ⟨last, hlast⟩ := Option.ne_none_iff_exists'.mp (mt List.getLast?_eq_none_iff.mp h)
  rw [hunkChars, hfirst, hlast]
  simp only [hunkOf, Hunk.chars, headerChars_eq, List.headD_eq_head?_getD, hfirst, List.getLastD_eq_getLast?, hlast,
    Option.getD_some, List.flatMap_assoc, ← editChars_eq]

/-! ### Where edits are divided -/

/-- The hunks for edits, with headers that say where the edits are. What lies before each hunk and after the last one
    is the same in both lists. -/
inductive Spread (old new : List (List Char)) : Nat → Nat → List (List Edit) → List Hunk → Prop
  | nil {i j n : Nat} (h : Same old new i j n) (hi : i + n = old.length) (hj : j + n = new.length) :
    Spread old new i j [] []
  | cons {i j n x y : Nat} {group : List Edit} {parts : List (List Edit)} {hunks : List Hunk} (hsame : Same old new i j n)
    (hne : group ≠ []) (h : Leads old new (i + n) (j + n) group x y) (hrest : Spread old new x y parts hunks) :
    Spread old new i j (group :: parts)
      (⟨⟨i + n, x - (i + n)⟩, ⟨j + n, y - (j + n)⟩, group.flatMap (signedLines old new)⟩ :: hunks)

theorem Spread.applies (h : Spread old new i j parts hunks) : applyFrom i j hunks (old.drop i) = some (new.drop j) := by
  induction h with
  | @nil i j n h hi hj =>
    have hold : (old.drop i).length ≤ n := by
      rw [List.length_drop]
      omega
    have hnew : (new.drop j).length ≤ n := by
      rw [List.length_drop]
      omega
    rw [applyFrom, ← List.take_of_length_le hold, h.slice, List.take_of_length_le hnew]
  | @cons i j n x y group parts hunks hsame _ h _ ih =>
    have hturns := h.turns
    have hlength : ((old.drop i).take n).length = n := by
      have hle := hsame.old_le
      rw [List.length_take, List.length_drop]
      omega
    have hx := hturns.old_length
    have hy := hturns.new_length
    -- the equal lines before the hunk, its old lines, and what follows
    rw [← List.take_append_drop n (old.drop i), List.drop_drop, hturns.old, applyFrom_cons (by rw [hlength])
      (by rw [hlength]) ⟨by dsimp only; omega, by dsimp only; omega⟩]
    dsimp only
    rw [show i + n + (x - (i + n)) = x by omega, show j + n + (y - (j + n)) = y by omega, ih, Option.map_some, hsame.slice,
      List.append_assoc, ← hturns.new, ← List.drop_drop, List.take_append_drop]

/-- Equal lines more before the first hunk. -/
theorem Spread.shift (hsame : Same old new i j n) (h : Spread old new (i + n) (j + n) parts hunks) :
    Spread old new i j parts hunks := by
  cases h with
  | @nil _ _ m h hi hj => exact .nil (hsame.append h) (by omega) (by omega)
  | @cons _ _ m _ _ _ _ _ h hne hleads hrest =>
    rw [Nat.add_assoc, Nat.add_assoc] at hleads ⊢
    exact .cons (hsame.append h) hne hleads hrest

theorem Same.here (hi : i ≤ old.length) (hj : j ≤ new.length) : Same old new i j 0 := ⟨hi, hj, nofun⟩

theorem Leads.le (h : Leads old new i j edits x y) : i ≤ x ∧ j ≤ y := by
  have hx := h.turns.old_length
  have hy := h.turns.new_length
  omega

theorem Edit.Fits.exists_keep (h : e.Fits old new i j) (hkeep : e.kind = .keep) :
    ∃ n, 0 < n ∧ Same old new i j n ∧ e = .keep i j n := by
  cases h with
  | keep hn h => exact ⟨_, hn, h, rfl⟩
  | delete | insert | replace => cases hkeep

theorem leads_dropStart (h : Same old new i j n) (hm : m < n) : Same old new i j m ∧
    Leads old new (i + m) (j + m) [(Edit.keep i j n).dropStart m] (i + n) (j + n) := by
  obtain ⟨k, rfl⟩ := Nat.exists_eq_add_of_le (Nat.le_of_lt hm)
  have hk : (Edit.keep i j (m + k)).dropStart m = .keep (i + m) (j + m) k :=
    congrArg (Edit.keep (i + m) (j + m)) (Nat.add_sub_cancel_left ..)
  rw [hk, ← Nat.add_assoc, ← Nat.add_assoc]
  exact ⟨h.take, leads_keep rfl rfl (by omega) h.drop (.nil _ _)⟩

theorem leads_dropEnd (h : Same old new i j n) (hm : m < n) :
    Leads old new i j [(Edit.keep i j n).dropEnd m] (i + (n - m)) (j + (n - m)) ∧
      Same old new (i + (n - m)) (j + (n - m)) m := by
  obtain ⟨k, rfl⟩ := Nat.exists_eq_add_of_le' (Nat.le_of_lt hm)
  have hk : (Edit.keep i j (k + m)).dropEnd m = .keep i j k := congrArg (Edit.keep i j) (Nat.add_sub_cancel ..)
  rw [hk, Nat.add_sub_cancel]
  exact ⟨leads_keep rfl rfl (by omega) h.take (.nil _ _), h.drop⟩

theorem leads_cutFirst (h : Leads old new i j edits i' j') (hi : i ≤ old.length) (hj : j ≤ new.length) :
    ∃ n, Same old new i j n ∧ Leads old new (i + n) (j + n) (cutFirst edits) i' j' := by
  cases h with
  | nil => exact ⟨0, .here hi hj, .nil _ _⟩
  | @cons _ _ _ _ e edits hfits hrest =>
    rw [cutFirst]
    split
    · next hkeep =>
      obtain ⟨n, hn, hsame, rfl⟩ := hfits.exists_keep hkeep
      obtain ⟨hfront, hback⟩ := leads_dropStart hsame (Nat.sub_lt hn (m := contextSize) (by decide))
      exact ⟨_, hfront, hback.append hrest⟩
    · exact ⟨0, .here hi hj, .cons hfits hrest⟩

theorem leads_cutLast (h : Leads old new i j edits i' j') (hi : i' ≤ old.length) (hj : j' ≤ new.length) :
    ∃ x y n, Leads old new i j (cutLast edits) x y ∧ Same old new x y n ∧ x + n = i' ∧ y + n = j' := by
  rw [cutLast]
  split
  · next e hlast =>
    obtain ⟨before, rfl⟩ := List.getLast?_eq_some_iff.mp hlast
    split
    · next hkeep =>
      obtain ⟨x, y, hbefore, hlast⟩ := h.split
      obtain ⟨hfits, rfl, rfl⟩ := leads_singleton.mp hlast
      obtain ⟨n, hn, hsame, rfl⟩ := hfits.exists_keep hkeep
      have hlt : n - contextSize < n := Nat.sub_lt hn (by decide)
      obtain ⟨hfront, hback⟩ := leads_dropEnd hsame hlt
      rw [List.dropLast_concat]
      refine ⟨_, _, _, hbefore.append hfront, hback, ?_, ?_⟩
      · rw [Nat.add_assoc, Nat.sub_add_cancel (Nat.le_of_lt hlt)]
        rfl
      · rw [Nat.add_assoc, Nat.sub_add_cancel (Nat.le_of_lt hlt)]
        rfl
    · exact ⟨i', j', 0, h, .here hi hj, rfl, rfl⟩
  · next hnone =>
    obtain rfl := List.getLast?_eq_none_iff.mp hnone
    exact ⟨i', j', 0, h, .here hi hj, rfl, rfl⟩

theorem spread_worthwhile (h : Leads old new i j group x y) (hsame : Same old new x y n) (hx : x + n = old.length)
    (hy : y + n = new.length) : ∃ hunks, Spread old new i j (worthwhile group) hunks := by
  have hle := h.le
  have hhere : Same old new i j 0 := .here (by omega) (by omega)
  unfold worthwhile
  split
  · cases h
    exact ⟨_, .nil hsame hx hy⟩
  · next e =>
    split
    · next hkeep =>
      -- lines that are kept alone make no hunk, but are equal as well
      obtain ⟨hfits, rfl, rfl⟩ := leads_singleton.mp h
      obtain ⟨k, -, hkept, rfl⟩ := hfits.exists_keep hkeep
      exact ⟨_, .nil (hkept.append hsame) ((Nat.add_assoc _ _ _).symm.trans hx) ((Nat.add_assoc _ _ _).symm.trans hy)⟩
    · exact ⟨_, .cons hhere (List.cons_ne_nil _ _) h (.nil hsame hx hy)⟩
  · next hne _ => exact ⟨_, .cons hhere hne h (.nil hsame hx hy)⟩

theorem spread_groupsFrom (hsame : Same old new i' j' n) (hi : i' + n = old.length) (hj : j' + n = new.length) :
    ∀ {edits group : List Edit} {i j x y : Nat}, Leads old new i j group x y → Leads old new x y edits i' j' →
      ∃ hunks, Spread old new i j (groupsFrom group edits) hunks
  | [], _, _, _, _, _, hgroup, hrest => by
    cases hrest
    exact spread_worthwhile hgroup hsame hi hj
  | e :: edits, group, i, j, x, y, hgroup, hrest => by
    cases hrest with
    | cons hfits hrest =>
      rw [groupsFrom]
      split
      · next hlong =>
        simp only [Bool.and_eq_true, decide_eq_true_eq] at hlong
        obtain ⟨k, hk, hkept, rfl⟩ := hfits.exists_keep hlong.1
        have hsize : contextSize * 2 < k := hlong.2
        -- a hunk ends in the run of kept lines and another begins in it, with `m` lines between them
        obtain ⟨m, rfl⟩ : ∃ m, k = contextSize + (m + contextSize) := ⟨k - 2 * contextSize, by omega⟩
        have hcut : (Edit.keep x y (contextSize + (m + contextSize))).oldSize - contextSize = contextSize + m := by
          dsimp only [Edit.keep]
          omega
        have hlt : contextSize + m < contextSize + (m + contextSize) := by
          rw [← Nat.add_assoc]
          exact Nat.lt_add_of_pos_right (by decide)
        obtain ⟨hfront, -⟩ := leads_dropEnd hkept hlt
        obtain ⟨-, hback⟩ := leads_dropStart hkept hlt
        rw [show contextSize + (m + contextSize) - (contextSize + m) = contextSize by omega] at hfront
        rw [← Nat.add_assoc, ← Nat.add_assoc] at hback
        rw [hcut]
        obtain ⟨hunks, hlater⟩ := spread_groupsFrom hsame hi hj hback hrest
        have hle := hgroup.le
        have hbound := hkept.old_le
        have hbound' := hkept.new_le
        exact ⟨_, .cons (.here (by omega) (by omega)) (by simp) (hgroup.append hfront) (hlater.shift hkept.drop.take)⟩
      · have hgroup := hgroup.append (.cons hfits (.nil _ _))
        exact spread_groupsFrom hsame hi hj hgroup hrest

/-- The groups of edits that lead from one list to the other are spread over them. -/
theorem spread_groups (h : Leads old new 0 0 edits old.length new.length) :
    ∃ hunks, Spread old new 0 0 (groups edits) hunks := by
  obtain ⟨n, hbefore, hcut⟩ := leads_cutFirst h (Nat.zero_le _) (Nat.zero_le _)
  obtain ⟨x, y, m, hcut', hafter, hx, hy⟩ := leads_cutLast hcut (Nat.le_refl _) (Nat.le_refl _)
  obtain ⟨hunks, hspread⟩ := spread_groupsFrom hafter hx hy (.nil _ _) hcut'
  rw [groups]
  split
  · next hempty =>
    obtain rfl := List.isEmpty_iff.mp hempty
    exact ⟨_, hspread.shift hbefore⟩
  · exact ⟨_, hspread.shift hbefore⟩

/-! ### What the headers say -/

/-- The first edit keeps lines. -/
def Opens (group : List Edit) : Prop := ∃ e ∈ group.head?, e.kind = .keep

/-- The last edit keeps lines. -/
def Closes (group : List Edit) : Prop := ∃ e ∈ group.getLast?, e.kind = .keep

theorem Edit.Fits.places (h : e.Fits old new i j) :
    (e.old = i ∨ e.new = j) ∧ (e.kind = .keep → e.old = i ∧ e.new = j ∧ e.newSize = e.oldSize) := by
  cases h with
  | keep => exact ⟨.inl rfl, fun _ => ⟨rfl, rfl, rfl⟩⟩
  | delete => exact ⟨.inl rfl, nofun⟩
  | insert => exact ⟨.inr rfl, nofun⟩
  | replace => exact ⟨.inl rfl, nofun⟩

theorem Leads.first (h : Leads old new i j (e :: edits) x y) :
    (e.old = i ∨ e.new = j) ∧ (e.kind = .keep → e.old = i ∧ e.new = j) := by
  cases h with
  | cons hfits _ => exact ⟨hfits.places.1, fun hkeep => ⟨(hfits.places.2 hkeep).1, (hfits.places.2 hkeep).2.1⟩⟩

theorem Leads.last (h : Leads old new i j (edits ++ [e]) x y) (hkeep : e.kind = .keep) :
    e.old + e.oldSize = x ∧ e.new + e.newSize = y := by
  obtain ⟨u, v, -, hlast⟩ := h.split
  obtain ⟨hfits, rfl, rfl⟩ := leads_singleton.mp hlast
  obtain ⟨hold, hnew, -⟩ := hfits.places.2 hkeep
  exact ⟨congrArg (· + _) hold, congrArg (· + _) hnew⟩

theorem Leads.hunkOf_of_counts (h : Leads old new i j group x y) (hold : (hunkOf old new group).old.first = i)
    (hnew : (hunkOf old new group).new.first = j) (hcounts : (hunkOf old new group).Counts) :
    hunkOf old new group = ⟨⟨i, x - i⟩, ⟨j, y - j⟩, group.flatMap (signedLines old new)⟩ := by
  have hsize : (oldSide (group.flatMap (signedLines old new))).length = x - i :=
    Nat.eq_sub_of_add_eq' h.turns.old_length
  have hsize' : (newSide (group.flatMap (signedLines old new))).length = y - j :=
    Nat.eq_sub_of_add_eq' h.turns.new_length
  exact Hunk.ext (Range.ext hold (hcounts.1.trans hsize)) (Range.ext hnew (hcounts.2.trans hsize')) rfl

theorem Leads.hunkOf_of_kept (h : Leads old new i j group x y) (hopens : Opens group) (hcloses : Closes group) :
    hunkOf old new group = ⟨⟨i, x - i⟩, ⟨j, y - j⟩, group.flatMap (signedLines old new)⟩ := by
  obtain ⟨first, hfirst, hkeep⟩ := hopens
  obtain ⟨last, hlast, hkeep'⟩ := hcloses
  obtain ⟨later, rfl⟩ := List.head?_eq_some_iff.mp hfirst
  obtain ⟨hold, hnew⟩ := h.first.2 hkeep
  obtain ⟨earlier, hlater⟩ := List.getLast?_eq_some_iff.mp hlast
  obtain ⟨hx, hy⟩ := (hlater ▸ h).last hkeep'
  have hlast : (first :: later).getLastD (.keep 0 0 0) = last := by
    rw [List.getLastD_eq_getLast?, hlast, Option.getD_some]
  rw [hunkOf, hlast, List.headD_cons, hold, hnew, hx, hy]

/-- The hunks with right headers are those that are written where edits keep lines at both ends. -/
theorem Spread.getElem? (h : Spread old new i j parts hunks) :
    ∀ {k : Nat}, parts[k]? = some group → Opens group → Closes group → hunks[k]? = some (hunkOf old new group) := by
  induction h with
  | nil => exact nofun
  | cons _ _ hleads _ ih =>
    intro k hget hopens hcloses
    cases k with
    | zero =>
      cases hget
      exact congrArg some (hleads.hunkOf_of_kept hopens hcloses).symm
    | succ k => exact ih hget hopens hcloses

theorem Spread.map_lines (h : Spread old new i j parts hunks) :
    hunks.map Hunk.lines = (parts.map (hunkOf old new)).map Hunk.lines := by
  induction h with
  | nil => rfl
  | cons _ _ _ _ ih => exact congrArg (_ :: ·) ih

theorem Spread.eq_of_counts (h : Spread old new i j parts hunks) (hopens : ∀ group ∈ parts, Opens group)
    (hcounts : ∀ group ∈ parts, (hunkOf old new group).Counts) : hunks = parts.map (hunkOf old new) := by
  induction h with
  | nil => rfl
  | cons _ _ hleads _ ih =>
    obtain ⟨⟨first, hfirst, hkeep⟩, hlater⟩ := List.forall_mem_cons.mp hopens
    obtain ⟨hcount, hcounts⟩ := List.forall_mem_cons.mp hcounts
    have hrest := ih hlater hcounts
    obtain ⟨later, rfl⟩ := List.head?_eq_some_iff.mp hfirst
    obtain ⟨hold, hnew⟩ := hleads.first.2 hkeep
    rw [List.map_cons, hleads.hunkOf_of_counts hold hnew hcount, hrest]

/-- The hunks that are written have right headers if they are consistent: an edit is right about one of its places. -/
theorem Spread.eq_of_consistent (h : Spread old new 0 0 parts hunks) (hopens : ∀ group ∈ parts.tail, Opens group)
    (hconsistent : Consistent (parts.map (hunkOf old new))) : hunks = parts.map (hunkOf old new) := by
  cases h with
  | nil => rfl
  | @cons _ _ n _ _ group parts _ _ hne hleads hrest =>
    obtain ⟨hcounts, hstarts⟩ := hconsistent
    obtain ⟨hcount, hcounts⟩ := List.forall_mem_cons.mp hcounts
    have hlater := hrest.eq_of_counts hopens (List.forall_mem_map.mp hcounts)
    obtain ⟨first, later, rfl⟩ := List.exists_cons_of_ne_nil hne
    have hsame : first.old = first.new := hstarts _ rfl
    -- nothing is added or dropped before the first hunk, so it is at one place in both lists
    obtain ⟨hold, hnew⟩ : first.old = 0 + n ∧ first.new = 0 + n := by
      rcases hleads.first.1 with hplace | hplace <;> omega
    rw [List.map_cons, hleads.hunkOf_of_counts hold hnew hcount, hlater]

/-! ### Which headers can be wrong -/

theorem mem_worthwhile (h : group ∈ worthwhile edits) : group = edits := by
  unfold worthwhile at h
  split at h
  · cases h
  · split at h
    · cases h
    · exact List.mem_singleton.mp h
  · exact List.mem_singleton.mp h

theorem opens_append (h : Opens group) (edits : List Edit) : Opens (group ++ edits) := by
  obtain ⟨e, hfirst, hkeep⟩ := h
  obtain ⟨later, rfl⟩ := List.head?_eq_some_iff.mp hfirst
  exact ⟨e, rfl, hkeep⟩

theorem opens_groupsFrom : ∀ {edits opened : List Edit}, Opens opened → ∀ group ∈ groupsFrom opened edits, Opens group
  | [], opened, hopens, group, hgroup => mem_worthwhile hgroup ▸ hopens
  | e :: edits, opened, hopens, group, hgroup => by
    rw [groupsFrom] at hgroup
    split at hgroup
    · next hlong =>
      rcases List.mem_cons.mp hgroup with rfl | hgroup
      · exact opens_append hopens _
      · have hkeep : e.kind = .keep := of_decide_eq_true (Bool.and_eq_true_iff.mp hlong).1
        exact opens_groupsFrom ⟨e.dropStart _, rfl, hkeep⟩ group hgroup
    · exact opens_groupsFrom (opens_append hopens _) group hgroup

/-- Only the first group can begin with something that is not kept, and only the last one can end with it. -/
theorem parted_groupsFrom : ∀ edits opened : List Edit, (∀ group ∈ (groupsFrom opened edits).tail, Opens group) ∧
    ∀ group ∈ (groupsFrom opened edits).dropLast, Closes group
  | [], opened => by
    have hshort : (worthwhile opened).tail = [] ∧ (worthwhile opened).dropLast = [] := by
      unfold worthwhile
      split
      · exact ⟨rfl, rfl⟩
      · split <;> exact ⟨rfl, rfl⟩
      · exact ⟨rfl, rfl⟩
    rw [groupsFrom, hshort.1, hshort.2]
    exact ⟨nofun, nofun⟩
  | e :: edits, opened => by
    rw [groupsFrom]
    split
    · next hlong =>
      have hkeep : e.kind = .keep := of_decide_eq_true (Bool.and_eq_true_iff.mp hlong).1
      refine ⟨opens_groupsFrom ⟨e.dropStart _, rfl, hkeep⟩, fun group hgroup => ?_⟩
      have hlater := (parted_groupsFrom edits [e.dropStart (e.oldSize - contextSize)]).2
      generalize groupsFrom [e.dropStart (e.oldSize - contextSize)] edits = parts at hgroup hlater
      cases parts with
      | nil => cases hgroup
      | cons next parts =>
        rw [List.dropLast_cons_cons] at hgroup
        rcases List.mem_cons.mp hgroup with rfl | hgroup
        · exact ⟨e.dropEnd _, List.getLast?_concat, hkeep⟩
        · exact hlater group hgroup
    · exact parted_groupsFrom edits _

theorem parted_groups (edits : List Edit) : (∀ group ∈ (groups edits).tail, Opens group) ∧
    ∀ group ∈ (groups edits).dropLast, Closes group := by
  rw [groups]
  split
  · exact ⟨nofun, nofun⟩
  · exact parted_groupsFrom _ _

/-- The hunk begins with a line that is kept. -/
def Hunk.BeginsKept (h : Hunk) : Prop := h.lines.head?.map Prod.fst = some .both

/-- The hunk ends with a line that is kept. -/
def Hunk.EndsKept (h : Hunk) : Prop := h.lines.getLast?.map Prod.fst = some .both

theorem Edit.Fits.signedLines_ne_nil (h : e.Fits old new i j) : signedLines old new e ≠ [] := by
  intro hnil
  have hturns := h.turns
  have hempty := h.isEmpty
  rw [hnil] at hturns
  have hold : e.oldSize = 0 := Nat.left_eq_add.mp hturns.old_length
  have hnew : e.newSize = 0 := Nat.left_eq_add.mp hturns.new_length
  simp [Edit.isEmpty, hold, hnew] at hempty

theorem keep_of_both {x : Sign × List Char} (h : x ∈ signedLines old new e) (hboth : x.1 = .both) : e.kind = .keep := by
  refine Classical.byContradiction fun hkeep => ?_
  rw [signedLines, if_neg hkeep, List.mem_append, List.mem_map, List.mem_map] at h
  rcases h with ⟨_, -, rfl⟩ | ⟨_, -, rfl⟩ <;> cases hboth

theorem Leads.opens (h : Leads old new i j group x y) (hbegins : (hunkOf old new group).BeginsKept) : Opens group := by
  cases h with
  | nil => cases hbegins
  | @cons _ _ _ _ e edits hfits _ =>
    obtain ⟨first, later, hlines⟩ := List.exists_cons_of_ne_nil hfits.signedLines_ne_nil
    rw [Hunk.BeginsKept, hunkOf, List.flatMap_cons, hlines] at hbegins
    have hmem : first ∈ signedLines old new e := hlines ▸ List.mem_cons_self
    exact ⟨e, rfl, keep_of_both hmem (Option.some.inj hbegins)⟩

theorem Leads.closes (h : Leads old new i j group x y) (hends : (hunkOf old new group).EndsKept) : Closes group := by
  rcases group.eq_nil_or_concat with rfl | ⟨before, e, rfl⟩
  · cases hends
  rw [List.concat_eq_append] at h hends ⊢
  obtain ⟨u, v, -, hlast⟩ := h.split
  obtain ⟨hfits, -, -⟩ := leads_singleton.mp hlast
  obtain ⟨last, hlines⟩ := Option.ne_none_iff_exists'.mp (mt List.getLast?_eq_none_iff.mp hfits.signedLines_ne_nil)
  rw [Hunk.EndsKept, hunkOf, List.flatMap_append, List.flatMap_singleton, List.getLast?_append, hlines] at hends
  exact ⟨e, List.getLast?_concat, keep_of_both (List.mem_of_getLast? hlines) (Option.some.inj hends)⟩

theorem Spread.mem (h : Spread old new i j parts hunks) (hgroup : group ∈ parts) :
    group ≠ [] ∧ ∃ u v x y, Leads old new u v group x y := by
  induction h with
  | nil => cases hgroup
  | cons _ hne hleads _ ih =>
    rcases List.mem_cons.mp hgroup with rfl | hgroup
    · exact ⟨hne, _, _, _, _, hleads⟩
    · exact ih hgroup

theorem Spread.ne_nil (h : Spread old new 0 0 parts hunks) (hne : old ≠ new) : parts ≠ [] := by
  rintro rfl
  cases h with
  | nil hsame hold hnew =>
    rw [Nat.zero_add] at hold hnew
    have hslice := hsame.slice
    rw [List.drop_zero, List.drop_zero, hold, List.take_length, ← hold, hnew, List.take_length] at hslice
    exact hne hslice

/-- The hunks with right headers are those that are written, but for the first one if it does not begin with a line that is
    kept and the last one if it does not end with one. -/
theorem Spread.right (h : Spread old new 0 0 (groups edits) hunks) {k : Nat} {hunk : Hunk}
    (hget : ((groups edits).map (hunkOf old new))[k]? = some hunk) (hbegins : k = 0 → hunk.BeginsKept)
    (hends : k + 1 = (groups edits).length → hunk.EndsKept) : hunks[k]? = some hunk := by
  rw [List.getElem?_map, Option.map_eq_some_iff] at hget
  obtain ⟨group, hget, rfl⟩ := hget
  obtain ⟨-, _, _, _, _, hleads⟩ := h.mem (List.mem_of_getElem? hget)
  obtain ⟨hopens, hcloses⟩ := parted_groups edits
  refine h.getElem? hget ?_ ?_
  · cases k with
    | zero => exact hleads.opens (hbegins rfl)
    | succ k => exact hopens group (List.mem_of_getElem? (by rwa [List.getElem?_tail]))
  · by_cases hlast : k + 1 = (groups edits).length
    · exact hleads.closes (hends hlast)
    · have hlt := (List.getElem?_eq_some_iff.mp hget).1
      exact hcloses group (List.mem_of_getElem? (i := k) (by rwa [List.getElem?_dropLast, if_pos (by omega)]))

end

end Scaffold.Diff
