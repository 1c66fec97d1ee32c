import Scaffold.Diff.Edit

/-! Edits that lead from one list to another. Each edit begins where the one before it ends. What it notes of its place
    need be right only in a list that it takes items from: a deletion says where it stands in the old list, an insertion
    where it stands in the new one. -/

namespace Scaffold.Diff

section
variable {α : Type} {old new : List α} {i j i' j' n m : Nat} {a b e : Edit} {edits before after left right : List Edit}

/-! ### Equal runs -/

/-- The `n` items from `i` on in the old list are those from `j` on in the new one. -/
structure Same (old new : List α) (i j n : Nat) : Prop where
  old_le : i + n ≤ old.length
  new_le : j + n ≤ new.length
  get : ∀ k < n, old[i + k]? = new[j + k]?

theorem Same.append (h : Same old new i j n) (h' : Same old new (i + n) (j + n) m) : Same old new i j (n + m) where
  old_le := by have := h'.old_le; omega
  new_le := by have := h'.new_le; omega
  get k hk := by
    by_cases hn : k < n
    · exact h.get k hn
    · have hlater := h'.get (k - n) (by omega)
      rwa [show i + n + (k - n) = i + k by omega, show j + n + (k - n) = j + k by omega] at hlater

theorem Same.take (h : Same old new i j (n + m)) : Same old new i j n where
  old_le := by have := h.old_le; omega
  new_le := by have := h.new_le; omega
  get k hk := h.get k (by omega)

theorem Same.drop (h : Same old new i j (n + m)) : Same old new (i + n) (j + n) m where
  old_le := by have := h.old_le; omega
  new_le := by have := h.new_le; omega
  get k hk := by
    have hlater := h.get (n + k) (by omega)
    rwa [show i + (n + k) = i + n + k by omega, show j + (n + k) = j + n + k by omega] at hlater

theorem Same.slice (h : Same old new i j n) : (old.drop i).take n = (new.drop j).take n := by
  refine List.ext_getElem? fun k => ?_
  by_cases hk : k < n
  · simpa [List.getElem?_take, hk] using h.get k hk
  · rw [List.getElem?_take, List.getElem?_take, if_neg hk, if_neg hk]

theorem Same.of_slices {x y k l : Nat} (h : Same ((old.drop i).take k) ((new.drop j).take l) x y n) (hi : i ≤ old.length)
    (hj : j ≤ new.length) : Same old new (i + x) (j + y) n := by
  have hold := h.old_le
  have hnew := h.new_le
  rw [List.length_take, List.length_drop] at hold hnew
  refine ⟨by omega, by omega, fun t ht => ?_⟩
  have hget := h.get t ht
  rwa [List.getElem?_take_of_lt (by omega), List.getElem?_take_of_lt (by omega), List.getElem?_drop, List.getElem?_drop,
    ← Nat.add_assoc, ← Nat.add_assoc] at hget

section
variable [DecidableEq α]

theorem same_commonStart : ∀ xs ys : List α, Same xs ys 0 0 (commonStart xs ys)
  | [], ys => ⟨by simp [commonStart], by simp [commonStart], by simp [commonStart]⟩
  | x :: xs, [] => ⟨by simp [commonStart], by simp [commonStart], by simp [commonStart]⟩
  | x :: xs, y :: ys => by
    rw [commonStart]
    split
    · next heq =>
      have ih := same_commonStart xs ys
      have hold := ih.old_le
      have hnew := ih.new_le
      refine ⟨by simp only [List.length_cons]; omega, by simp only [List.length_cons]; omega, fun k hk => ?_⟩
      cases k with
      | zero => simp [heq]
      | succ k => simpa using ih.get k (by omega)
    · exact ⟨Nat.zero_le _, Nat.zero_le _, by simp⟩

theorem same_commonEnd (xs ys : List α) :
    Same xs ys (xs.length - commonEnd xs ys) (ys.length - commonEnd xs ys) (commonEnd xs ys) := by
  have hstart := same_commonStart xs.reverse ys.reverse
  rw [← commonEnd] at hstart
  have hold := hstart.old_le
  have hnew := hstart.new_le
  rw [List.length_reverse] at hold hnew
  refine ⟨by omega, by omega, fun k hk => ?_⟩
  have hget := hstart.get (commonEnd xs ys - 1 - k) (by omega)
  rw [List.getElem?_reverse (by omega), List.getElem?_reverse (by omega)] at hget
  rwa [show xs.length - 1 - (0 + (commonEnd xs ys - 1 - k)) = xs.length - commonEnd xs ys + k by omega,
    show ys.length - 1 - (0 + (commonEnd xs ys - 1 - k)) = ys.length - commonEnd xs ys + k by omega] at hget

end

/-! ### Lists of edits -/

/-- The edit can be made at these places: it has items, and is right about where they are. -/
inductive Edit.Fits (old new : List α) (i j : Nat) : Edit → Prop
  | keep {n : Nat} (hn : 0 < n) (h : Same old new i j n) : Fits old new i j (.keep i j n)
  | delete {n j' : Nat} (hn : 0 < n) (h : i + n ≤ old.length) : Fits old new i j (.delete i n j')
  | insert {n i' : Nat} (hn : 0 < n) (h : j + n ≤ new.length) : Fits old new i j (.insert i' j n)
  | replace {n m : Nat} (hn : 0 < n) (hm : 0 < m) (h : i + n ≤ old.length) (h' : j + m ≤ new.length) :
    Fits old new i j ⟨.replace, i, n, j, m⟩

theorem Edit.Fits.isEmpty (h : e.Fits old new i j) : e.isEmpty = false := by
  cases h with
  | keep hn => simp [Edit.isEmpty, Edit.keep, Nat.ne_of_gt hn]
  | delete hn => simp [Edit.isEmpty, Edit.delete, Nat.ne_of_gt hn]
  | insert hn => simp [Edit.isEmpty, Edit.insert, Nat.ne_of_gt hn]
  | replace hn => simp [Edit.isEmpty, Nat.ne_of_gt hn]

@[simp] theorem Edit.kind_grow (e : Edit) (n : Nat) : (e.grow n).kind = e.kind := by
  obtain ⟨kind, old, oldSize, new, newSize⟩ := e
  cases kind <;> rfl

/-- The edits, one after another, lead from the first two places to the last two. -/
inductive Leads (old new : List α) : Nat → Nat → List Edit → Nat → Nat → Prop
  | nil (i j : Nat) : Leads old new i j [] i j
  | cons {i j i' j' : Nat} {e : Edit} {edits : List Edit} (h : e.Fits old new i j)
    (hrest : Leads old new (i + e.oldSize) (j + e.newSize) edits i' j') : Leads old new i j (e :: edits) i' j'

theorem Leads.append {x y : Nat} (h : Leads old new i j before x y) (h' : Leads old new x y after i' j') :
    Leads old new i j (before ++ after) i' j' := by
  induction h with
  | nil => exact h'
  | cons hfits _ ih => exact .cons hfits (ih h')

theorem Leads.split : ∀ {before : List Edit} {i j : Nat}, Leads old new i j (before ++ after) i' j' →
    ∃ x y, Leads old new i j before x y ∧ Leads old new x y after i' j'
  | [], i, j, h => ⟨i, j, .nil i j, h⟩
  | e :: before, i, j, h => by
    cases h with
    | cons hfits hrest =>
      obtain ⟨x, y, hbefore, hafter⟩ := hrest.split
      exact ⟨x, y, .cons hfits hbefore, hafter⟩

theorem Leads.to {x y : Nat} (h : Leads old new i j edits x y) (hx : x = i') (hy : y = j') :
    Leads old new i j edits i' j' := hx ▸ hy ▸ h

theorem leads_keep {x y : Nat} (hx : x = i) (hy : y = j) (hn : 0 < n) (h : Same old new i j n)
    (hrest : Leads old new (i + n) (j + n) edits i' j') : Leads old new i j (.keep x y n :: edits) i' j' := by
  subst hx hy
  exact .cons (.keep hn h) hrest

theorem leads_delete {x y : Nat} (hx : x = i) (hn : 0 < n) (h : i + n ≤ old.length)
    (hrest : Leads old new (i + n) j edits i' j') : Leads old new i j (.delete x n y :: edits) i' j' := by
  subst hx
  exact .cons (.delete hn h) hrest

theorem leads_insert {x y : Nat} (hy : y = j) (hn : 0 < n) (h : j + n ≤ new.length)
    (hrest : Leads old new i (j + n) edits i' j') : Leads old new i j (.insert x y n :: edits) i' j' := by
  subst hy
  exact .cons (.insert hn h) hrest

theorem leads_singleton : Leads old new i j [e] i' j' ↔
    e.Fits old new i j ∧ i' = i + e.oldSize ∧ j' = j + e.newSize := by
  constructor
  · intro h
    cases h with
    | cons hfits hrest =>
      cases hrest
      exact ⟨hfits, rfl, rfl⟩
  · rintro ⟨hfits, rfl, rfl⟩
    exact .cons hfits (.nil _ _)

/-- Wherever the first edits lead, the second ones do. -/
def Becomes (old new : List α) (left right : List Edit) : Prop :=
  ∀ i j i' j', Leads old new i j left i' j' → Leads old new i j right i' j'

theorem Becomes.rfl : Becomes old new edits edits := fun _ _ _ _ h => h

theorem Becomes.trans {middle : List Edit} (h : Becomes old new left middle) (h' : Becomes old new middle right) :
    Becomes old new left right := fun _ _ _ _ hleads => h' _ _ _ _ (h _ _ _ _ hleads)

/-- Edits are exchanged among others. -/
theorem Becomes.within (h : Becomes old new left right) (before after : List Edit) :
    Becomes old new (before ++ left ++ after) (before ++ right ++ after) := by
  intro i j i' j' hleads
  obtain ⟨x, y, hfront, hafter⟩ := hleads.split
  obtain ⟨u, v, hbefore, hleft⟩ := hfront.split
  exact (hbefore.append (h _ _ _ _ hleft)).append hafter

/-- Two edits are exchanged for some others. -/
theorem becomes_of_pair (h : ∀ i j, a.Fits old new i j → b.Fits old new (i + a.oldSize) (j + a.newSize) →
    Leads old new i j right (i + a.oldSize + b.oldSize) (j + a.newSize + b.newSize)) : Becomes old new [a, b] right := by
  intro i j i' j' hleads
  cases hleads with
  | cons ha hrest =>
    obtain ⟨hb, rfl, rfl⟩ := leads_singleton.mp hrest
    exact h i j ha hb

end

end Scaffold.Diff
