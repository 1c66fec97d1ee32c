import Scaffold.Diff.Shortest
import Scaffold.Proofs.Diff.Tidy

/-! Where two lists are cut. The searches stay inside the lists until they meet, so the halves are parts of the lists and
    both are shorter than the whole. -/

namespace Scaffold.Diff

/-! ### One search -/

/-- What is known of a search in lists of these lengths: where it starts to pass equal items after `r` edits of which `t`
    are insertions, and what it reaches. Both are places in the old list; the place in the new one is greater by `2 * t`
    and less by `r`. -/
structure Search (size size' : Nat) (start reached : Nat → Nat → Nat) : Prop where
  first : start 0 0 = 0
  step : ∀ {r t : Nat}, t ≤ r + 1 →
    t ≤ r ∧ start (r + 1) t = reached r t + 1 ∨ 0 < t ∧ start (r + 1) t = reached r (t - 1)
  deletion : ∀ {r t : Nat}, t ≤ r → reached r t + 1 ≤ start (r + 1) t
  insertion : ∀ {r t : Nat}, t ≤ r → reached r t ≤ start (r + 1) (t + 1)
  slide : ∀ {r t : Nat}, t ≤ r → start r t ≤ reached r t
  old_le : ∀ {r t : Nat}, t ≤ r → reached r t ≤ max (start r t) size
  new_le : ∀ {r t : Nat}, t ≤ r → reached r t + 2 * t ≤ max (start r t + 2 * t) (size' + r)

namespace Search

section
variable {size size' : Nat} {start reached : Nat → Nat → Nat} (h : Search size size' start reached)
include h

/-- The place in the new list is not before its start. -/
theorem le_new : ∀ {r t : Nat}, t ≤ r → r ≤ reached r t + 2 * t
  | 0, _, _ => Nat.zero_le _
  | r + 1, t, ht => by
    have hslide := h.slide ht
    rcases Nat.lt_or_ge r t with hlast | hearlier
    · obtain rfl : t = r + 1 := by omega
      have ih := le_new (Nat.le_refl r)
      have hstep := h.insertion (Nat.le_refl r)
      omega
    · have ih := le_new hearlier
      have hstep := h.deletion hearlier
      omega

theorem start_pos {r t : Nat} (hr : 0 < r) (ht : t ≤ r) : 0 < start r t ∨ r < 2 * t := by
  obtain ⟨r, rfl⟩ := Nat.exists_eq_add_one_of_ne_zero (Nat.ne_of_gt hr)
  rcases h.step ht with ⟨-, hstep⟩ | ⟨hpos, hstep⟩
  · exact .inl (hstep ▸ Nat.succ_pos _)
  · have hle := h.le_new (show t - 1 ≤ r by omega)
    omega

/-- A search that has got past the end of the old list was there without its last deletions. -/
theorem old_end : ∀ {r t a : Nat}, t ≤ r → reached r t = size + a → a + t ≤ r ∧ size ≤ reached (r - a) t
  | r, t, 0, ht, hend => ⟨by omega, Nat.le_of_eq hend.symm⟩
  | 0, t, a + 1, ht, hend => by
    obtain rfl : t = 0 := by omega
    have hfirst := h.first
    have hle := h.old_le (Nat.le_refl 0)
    omega
  | r + 1, t, a + 1, ht, hend => by
    have hle := h.old_le ht
    have hslide := h.slide ht
    rcases h.step ht with ⟨hearlier, hstep⟩ | ⟨hpos, hstep⟩
    · obtain ⟨hcount, hbefore⟩ := old_end hearlier (show reached r t = size + a by omega)
      rw [Nat.add_sub_add_right]
      exact ⟨by omega, hbefore⟩
    · -- the last edit was an insertion, so the deletions are older, and it is made after what is left without them
      obtain ⟨t, rfl⟩ := Nat.exists_eq_add_one_of_ne_zero (Nat.ne_of_gt hpos)
      rw [Nat.add_sub_cancel] at hstep
      obtain ⟨hcount, hbefore⟩ := old_end (show t ≤ r by omega) (show reached r t = size + (a + 1) by omega)
      have hmove := h.insertion (show t ≤ r - (a + 1) by omega)
      have hlater := h.slide (show t + 1 ≤ r - (a + 1) + 1 by omega)
      rw [show r + 1 - (a + 1) = r - (a + 1) + 1 by omega]
      exact ⟨by omega, by omega⟩

/-- A search that has got past the end of the new list was there without its last insertions. -/
theorem new_end : ∀ {r t b : Nat}, t ≤ r → reached r t + 2 * t = size' + r + b →
    b ≤ t ∧ size' + (r - b) ≤ reached (r - b) (t - b) + 2 * (t - b)
  | r, t, 0, ht, hend => ⟨Nat.zero_le t, Nat.le_of_eq hend.symm⟩
  | 0, t, b + 1, ht, hend => by
    obtain rfl : t = 0 := by omega
    have hfirst := h.first
    have hle := h.new_le (Nat.le_refl 0)
    omega
  | r + 1, t, b + 1, ht, hend => by
    have hle := h.new_le ht
    have hslide := h.slide ht
    rcases h.step ht with ⟨hearlier, hstep⟩ | ⟨hpos, hstep⟩
    · -- the last edit was a deletion, so the insertions are older, and it is made after what is left without them
      obtain ⟨hcount, hbefore⟩ := new_end hearlier (show reached r t + 2 * t = size' + r + (b + 1) by omega)
      have hmove := h.deletion (show t - (b + 1) ≤ r - (b + 1) by omega)
      have hlater := h.slide (show t - (b + 1) ≤ r - (b + 1) + 1 by omega)
      rw [show r + 1 - (b + 1) = r - (b + 1) + 1 by omega]
      exact ⟨hcount, by omega⟩
    · obtain ⟨t, rfl⟩ := Nat.exists_eq_add_one_of_ne_zero (Nat.ne_of_gt hpos)
      rw [Nat.add_sub_cancel] at hstep
      obtain ⟨hcount, hbefore⟩ := new_end (show t ≤ r by omega) (show reached r t + 2 * t = size' + r + b by omega)
      rw [Nat.add_sub_add_right, Nat.add_sub_add_right]
      exact ⟨Nat.succ_le_succ hcount, hbefore⟩

/-! ### Until the searches meet -/

/-- Where the searches look for each other after `r` edits, this one has not come to an end of the lists. The diagonals
    are those that the other search can be on with as many edits, or with one less if `e` is 0. -/
def Apart (size size' e : Nat) (reached : Nat → Nat → Nat) (r : Nat) : Prop :=
  ∀ t ≤ r, ((r : Int) - 2 * t - (size - size')).natAbs < r + e → reached r t < size ∧ reached r t + 2 * t < size' + r

variable {d t e : Nat} (hd : t ≤ d) (hparity : ((size : Int) - size' + e) % 2 = 1)
  (hnear : ((d : Int) - 2 * t - (size - size')).natAbs < d + e) (hapart : ∀ r < d, Apart size size' e reached r)
include hd hparity hnear hapart

/-- Up to where the searches meet, they stay inside the lists. -/
theorem inside : start d t ≤ size ∧ start d t + 2 * t ≤ size' + d := by
  have hold := h.old_le hd
  have hnew := h.new_le hd
  have hslide := h.slide hd
  -- past an end, a search was there some edits before, where it would have met the other one
  constructor
  · refine Nat.not_lt.mp fun hpast => ?_
    obtain ⟨a, ha⟩ := Nat.exists_eq_add_of_le (show size ≤ reached d t by omega)
    obtain ⟨hcount, hend⟩ := h.old_end hd ha
    by_cases hseen : ((↑(d - a) : Int) - 2 * t - (size - size')).natAbs < d - a + e
    · have hbefore := (hapart (d - a) (by omega) t (by omega) hseen).1
      omega
    · obtain ⟨b, hb⟩ := Nat.exists_eq_add_of_le (show size' + d ≤ reached d t + 2 * t by omega)
      obtain ⟨hcount', -⟩ := h.new_end hd hb
      omega
  · refine Nat.not_lt.mp fun hpast => ?_
    obtain ⟨b, hb⟩ := Nat.exists_eq_add_of_le (show size' + d ≤ reached d t + 2 * t by omega)
    obtain ⟨hcount, hend⟩ := h.new_end hd hb
    by_cases hseen : ((↑(d - b) : Int) - 2 * ↑(t - b) - (size - size')).natAbs < d - b + e
    · have hbefore := (hapart (d - b) (by omega) (t - b) (by omega) hseen).2
      omega
    · obtain ⟨a, ha⟩ := Nat.exists_eq_add_of_le (show size ≤ reached d t by omega)
      obtain ⟨hcount', -⟩ := h.old_end hd ha
      omega

/-- They do not begin to pass equal items at the end of both lists, unless a list is empty. -/
theorem not_corner (hsize : 0 < size) (hsize' : 0 < size') (hzero : reached 0 0 = 0) :
    ¬(size ≤ start d t ∧ size' + d ≤ start d t + 2 * t) := by
  rintro ⟨hold, hnew⟩
  obtain ⟨hold', hnew'⟩ := h.inside hd hparity hnear hapart
  have hfirst := h.first
  cases d with
  | zero =>
    obtain rfl : t = 0 := by omega
    omega
  | succ d =>
    have hearlier : ∀ {u : Nat}, u ≤ d → (u = t ∨ u + 1 = t) → ¬(reached d u < size ∧ reached d u + 2 * u < size' + d) →
        d = 0 := fun hu htu hend => by
      refine Classical.byContradiction fun hpos => hend (hapart d (Nat.lt_succ_self d) _ hu ?_)
      omega
    rcases h.step hd with ⟨hle, hstep⟩ | ⟨hpos, hstep⟩
    · obtain rfl := hearlier hle (.inl rfl) (by omega)
      obtain rfl : t = 0 := by omega
      omega
    · obtain rfl := hearlier (u := t - 1) (by omega) (.inr (by omega)) (by omega)
      obtain rfl : t = 1 := by omega
      exact absurd (Nat.le_zero.mp (hzero ▸ hstep ▸ hold)) (Nat.ne_of_gt hsize)

end

end Search

/-! ### The search in two lists -/

section
variable {α : Type} [DecidableEq α] {old new : List α}

theorem length_nextBelow : ∀ (above : Nat) (xs : List Nat), (nextBelow above xs).length = xs.length + 1
  | _, [] => rfl
  | _, x :: xs => by rw [nextBelow, List.length_cons, length_nextBelow, List.length_cons]

theorem getD_nextBelow : ∀ (above : Nat) (xs : List Nat) {t : Nat}, t ≤ xs.length → (nextBelow above xs).getD t 0 =
    if t < xs.length then max ((above :: xs).getD t 0) (xs.getD t 0 + 1) else (above :: xs).getD t 0
  | above, [], t, ht => by
    obtain rfl : t = 0 := Nat.le_zero.mp ht
    rfl
  | above, x :: xs, 0, _ => by
    simp only [nextBelow, List.getD_cons_zero, List.length_cons, Nat.zero_lt_succ, if_true]
    split <;> omega
  | above, x :: xs, t + 1, ht => by
    have ih := getD_nextBelow x xs (Nat.le_of_succ_le_succ ht)
    simpa only [nextBelow, List.getD_cons_succ, List.length_cons, Nat.succ_lt_succ_iff] using ih

/-- Where a search in two lists starts to pass equal items after `r` edits, from the highest diagonal down. -/
def starts (old new : List α) : Nat → List Nat
  | 0 => nextStarts []
  | r + 1 => nextStarts ((slides old new r (starts old new r)).map Slide.reached)

/-- What a search in two lists has reached after `r` edits. -/
def ends (old new : List α) (r : Nat) : List Nat := (slides old new r (starts old new r)).map Slide.reached

/-- Where it starts after `r` edits of which `t` are insertions. -/
def startAt (old new : List α) (r t : Nat) : Nat := (starts old new r).getD t 0

/-- What it has reached after `r` edits of which `t` are insertions. -/
def reachedAt (old new : List α) (r t : Nat) : Nat := (ends old new r).getD t 0

/-- The place in the new list that lies on the same diagonal. -/
def across (r t x : Nat) : Nat := x + 2 * t - r

theorem length_slides : ∀ (k : Int) (xs : List Nat), (slides old new k xs).length = xs.length
  | _, [] => rfl
  | k, _ :: xs => congrArg (· + 1) (length_slides (k - 2) xs)

theorem nextStarts_of_ne_nil {xs : List Nat} (h : xs ≠ []) :
    (nextStarts xs).length = xs.length + 1 ∧ (nextStarts xs).getD 0 0 = xs.getD 0 0 + 1 ∧ ∀ t < xs.length,
      (nextStarts xs).getD (t + 1) 0 =
        if t + 1 < xs.length then max (xs.getD t 0) (xs.getD (t + 1) 0 + 1) else xs.getD t 0 := by
  obtain ⟨x, xs, rfl⟩ := List.exists_cons_of_ne_nil h
  refine ⟨congrArg (· + 1) (length_nextBelow x xs), rfl, fun t ht => ?_⟩
  have hnext := getD_nextBelow x xs (Nat.le_of_lt_succ ht)
  simpa only [nextStarts, List.getD_cons_succ, List.length_cons, Nat.succ_lt_succ_iff] using hnext

theorem length_starts : ∀ r : Nat, (starts old new r).length = r + 1
  | 0 => rfl
  | r + 1 => by
    have ih := length_starts r
    have hlength : (ends old new r).length = r + 1 := by rw [ends, List.length_map, length_slides, ih]
    have hne : ends old new r ≠ [] := List.ne_nil_of_length_eq_add_one hlength
    exact (nextStarts_of_ne_nil hne).1.trans (congrArg (· + 1) hlength)

theorem length_ends (r : Nat) : (ends old new r).length = r + 1 := by
  rw [ends, List.length_map, length_slides, length_starts]

theorem getElem?_slides : ∀ (k : Int) (xs : List Nat) (t : Nat), (slides old new k xs)[t]? = xs[t]?.map fun x =>
    ⟨k - 2 * t, x, x + commonStart (old.drop x) (new.drop ((x : Int) - (k - 2 * t)).toNat)⟩
  | _, [], _ => rfl
  | k, x :: xs, 0 => by simp [slides]
  | k, x :: xs, t + 1 => by
    have ih := getElem?_slides (k - 2) xs t
    have hk : k - 2 - 2 * (t : Int) = k - 2 * (↑(t + 1) : Int) := by omega
    simpa only [slides, List.getElem?_cons_succ, hk] using ih

theorem getElem?_starts {r t : Nat} (ht : t ≤ r) : (starts old new r)[t]? = some (startAt old new r t) := by
  have hlt : t < (starts old new r).length := by
    rw [length_starts]
    exact Nat.lt_succ_of_le ht
  rw [startAt, List.getD_eq_getElem?_getD, List.getElem?_eq_getElem hlt, Option.getD_some]

theorem across_eq (r t x : Nat) : ((x : Int) - ((r : Int) - 2 * t)).toNat = across r t x := by
  rw [across]
  omega

theorem getElem?_slides_across {r t : Nat} (ht : t ≤ r) : (slides old new r (starts old new r))[t]? =
    some ⟨r - 2 * t, startAt old new r t, startAt old new r t +
      commonStart (old.drop (startAt old new r t)) (new.drop (across r t (startAt old new r t)))⟩ := by
  rw [getElem?_slides, getElem?_starts ht, Option.map_some, across_eq]

theorem reachedAt_eq {r t : Nat} (ht : t ≤ r) : reachedAt old new r t = startAt old new r t +
    commonStart (old.drop (startAt old new r t)) (new.drop (across r t (startAt old new r t))) := by
  rw [reachedAt, ends, List.getD_eq_getElem?_getD, List.getElem?_map, getElem?_slides_across ht]
  rfl

theorem getElem?_slides_starts {r t : Nat} (ht : t ≤ r) : (slides old new r (starts old new r))[t]? =
    some ⟨r - 2 * t, startAt old new r t, reachedAt old new r t⟩ := by
  rw [reachedAt_eq ht, getElem?_slides_across ht]

theorem startAt_succ (r : Nat) : startAt old new (r + 1) 0 = reachedAt old new r 0 + 1 ∧ ∀ t ≤ r,
    startAt old new (r + 1) (t + 1) =
      if t < r then max (reachedAt old new r t) (reachedAt old new r (t + 1) + 1) else reachedAt old new r t := by
  have hne : ends old new r ≠ [] := List.ne_nil_of_length_eq_add_one (length_ends r)
  have hstarts := (nextStarts_of_ne_nil hne).2
  rw [length_ends] at hstarts
  refine ⟨hstarts.1, fun t ht => ?_⟩
  have hstart := hstarts.2 t (Nat.lt_succ_of_le ht)
  simp only [Nat.succ_lt_succ_iff] at hstart
  exact hstart

theorem commonStart_drop_le (xs ys : List α) (x y : Nat) :
    x + commonStart (xs.drop x) (ys.drop y) ≤ max x xs.length ∧
      y + commonStart (xs.drop x) (ys.drop y) ≤ max y ys.length := by
  have hsame := same_commonStart (xs.drop x) (ys.drop y)
  have hold := hsame.old_le
  have hnew := hsame.new_le
  rw [List.length_drop] at hold hnew
  omega

theorem same_commonStart_drop (xs ys : List α) (x y : Nat) (hx : x ≤ xs.length) (hy : y ≤ ys.length) :
    Same xs ys x y (commonStart (xs.drop x) (ys.drop y)) := by
  have hsame := same_commonStart (xs.drop x) (ys.drop y)
  have hle := commonStart_drop_le xs ys x y
  refine ⟨by omega, by omega, fun k hk => ?_⟩
  have hget := hsame.get k hk
  rwa [List.getElem?_drop, List.getElem?_drop, Nat.zero_add] at hget

theorem search (old new : List α) : Search old.length new.length (startAt old new) (reachedAt old new) where
  first := rfl
  step {r t} ht := by
    cases t with
    | zero => exact .inl ⟨Nat.zero_le _, (startAt_succ r).1⟩
    | succ t =>
      rw [(startAt_succ r).2 t (Nat.le_of_succ_le_succ ht)]
      split
      · next hlt =>
        -- a search starts from the neighbour that has got further
        rcases Nat.le_total (reachedAt old new r (t + 1) + 1) (reachedAt old new r t) with hle | hle
        · exact .inr ⟨Nat.succ_pos t, Nat.max_eq_left hle⟩
        · exact .inl ⟨hlt, Nat.max_eq_right hle⟩
      · exact .inr ⟨Nat.succ_pos t, rfl⟩
  deletion {r t} ht := by
    cases t with
    | zero => exact Nat.le_of_eq (startAt_succ r).1.symm
    | succ t =>
      rw [(startAt_succ r).2 t (Nat.le_of_lt ht), if_pos (Nat.lt_of_succ_le ht)]
      exact Nat.le_max_right _ _
  insertion {r t} ht := by
    rw [(startAt_succ r).2 t ht]
    split
    · exact Nat.le_max_left _ _
    · exact Nat.le_refl _
  slide ht := by
    rw [reachedAt_eq ht]
    exact Nat.le_add_right _ _
  old_le ht := by
    rw [reachedAt_eq ht]
    exact (commonStart_drop_le _ _ _ _).1
  new_le {r t} ht := by
    have hle := (commonStart_drop_le old new (startAt old new r t) (across r t (startAt old new r t))).2
    rw [reachedAt_eq ht]
    rw [across] at hle ⊢
    omega

/-! ### Where the lists are cut -/

/-- What a search has reached before its next edit. -/
def endsBefore (old new : List α) : Nat → List Nat
  | 0 => []
  | r + 1 => ends old new r

theorem nextStarts_endsBefore (r : Nat) : nextStarts (endsBefore old new r) = starts old new r := by
  cases r <;> rfl

theorem mem_slides {r : Nat} {s : Slide} (h : s ∈ slides old new r (starts old new r)) :
    ∃ t ≤ r, s = ⟨r - 2 * t, startAt old new r t, reachedAt old new r t⟩ := by
  obtain ⟨t, hget⟩ := List.mem_iff_getElem?.mp h
  have hlt := (List.getElem?_eq_some_iff.mp hget).1
  rw [length_slides, length_starts] at hlt
  have ht := Nat.le_of_lt_succ hlt
  exact ⟨t, ht, Option.some.inj (hget.symm.trans (getElem?_slides_starts ht))⟩

variable {old' new' : List α} {d e q : Nat}

theorem of_meeting {delta : Int} {other : List Nat} {s : Slide} (hq : q + 1 = d + e)
    (h : meeting? old.length delta (some q) other (slides old new d (starts old new d)) = some s) :
    ∃ t ≤ d, s = ⟨d - 2 * t, startAt old new d t, reachedAt old new d t⟩ ∧
      ((d : Int) - 2 * t - delta).natAbs < d + e ∧ old.length ≤ s.reached + reachedOn q other (-(s.diagonal - delta)) := by
  rw [meeting?] at h
  obtain ⟨t, ht, rfl⟩ := mem_slides (List.mem_of_find?_eq_some h)
  have hmeets := List.find?_some h
  simp only [Bool.and_eq_true, decide_eq_true_eq] at hmeets
  exact ⟨t, ht, rfl, by omega, hmeets.2⟩

/-- A search that does not meet the other one has not come to an end of the lists where it looks for it. -/
theorem apart_of_meeting (hq : q + 1 = d + e) (hparity : ((old.length : Int) - new.length + e) % 2 = 1)
    (h : meeting? old.length (old.length - new.length) (some q) (ends old' new' q) (slides old new d (starts old new d)) =
      none) : Search.Apart old.length new.length e (reachedAt old new) d := by
  intro t ht hnear
  rw [meeting?, List.find?_eq_none] at h
  have hmiss := h _ (List.mem_of_getElem? (getElem?_slides_starts ht))
  simp only [Bool.and_eq_true, decide_eq_true_eq, not_and, Nat.not_le] at hmiss
  specialize hmiss (by omega)
  rw [reachedOn, if_pos (by omega)] at hmiss
  have hother := (search old' new').le_new (r := q)
    (t := ((q : Int) - -((d : Int) - 2 * t - (old.length - new.length))).toNat / 2) (by omega)
  rw [reachedAt] at hother
  omega

/-- A cut inside two lists: both halves are shorter than the whole. -/
structure IsCut (size size' x y : Nat) : Prop where
  old_le : x ≤ size
  new_le : y ≤ size'
  pos : 0 < x + y
  lt : x + y < size + size'

theorem commonStart_pos (hpos : 0 < old.length) (h : old[0]? = new[0]?) : 0 < commonStart old new := by
  obtain ⟨a, xs, rfl⟩ := List.exists_cons_of_length_pos hpos
  cases new with
  | nil => simp at h
  | cons b ys =>
    obtain rfl : a = b := by simpa using h
    rw [commonStart, if_pos rfl]
    exact Nat.succ_pos _

theorem commonEnd_pos {x y n : Nat} (h : Same old new x y n) (hn : 0 < n) (hold : x + n = old.length)
    (hnew : y + n = new.length) : 0 < commonEnd old new := by
  have hlast := h.get (n - 1) (by omega)
  refine commonStart_pos (by rw [List.length_reverse]; omega) ?_
  rw [List.getElem?_reverse (by omega), List.getElem?_reverse (by omega)]
  rwa [show x + (n - 1) = old.length - 1 - 0 by omega, show y + (n - 1) = new.length - 1 - 0 by omega] at hlast

theorem reachedAt_zero (h : commonStart old new = 0) : reachedAt old new 0 0 = 0 := by
  rw [reachedAt_eq (Nat.le_refl 0)]
  exact (Nat.zero_add _).trans h

theorem reachedOn_zero_le (reached : List Nat) (k : Int) : reachedOn 0 reached k ≤ reached.getD 0 0 := by
  rw [reachedOn]
  split
  · next hk =>
    obtain rfl : k = 0 := by omega
    exact Nat.le_refl _
  · exact Nat.zero_le _

/-- A search that starts to pass equal items inside two lists that do not end alike does not pass them up to both ends. -/
theorem not_both_ends (hend : commonEnd old new = 0) {t : Nat} (ht : t ≤ d) (hle : startAt old new d t ≤ old.length)
    (hle' : startAt old new d t + 2 * t ≤ new.length + d)
    (hcorner : ¬(old.length ≤ startAt old new d t ∧ new.length + d ≤ startAt old new d t + 2 * t)) :
    ¬(old.length ≤ reachedAt old new d t ∧ new.length + d ≤ reachedAt old new d t + 2 * t) := by
  rintro ⟨hpast, hpast'⟩
  have hwithin := (search old new).old_le ht
  have hwithin' := (search old new).new_le ht
  have hreached := @reachedAt_eq _ _ old new _ _ ht
  have hsame := same_commonStart_drop old new (startAt old new d t) (across d t (startAt old new d t)) hle
    (by rw [across]; omega)
  have hold_le := hsame.old_le
  have hnew_le := hsame.new_le
  rw [across] at hsame hnew_le hreached
  have hpassed := commonEnd_pos hsame (by omega) (by omega) (by omega)
  exact absurd hend (Nat.ne_of_gt hpassed)

variable (hold : old ≠ []) (hnew : new ≠ []) (hstart : commonStart old new = 0)
include hold hnew hstart

/-- The search from the start cuts where it begins to pass equal items. -/
theorem isCut_ahead {other : List Nat} {s : Slide} (hodd : ((old.length : Int) - new.length) % 2 ≠ 0) (hq : q + 1 = d)
    (hapart : ∀ r < d, Search.Apart old.length new.length 0 (reachedAt old new) r)
    (h : meeting? old.length (old.length - new.length) (some q) other (slides old new d (starts old new d)) = some s) :
    IsCut old.length new.length s.start ((s.start : Int) - s.diagonal).toNat := by
  have hsize := List.length_pos_iff.mpr hold
  have hsize' := List.length_pos_iff.mpr hnew
  obtain ⟨t, ht, rfl, hnear, -⟩ := of_meeting (e := 0) hq h
  have hparity : ((old.length : Int) - new.length + (0 : Nat)) % 2 = 1 := by omega
  have hsearch := search old new
  obtain ⟨hle, hle'⟩ := hsearch.inside ht hparity hnear hapart
  have hcorner := hsearch.not_corner ht hparity hnear hapart hsize hsize' (reachedAt_zero hstart)
  have hmoved := hsearch.start_pos (show 0 < d by omega) ht
  exact ⟨hle, by dsimp only; omega, by dsimp only; omega, by dsimp only; omega⟩

/-- The search from the end cuts where it has passed equal items. -/
theorem isCut_behind {s : Slide} (hend : commonEnd old new = 0) (heven : ((old.length : Int) - new.length) % 2 = 0)
    (hapart : ∀ r < d, Search.Apart old.length new.length 1 (reachedAt old.reverse new.reverse) r)
    (h : meeting? old.length (old.length - new.length) (some d) (ends old new d)
      (slides old.reverse new.reverse d (starts old.reverse new.reverse d)) = some s) :
    IsCut old.length new.length (old.length - s.reached) (new.length - ((s.reached : Int) - s.diagonal).toNat) := by
  have hsize := List.length_pos_iff.mpr hold
  have hsize' := List.length_pos_iff.mpr hnew
  have hsearch := search old.reverse new.reverse
  obtain ⟨t, ht, rfl, hnear, hmeets⟩ := of_meeting (e := 1) rfl (by rwa [← old.length_reverse, ← new.length_reverse] at h)
  rw [List.length_reverse, List.length_reverse] at hsearch hnear
  rw [List.length_reverse] at hmeets
  have hparity : ((old.length : Int) - new.length + (1 : Nat)) % 2 = 1 := by omega
  obtain ⟨hle, hle'⟩ := hsearch.inside ht hparity hnear hapart
  have hcorner := hsearch.not_corner ht hparity hnear hapart hsize hsize' (reachedAt_zero hend)
  have hdiagonal := hsearch.le_new ht
  -- without an edit it would meet the other search at the start only, and that one has not moved
  have hpos : 0 < reachedAt old.reverse new.reverse d t ∨ d < 2 * t := by
    rcases Nat.eq_zero_or_pos d with rfl | hd
    · obtain rfl : t = 0 := Nat.le_zero.mp ht
      have hzero : reachedAt old.reverse new.reverse 0 0 = 0 := reachedAt_zero hend
      have hzero' : (ends old new 0).getD 0 0 = 0 := reachedAt_zero hstart
      have hreach := Nat.le_trans hmeets (Nat.add_le_add_left (reachedOn_zero_le _ _) _)
      dsimp only at hreach
      omega
    · have hmoved := hsearch.start_pos hd ht
      have hslide := hsearch.slide ht
      omega
  have hreversed : commonEnd old.reverse new.reverse = 0 := by
    rwa [commonEnd, List.reverse_reverse, List.reverse_reverse]
  have hinside := not_both_ends hreversed ht (by rwa [List.length_reverse]) (by rwa [List.length_reverse])
    (by rwa [List.length_reverse, List.length_reverse])
  rw [List.length_reverse, List.length_reverse] at hinside
  exact ⟨Nat.sub_le _ _, Nat.sub_le _ _, by dsimp only; omega, by dsimp only; omega⟩

theorem isCut_of_cutFrom? (hend : commonEnd old new = 0) {x y : Nat} : ∀ (rounds d : Nat),
    (((old.length : Int) - new.length) % 2 ≠ 0 → ∀ r < d, Search.Apart old.length new.length 0 (reachedAt old new) r) →
    (((old.length : Int) - new.length) % 2 = 0 →
      ∀ r < d, Search.Apart old.length new.length 1 (reachedAt old.reverse new.reverse) r) →
    cutFrom? old new old.reverse new.reverse rounds d (endsBefore old new d) (endsBefore old.reverse new.reverse d) =
      some (x, y) → IsCut old.length new.length x y
  | 0, _, _, _, h => nomatch h
  | rounds + 1, d, hodd, heven, h => by
    rw [cutFrom?] at h
    simp only [nextStarts_endsBefore] at h
    split at h
    · next s hmeets =>
      split at hmeets
      · cases hmeets
      · next hdelta =>
        cases d with
        | zero => cases hmeets
        | succ q =>
          cases h
          exact isCut_ahead hold hnew hstart hdelta rfl (hodd hdelta) hmeets
    · next hmissed =>
      split at h
      · next s hmeets =>
        split at hmeets
        · next hdelta =>
          cases h
          exact isCut_behind hold hnew hstart hend hdelta (heven hdelta) hmeets
        · cases hmeets
      · next hmissed' =>
        -- the searches have not met, so where they look for each other both are apart after `d` edits too
        refine isCut_of_cutFrom? hend rounds (d + 1) (fun hdelta r hr => ?_) (fun hdelta r hr => ?_) h
        · rcases Nat.lt_succ_iff_lt_or_eq.mp hr with hr | rfl
          · exact hodd hdelta r hr
          rw [if_neg hdelta] at hmissed
          cases r with
          | zero => exact fun t _ hnear => absurd hnear (Nat.not_lt_zero _)
          | succ q => exact apart_of_meeting rfl (by omega) hmissed
        · rcases Nat.lt_succ_iff_lt_or_eq.mp hr with hr | rfl
          · exact heven hdelta r hr
          rw [if_pos hdelta] at hmissed'
          have hlength := old.length_reverse
          have hlength' := new.length_reverse
          rw [← hlength, ← hlength'] at hmissed' ⊢
          exact apart_of_meeting rfl (by omega) hmissed'

theorem isCut_of_cut? (hend : commonEnd old new = 0) {x y : Nat} (h : cut? old new = some (x, y)) :
    IsCut old.length new.length x y :=
  isCut_of_cutFrom? hold hnew hstart hend _ 0 (fun _ _ hr => absurd hr (Nat.not_lt_zero _))
    (fun _ _ hr => absurd hr (Nat.not_lt_zero _)) h

end

/-! ### A shortest way -/

section
variable {α : Type} {old new xs ys : List α} {i j n : Nat}

/-- The items stand in a list from a place on. -/
structure Placed (old xs : List α) (i : Nat) : Prop where
  le : i + xs.length ≤ old.length
  get : ∀ k < xs.length, old[i + k]? = xs[k]?

theorem Placed.take (h : Placed old xs i) (n : Nat) : Placed old (xs.take n) i := by
  have hle := h.le
  refine ⟨by rw [List.length_take]; omega, fun k hk => ?_⟩
  rw [List.length_take] at hk
  rw [List.getElem?_take_of_lt (by omega)]
  exact h.get k (by omega)

theorem Placed.drop (h : Placed old xs i) (hn : n ≤ xs.length) : Placed old (xs.drop n) (i + n) := by
  have hle := h.le
  refine ⟨by rw [List.length_drop]; omega, fun k hk => ?_⟩
  rw [List.length_drop] at hk
  rw [List.getElem?_drop, Nat.add_assoc]
  exact h.get (n + k) (by omega)

theorem Placed.same {x y : Nat} (hold : Placed old xs i) (hnew : Placed new ys j) (h : Same xs ys x y n) :
    Same old new (i + x) (j + y) n := by
  have hle := hold.le
  have hle' := hnew.le
  have hold_le := h.old_le
  have hnew_le := h.new_le
  refine ⟨by omega, by omega, fun k hk => ?_⟩
  rw [Nat.add_assoc, Nat.add_assoc, hold.get _ (by omega), hnew.get _ (by omega)]
  exact h.get k hk

theorem leads_kept (h : Same old new i j n) : Leads old new i j (kept i j n) (i + n) (j + n) := by
  rw [kept]
  split
  · next hn =>
    subst hn
    exact .nil _ _
  · next hn => exact leads_keep rfl rfl (Nat.pos_of_ne_zero hn) h (.nil _ _)

variable [DecidableEq α]

theorem commonStart_drop : ∀ xs ys : List α, commonStart (xs.drop (commonStart xs ys)) (ys.drop (commonStart xs ys)) = 0
  | [], ys => by simp [commonStart]
  | x :: xs, [] => by simp [commonStart]
  | x :: xs, y :: ys => by
    by_cases h : x = y
    · simpa [commonStart, h] using commonStart_drop xs ys
    · simp [commonStart, h]

theorem commonStart_take_le : ∀ (xs ys : List α) (m n : Nat), commonStart (xs.take m) (ys.take n) ≤ commonStart xs ys
  | [], ys, _, _ => by simp [commonStart]
  | x :: xs, [], m, _ => by cases m <;> simp [commonStart]
  | x :: xs, y :: ys, 0, _ => by simp [commonStart]
  | x :: xs, y :: ys, _ + 1, 0 => by simp [commonStart]
  | x :: xs, y :: ys, m + 1, n + 1 => by
    rw [List.take_succ_cons, List.take_succ_cons, commonStart, commonStart]
    split
    · exact Nat.succ_le_succ (commonStart_take_le xs ys m n)
    · exact Nat.le_refl 0

theorem commonEnd_take (xs ys : List α) :
    commonEnd (xs.take (xs.length - commonEnd xs ys)) (ys.take (ys.length - commonEnd xs ys)) = 0 := by
  have hsame := same_commonEnd xs ys
  have hold := hsame.old_le
  have hnew := hsame.new_le
  have hdrop := commonStart_drop xs.reverse ys.reverse
  rw [← commonEnd] at hdrop
  rw [commonEnd, List.reverse_take, List.reverse_take]
  rwa [show xs.length - (xs.length - commonEnd xs ys) = commonEnd xs ys by omega,
    show ys.length - (ys.length - commonEnd xs ys) = commonEnd xs ys by omega]

/-- Where lists that neither begin nor end alike stand, the edits between them lead from their starts to their ends if
    those of shorter lists do. -/
theorem leads_middle {depth : Nat} (ih : ∀ {i j : Nat} {xs ys : List α}, xs.length + ys.length < depth → Placed old xs i →
      Placed new ys j → Leads old new i j (editsAt depth i j xs ys) (i + xs.length) (j + ys.length))
    (hdepth : xs.length + ys.length ≤ depth) (hxs : Placed old xs i) (hys : Placed new ys j) (hstart : commonStart xs ys = 0)
    (hend : commonEnd xs ys = 0) :
    Leads old new i j
      (if xs.isEmpty && ys.isEmpty then []
        else if ys.isEmpty then [.delete i xs.length j]
        else if xs.isEmpty then [.insert i j ys.length]
        else match cut? xs ys with
          | some (x, y) =>
            editsAt depth i j (xs.take x) (ys.take y) ++ editsAt depth (i + x) (j + y) (xs.drop x) (ys.drop y)
          | none => [.delete i xs.length j, .insert i j ys.length])
      (i + xs.length) (j + ys.length) := by
  have hle := hxs.le
  have hle' := hys.le
  by_cases hempty : xs = []
  · subst hempty
    by_cases hempty' : ys = []
    · subst hempty'
      exact .nil i j
    · have hpos := List.length_pos_iff.mpr hempty'
      simp only [List.isEmpty_nil, Bool.true_and, List.isEmpty_iff, hempty', if_false, if_true]
      exact leads_insert rfl hpos hle' (.nil _ _)
  have hpos := List.length_pos_iff.mpr hempty
  by_cases hempty' : ys = []
  · subst hempty'
    simp only [List.isEmpty_nil, Bool.and_true, List.isEmpty_iff, hempty, if_false, if_true]
    exact leads_delete rfl hpos hle (.nil _ _)
  have hpos' := List.length_pos_iff.mpr hempty'
  simp only [Bool.and_eq_true, List.isEmpty_iff, hempty, hempty', and_self, if_false]
  split
  · next x y hcut =>
    have hinside := isCut_of_cut? hempty hempty' hstart hend hcut
    have hx := hinside.old_le
    have hy := hinside.new_le
    have hmoved := hinside.pos
    have hshort := hinside.lt
    -- both halves are shorter, since the cut is at neither end
    have hfirst := ih (by rw [List.length_take, List.length_take]; omega) (hxs.take x) (hys.take y)
    have hsecond := ih (by rw [List.length_drop, List.length_drop]; omega) (hxs.drop hx) (hys.drop hy)
    rw [List.length_take, List.length_take, Nat.min_eq_left hx, Nat.min_eq_left hy] at hfirst
    rw [List.length_drop, List.length_drop] at hsecond
    exact (hfirst.append hsecond).to (by omega) (by omega)
  · exact leads_delete rfl hpos hle (leads_insert rfl hpos' hle' (.nil _ _))

theorem leads_editsAt : ∀ {depth : Nat} {i j : Nat} {xs ys : List α}, xs.length + ys.length < depth → Placed old xs i →
    Placed new ys j → Leads old new i j (editsAt depth i j xs ys) (i + xs.length) (j + ys.length)
  | 0, _, _, _, _, h, _, _ => absurd h (Nat.not_lt_zero _)
  | depth + 1, i, j, xs, ys, hdepth, hxs, hys => by
    rw [editsAt]
    have hbefore := same_commonStart xs ys
    have hstart := commonStart_drop xs ys
    generalize commonStart xs ys = b at *
    have hold := hbefore.old_le
    have hnew := hbefore.new_le
    rw [Nat.zero_add] at hold hnew
    have hfront : Same old new i j b := hxs.same hys hbefore
    have hxs' := hxs.drop hold
    have hys' := hys.drop hnew
    rw [show i + xs.length = i + b + (xs.drop b).length by rw [List.length_drop]; omega,
      show j + ys.length = j + b + (ys.drop b).length by rw [List.length_drop]; omega]
    have hshort : (xs.drop b).length + (ys.drop b).length ≤ depth := by
      rw [List.length_drop, List.length_drop]
      omega
    -- what is left of the lists after the start
    generalize xs.drop b = xs at *
    generalize ys.drop b = ys at *
    have hafter := same_commonEnd xs ys
    have hend := commonEnd_take xs ys
    generalize commonEnd xs ys = a at *
    have hold := hafter.old_le
    have hnew := hafter.new_le
    have hstart' : commonStart (xs.take (xs.length - a)) (ys.take (ys.length - a)) = 0 :=
      Nat.le_zero.mp (hstart ▸ commonStart_take_le xs ys _ _)
    have hmiddle := leads_middle (@leads_editsAt depth) (by rw [List.length_take, List.length_take]; omega) (hxs'.take _)
      (hys'.take _) hstart' hend
    have hback := hxs'.same hys' hafter
    have hkept := (leads_kept hfront).append (hmiddle.append (leads_kept (by
      rwa [List.length_take, List.length_take, Nat.min_eq_left (Nat.sub_le _ _), Nat.min_eq_left (Nat.sub_le _ _)])))
    rw [← List.append_assoc] at hkept
    refine hkept.to ?_ ?_ <;> rw [List.length_take] <;> omega

theorem leads_shortest (old new : List α) : Leads old new 0 0 (shortest old new) old.length new.length := by
  have hwhole : ∀ xs : List α, Placed xs xs 0 := fun xs =>
    ⟨Nat.le_of_eq (Nat.zero_add _), fun k _ => by rw [Nat.zero_add]⟩
  exact (leads_editsAt (Nat.lt_succ_self _) (hwhole old) (hwhole new)).to (Nat.zero_add _) (Nat.zero_add _)

end

end Scaffold.Diff
