import Scaffold.Diff.Tidy
import Scaffold.Proofs.Diff.Leads

/-! Tidied edits lead where the edits did. Moving and joining exchange neighbours for others that lead to the same place;
    what goes stale on the way is only where a deletion stands in the new list and an insertion in the old one. -/

namespace Scaffold.Diff

/-! ### Exchanges of neighbours -/

section
variable {α : Type} {old new : List α} {i j n : Nat} {a b prev this next : Edit}

/-- A deletion and an insertion are in either order right about where they are. -/
theorem becomes_swap (h : Cursor.areOpposite a b = true) : Becomes old new [a, b] [b, a] := by
  refine becomes_of_pair fun i j ha hb => ?_
  cases ha with
  | delete hn hle =>
    cases hb with
    | insert hm hle' => exact leads_insert rfl hm hle' (leads_delete rfl hn hle (.nil _ _))
    | _ => cases h
  | insert hn hle =>
    cases hb with
    | delete hm hle' => exact leads_delete rfl hm hle' (leads_insert rfl hn hle (.nil _ _))
    | _ => cases h
  | _ => cases h

theorem becomes_joinTo (hkind : a.kind = b.kind) (h : a.kind ≠ .replace) :
    Becomes old new [a, b] [joinTo (some a) b] := by
  refine becomes_of_pair fun i j ha hb => ?_
  cases ha with
  | @keep n hn hsame =>
    cases hb with
    | @keep m hm hsame' =>
      exact (leads_keep rfl rfl (Nat.add_pos_left hn m) (hsame.append hsame') (.nil _ _)).to (Nat.add_assoc ..).symm
        (Nat.add_assoc ..).symm
    | _ => cases hkind
  | @delete n y hn hle =>
    cases hb with
    | @delete m _ hm hle' =>
      dsimp only [Edit.delete] at hle' ⊢
      have hjoined : i + (n + (m + 0)) ≤ old.length := by omega
      exact (leads_delete (y := y) rfl (Nat.add_pos_left hn _) hjoined (.nil _ _)).to (by omega) rfl
    | _ => cases hkind
  | @insert n x hn hle =>
    cases hb with
    | @insert m _ hm hle' =>
      dsimp only [Edit.insert] at hle' ⊢
      have hjoined : j + (n + (0 + m)) ≤ new.length := by omega
      exact (leads_insert (x := x) rfl (Nat.add_pos_left hn _) hjoined (.nil _ _)).to rfl (by omega)
    | _ => cases hkind
  | replace => exact absurd rfl h

theorem becomes_grow (hkind : a.kind = b.kind) (h : b.kind = .delete ∨ b.kind = .insert) :
    Becomes old new [a, b] [a.grow (b.oldSize + b.newSize)] := by
  have hjoin : Becomes old new [a, b] [joinTo (some a) b] := by
    refine becomes_joinTo hkind ?_
    rcases h with h | h <;> simp [hkind, h]
  have hkeep : b.kind ≠ .keep := by rcases h with h | h <;> simp [h]
  rwa [joinTo, if_neg hkeep] at hjoin

theorem becomes_of_isEmpty {left right : List Edit} (ha : a ∈ left) (h : a.isEmpty = true) : Becomes old new left right := by
  intro i j i' j' hleads
  obtain ⟨before, after, rfl⟩ := List.append_of_mem ha
  obtain ⟨x, y, -, hafter⟩ := hleads.split
  cases hafter with
  | cons hfits _ => exact nomatch h.symm.trans hfits.isEmpty

/-- Kept items in front of kept items are joined to them. -/
theorem becomes_keep_next {x y : Nat} (h : next.kind = .keep) :
    Becomes old new [.keep x y n, next] [(next.up n).grow n] := by
  refine becomes_of_pair fun i j hfresh hnext => ?_
  cases hfresh with
  | keep hn hsame =>
    cases hnext with
    | @keep m hm hsame' =>
      dsimp only [Edit.keep] at hsame' ⊢
      exact (leads_keep (Nat.add_sub_cancel ..) (Nat.add_sub_cancel ..) (Nat.add_pos_right m hn)
        (Nat.add_comm n m ▸ hsame.append hsame') (.nil _ _)).to (by omega) (by omega)
    | _ => cases h

/-- What is left of kept items, unless it is nothing. -/
def leftOver (e : Edit) : List Edit := if e.isEmpty then [] else [e]

theorem leftOver_append (e : Edit) (edits : List Edit) : leftOver e ++ edits = if e.isEmpty then edits else e :: edits := by
  rw [leftOver]
  split <;> rfl

theorem leads_leftOver (h : Same old new i j n) : Leads old new i j (leftOver (.keep i j n)) (i + n) (j + n) := by
  rw [leftOver]
  rcases Nat.eq_zero_or_pos n with rfl | hn
  · exact .nil _ _
  · have hfull : ¬(Edit.keep i j n).isEmpty = true := by simp [Edit.isEmpty, Edit.keep, Nat.ne_of_gt hn]
    rw [if_neg hfull]
    exact leads_keep rfl rfl hn h (.nil _ _)

variable [DecidableEq α]

theorem commonStart_nil (xs : List α) : commonStart xs [] = 0 := by cases xs <;> rfl

theorem commonEnd_nil (xs : List α) : commonEnd xs [] = 0 := commonStart_nil xs.reverse

/-- An insertion that ends like the kept items before it is moved up past them. -/
theorem becomes_up (hprev : prev.kind = .keep) (hthis : this.kind = .delete ∨ this.kind = .insert)
    (hn : n = commonEnd (prev.oldLines old) (this.newLines new)) (hpos : 0 < n) : Becomes old new [prev, this]
      (leftOver (prev.dropEnd n) ++ [this.up n, .keep (prev.old + prev.oldSize - n) (this.new + this.newSize - n) n]) := by
  refine becomes_of_pair fun i j hp ht => ?_
  have hcommon := same_commonEnd (prev.oldLines old) (this.newLines new)
  rw [← hn] at hcommon
  cases hp with
  | @keep k hk hsame =>
    cases ht with
    | delete => exact absurd (hn.trans (commonEnd_nil _)) (Nat.ne_of_gt hpos)
    | @insert m x hm hle =>
      dsimp only [Edit.keep, Edit.insert, Edit.oldLines, Edit.newLines, Edit.dropEnd, Edit.up] at hcommon hle ⊢
      have hkept := hsame.old_le
      have hkept' := hsame.new_le
      rw [List.length_take, List.length_take, List.length_drop, List.length_drop, Nat.min_eq_left (by omega),
        Nat.min_eq_left (by omega)] at hcommon
      have hold := hcommon.old_le
      have hnew := hcommon.new_le
      rw [List.length_take, List.length_drop] at hold hnew
      have hfresh := hcommon.of_slices (by omega) (by omega)
      obtain ⟨l, rfl⟩ := Nat.exists_eq_add_of_le' (show n ≤ k by omega)
      rw [Nat.add_sub_cancel] at hfresh ⊢
      rw [show j + (l + n) + (m - n) = j + l + m by omega] at hfresh
      refine (leads_leftOver hsame.take).append (leads_insert (by omega) hm (by omega) ?_)
      exact (leads_keep (by omega) (by omega) hpos hfresh (.nil _ _)).to (by omega) (by omega)
    | _ => rcases hthis with h | h <;> cases h
  | _ => cases hprev

/-- An insertion that begins like the kept items after it is moved down past them. -/
theorem becomes_down (hnext : next.kind = .keep) (hthis : this.kind = .delete ∨ this.kind = .insert)
    (hn : n = commonStart (next.oldLines old) (this.newLines new)) (hpos : 0 < n) : Becomes old new [this, next]
      ([.keep next.old this.new n, this.down n] ++ leftOver (next.dropStart n)) := by
  refine becomes_of_pair fun i j ht hx => ?_
  have hcommon := same_commonStart (next.oldLines old) (this.newLines new)
  rw [← hn] at hcommon
  cases hx with
  | @keep k hk hsame =>
    cases ht with
    | delete => exact absurd (hn.trans (commonStart_nil _)) (Nat.ne_of_gt hpos)
    | @insert m x hm hle =>
      dsimp only [Edit.keep, Edit.insert, Edit.oldLines, Edit.newLines, Edit.dropStart, Edit.dropEnd, Edit.down,
        Nat.add_zero] at hcommon hsame ⊢
      have hkept := hsame.old_le
      have hkept' := hsame.new_le
      have hold := hcommon.old_le
      have hnew := hcommon.new_le
      rw [List.length_take, List.length_drop] at hold hnew
      have hfresh := hcommon.of_slices (by omega) (by omega)
      obtain ⟨l, rfl⟩ := Nat.exists_eq_add_of_le (show n ≤ k by omega)
      rw [Nat.add_sub_cancel_left]
      have hrest := leads_leftOver hsame.drop
      refine leads_keep rfl rfl hpos hfresh (leads_insert rfl hm (by omega) ?_)
      rw [show j + n + m = j + m + n by omega]
      exact hrest.to (by omega) (by omega)
    | _ => rcases hthis with h | h <;> cases h
  | _ => cases hnext

end

/-! ### Steps -/

namespace Cursor

section
variable {α : Type} {old new : List α} {n x y : Nat} {this : Edit} {before after : List Edit} {c c' : Cursor}

/-- All edits. -/
def edits (c : Cursor) : List Edit := c.before.reverse ++ c.this :: c.after

/-- What a step may do: the edits lead where they did, and the edit that is moved is of the same kind. -/
structure Steps (old new : List α) (c c' : Cursor) : Prop where
  becomes : Becomes old new c.edits c'.edits
  kind : c'.this.kind = c.this.kind

theorem Steps.refl (c : Cursor) : Steps old new c c := ⟨.rfl, rfl⟩

theorem Steps.trans {c'' : Cursor} (h : Steps old new c c') (h' : Steps old new c' c'') : Steps old new c c'' :=
  ⟨h.becomes.trans h'.becomes, h'.kind.trans h.kind⟩

/-- Kept items behind the edit are joined to those that are kept there. -/
theorem becomes_keepAfter (c : Cursor) (x y n : Nat) :
    Becomes old new (.keep x y n :: c.after) (c.keepAfter (.keep x y n) n) := by
  obtain ⟨before, this, after⟩ := c
  cases after with
  | nil => exact .rfl
  | cons next after =>
    simp only [keepAfter]
    split
    · next hkind => exact (becomes_keep_next hkind).within [] after
    · exact .rfl

theorem becomes_keepBefore (c : Cursor) (x y n : Nat) :
    Becomes old new (c.before.reverse ++ [.keep x y n]) (c.keepBefore (.keep x y n) n).reverse := by
  obtain ⟨before, this, after⟩ := c
  cases before with
  | nil => exact .rfl
  | cons prev before =>
    simp only [keepBefore, List.reverse_cons, List.append_assoc, List.cons_append, List.nil_append]
    split
    · next hkind =>
      have hjoin : Becomes old new [prev, .keep x y n] [prev.grow n] := becomes_joinTo hkind (by simp [hkind])
      simpa using hjoin.within before.reverse []
    · simpa using Becomes.rfl

theorem steps_run {step? : Cursor → Option Cursor} (hkind : c.this.kind = .delete ∨ c.this.kind = .insert)
    (h : ∀ {c c' : Cursor}, (c.this.kind = .delete ∨ c.this.kind = .insert) → step? c = some c' → Steps old new c c') :
    ∀ bound : Nat, Steps old new c (run step? bound c) := by
  intro bound
  induction bound generalizing c with
  | zero => exact .refl c
  | succ bound ih =>
    rw [run]
    split
    · next hstep =>
      have hsteps := h hkind hstep
      exact hsteps.trans (ih (hsteps.kind ▸ hkind))
    · exact .refl c

variable [DecidableEq α]

theorem steps_up (hkind : c.this.kind = .delete ∨ c.this.kind = .insert) (h : stepUp? old new c = some c') :
    Steps old new c c' := by
  obtain ⟨before, this, after⟩ := c
  cases before with
  | nil => cases h
  | cons prev before =>
    have hpair : ∀ {right : List Edit}, Becomes old new [prev, this] right →
        Becomes old new (edits ⟨prev :: before, this, after⟩) (before.reverse ++ right ++ after) := fun h => by
      simpa [edits] using h.within before.reverse after
    simp only [stepUp?] at h
    split at h
    · next hprev =>
      split at h
      · next hpos =>
        cases h
        refine ⟨?_, rfl⟩
        -- the lines that are passed go behind the edit, to those that are kept there if there are any
        have hup := hpair (becomes_up hprev hkind rfl hpos)
        generalize commonEnd (prev.oldLines old) (this.newLines new) = n at hup ⊢
        have hafter : Becomes old new (.keep (prev.old + prev.oldSize - n) (this.new + this.newSize - n) n :: after) _ :=
          becomes_keepAfter ⟨prev :: before, this, after⟩ _ _ n
        have hall := hafter.within (before.reverse ++ leftOver (prev.dropEnd n) ++ [this.up n]) []
        have hfront : before.reverse ++ leftOver (prev.dropEnd n) =
            (if (prev.dropEnd n).isEmpty then before else prev.dropEnd n :: before).reverse := by
          rw [leftOver]
          split <;> simp
        refine hup.trans ?_
        simpa [edits, ← hfront] using hall
      split at h
      · next hempty =>
        cases h
        refine ⟨?_, rfl⟩
        have hnone : Becomes old new [prev, this] [this] := becomes_of_isEmpty List.mem_cons_self hempty
        simpa [edits] using hpair hnone
      · cases h
    split at h
    · next hopposite =>
      cases h
      refine ⟨?_, rfl⟩
      simpa [edits] using hpair (becomes_swap hopposite)
    split at h
    · next hsame =>
      cases h
      refine ⟨?_, (Edit.kind_grow ..).trans hsame⟩
      simpa [edits] using hpair (becomes_grow hsame hkind)
    · cases h

theorem steps_down (hkind : c.this.kind = .delete ∨ c.this.kind = .insert) (h : stepDown? old new c = some c') :
    Steps old new c c' := by
  obtain ⟨before, this, after⟩ := c
  cases after with
  | nil => cases h
  | cons next after =>
    have hpair : ∀ {right : List Edit}, Becomes old new [this, next] right →
        Becomes old new (edits ⟨before, this, next :: after⟩) (before.reverse ++ right ++ after) := fun h => by
      simpa [edits] using h.within before.reverse after
    simp only [stepDown?] at h
    split at h
    · next hnext =>
      split at h
      · next hpos =>
        cases h
        refine ⟨?_, rfl⟩
        have hdown := hpair (becomes_down hnext hkind rfl hpos)
        generalize commonStart (next.oldLines old) (this.newLines new) = n at hdown ⊢
        -- here they go in front of it
        have hbefore : Becomes old new (before.reverse ++ [.keep next.old this.new n]) _ :=
          becomes_keepBefore ⟨before, this, next :: after⟩ _ _ n
        have hall := hbefore.within [] (this.down n :: leftOver (next.dropStart n) ++ after)
        refine hdown.trans ?_
        simpa [edits, leftOver_append] using hall
      split at h
      · next hempty =>
        cases h
        refine ⟨?_, rfl⟩
        have hnone : Becomes old new [this, next] [this] := becomes_of_isEmpty (by simp) hempty
        simpa [edits] using hpair hnone
      · cases h
    split at h
    · next hopposite =>
      cases h
      refine ⟨?_, rfl⟩
      simpa [edits] using hpair (becomes_swap hopposite)
    split at h
    · next hsame =>
      cases h
      refine ⟨?_, Edit.kind_grow ..⟩
      simpa [edits] using hpair (becomes_grow hsame.symm (hsame ▸ hkind))
    · cases h

end

end Cursor

/-! ### Moving and joining -/

section
variable {α : Type} [DecidableEq α] {old new : List α} {i j i' j' : Nat} {e : Edit} {edits : List Edit}

theorem becomes_moveEdits {kind : EditKind} (hkind : kind = .delete ∨ kind = .insert) : ∀ (bound : Nat)
    (before after : List Edit), Becomes old new (before.reverse ++ after) (moveEdits kind old new bound before after)
  | 0, _, _ => .rfl
  | _ + 1, before, [] => by simpa [moveEdits] using Becomes.rfl
  | bound + 1, before, e :: after => by
    rw [moveEdits]
    split
    · next he =>
      obtain ⟨c, hc⟩ : ∃ c, c = Cursor.run (Cursor.stepUp? old new) (stepBound before) ⟨before, e, after⟩ := ⟨_, rfl⟩
      obtain ⟨c', hc'⟩ : ∃ c', c' = c.run (Cursor.stepDown? old new) (stepBound c.after) := ⟨_, rfl⟩
      have hup : Cursor.Steps old new ⟨before, e, after⟩ c := hc ▸ Cursor.steps_run (he ▸ hkind) Cursor.steps_up _
      have hdown : Cursor.Steps old new c c' :=
        hc' ▸ Cursor.steps_run (by rw [hup.kind, he]; exact hkind) Cursor.steps_down _
      have hlater := becomes_moveEdits hkind bound (c'.this :: c'.before) c'.after
      rw [hc', hc] at hlater
      refine (hup.trans hdown).becomes.trans ?_
      rw [hc', hc]
      simpa [Cursor.edits] using hlater
    · simpa using becomes_moveEdits hkind bound (e :: before) after

theorem becomes_moved (edits : List Edit) : Becomes old new edits (moved old new edits) :=
  (becomes_moveEdits (.inl rfl) _ [] edits).trans (becomes_moveEdits (.inr rfl) _ [] _)

omit [DecidableEq α]

/-- What waits leads from the first two places to the last two; kept items wait by themselves. -/
inductive Waits (old new : List α) : Pending → Nat → Nat → Nat → Nat → Prop
  | nothing (i j : Nat) : Waits old new ⟨none, none, none⟩ i j i j
  | kept {i j n : Nat} (hn : 0 < n) (h : Same old new i j n) :
    Waits old new ⟨some (.keep i j n), none, none⟩ i j (i + n) (j + n)
  | deleted {i j n y : Nat} (hn : 0 < n) (h : i + n ≤ old.length) :
    Waits old new ⟨none, some (.delete i n y), none⟩ i j (i + n) j
  | inserted {i j m x : Nat} (hm : 0 < m) (h : j + m ≤ new.length) :
    Waits old new ⟨none, none, some (.insert x j m)⟩ i j i (j + m)
  | both {i j n m x y : Nat} (hn : 0 < n) (hm : 0 < m) (h : i + n ≤ old.length) (h' : j + m ≤ new.length) :
    Waits old new ⟨none, some (.delete i n y), some (.insert x j m)⟩ i j (i + n) (j + m)

theorem Waits.leads {p : Pending} (h : Waits old new p i j i' j') : Leads old new i j p.edits i' j' := by
  cases h with
  | nothing => exact .nil _ _
  | kept hn h => exact leads_keep rfl rfl hn h (.nil _ _)
  | deleted hn h => exact leads_delete rfl hn h (.nil _ _)
  | inserted hm h => exact leads_insert rfl hm h (.nil _ _)
  | both hn hm h h' => exact .cons (.replace hn hm h h') (.nil _ _)

/-- One more edit: some edits are given out, and the others wait. -/
theorem Waits.next {p : Pending} {x y : Nat} (h : Waits old new p i j x y) (he : e.Fits old new x y) :
    ∃ front p' u v, (∀ edits, joined p (e :: edits) = front ++ joined p' edits) ∧ Leads old new i j front u v ∧
      Waits old new p' u v (x + e.oldSize) (y + e.newSize) := by
  -- by what is added and what waits: lines of one kind are joined, and only a deletion and an insertion wait together
  cases he with
  | @keep n hn hsame =>
    cases h with
    | nothing => exact ⟨[], _, _, _, fun _ => rfl, .nil _ _, .kept hn hsame⟩
    | @kept _ _ k hk hkept =>
      refine ⟨[], ⟨some (.keep i j (k + n)), none, none⟩, i, j, fun _ => rfl, .nil _ _, ?_⟩
      dsimp only [Edit.keep]
      rw [Nat.add_assoc, Nat.add_assoc]
      exact .kept (Nat.add_pos_left hk n) (hkept.append hsame)
    | deleted hk hle => exact ⟨_, _, _, _, fun _ => rfl, (Waits.deleted hk hle).leads, .kept hn hsame⟩
    | inserted hk hle => exact ⟨_, _, _, _, fun _ => rfl, (Waits.inserted hk hle).leads, .kept hn hsame⟩
    | both hk hm hle hle' => exact ⟨_, _, _, _, fun _ => rfl, (Waits.both hk hm hle hle').leads, .kept hn hsame⟩
  | @delete n y' hn hle =>
    cases h with
    | nothing => exact ⟨[], _, _, _, fun _ => rfl, .nil _ _, .deleted hn hle⟩
    | kept hk hkept => exact ⟨_, _, _, _, fun _ => rfl, (Waits.kept hk hkept).leads, .deleted hn hle⟩
    | @deleted _ _ k _ hk _ =>
      refine ⟨[], ⟨none, some (.delete i (k + n) _), none⟩, i, _, fun _ => rfl, .nil _ _, ?_⟩
      dsimp only [Edit.delete]
      rw [Nat.add_assoc] at hle ⊢
      exact .deleted (Nat.add_pos_left hk n) hle
    | inserted hm hle' => exact ⟨[], _, _, _, fun _ => rfl, .nil _ _, .both hn hm hle hle'⟩
    | @both _ _ k m _ _ hk hm _ hle' =>
      refine ⟨[], ⟨none, some (.delete i (k + n) _), some (.insert _ j m)⟩, i, j, fun _ => rfl, .nil _ _, ?_⟩
      dsimp only [Edit.delete]
      rw [Nat.add_assoc] at hle ⊢
      exact .both (Nat.add_pos_left hk n) hm hle hle'
  | @insert n x' hn hle =>
    cases h with
    | nothing => exact ⟨[], _, _, _, fun _ => rfl, .nil _ _, .inserted hn hle⟩
    | kept hk hkept => exact ⟨_, _, _, _, fun _ => rfl, (Waits.kept hk hkept).leads, .inserted hn hle⟩
    | deleted hk hle' => exact ⟨[], _, _, _, fun _ => rfl, .nil _ _, .both hk hn hle' hle⟩
    | @inserted _ _ k _ hk _ =>
      refine ⟨[], ⟨none, none, some (.insert _ j (k + (0 + n)))⟩, _, j, fun _ => rfl, .nil _ _, ?_⟩
      dsimp only [Edit.insert]
      rw [Nat.zero_add, Nat.add_assoc]
      rw [Nat.add_assoc] at hle
      exact .inserted (Nat.add_pos_left hk n) hle
    | @both _ _ k m _ _ hk hm hle' _ =>
      refine ⟨[], ⟨none, some (.delete i k _), some (.insert _ j (m + (0 + n)))⟩, i, j, fun _ => rfl, .nil _ _, ?_⟩
      dsimp only [Edit.insert]
      rw [Nat.zero_add, Nat.add_zero, Nat.add_assoc]
      rw [Nat.add_assoc] at hle
      exact .both hk (Nat.add_pos_left hm n) hle' hle
  | replace hn hm hle hle' =>
    exact ⟨_, _, _, _, fun _ => (List.append_assoc _ [_] _).symm,
      h.leads.append (.cons (.replace hn hm hle hle') (.nil _ _)), .nothing _ _⟩

theorem leads_joined : ∀ {edits : List Edit} {p : Pending} {i j x y : Nat}, Waits old new p i j x y →
    Leads old new x y edits i' j' → Leads old new i j (joined p edits) i' j'
  | [], _, _, _, _, _, hwaits, hleads => by
    cases hleads
    exact hwaits.leads
  | e :: edits, p, i, j, x, y, hwaits, hleads => by
    cases hleads with
    | cons hfits hrest =>
      obtain ⟨front, p', u, v, hjoined, hfront, hwaits⟩ := hwaits.next hfits
      rw [hjoined]
      exact hfront.append (leads_joined hwaits hrest)

variable [DecidableEq α]

theorem leads_tidy (h : Leads old new i j edits i' j') : Leads old new i j (tidy old new edits) i' j' :=
  leads_joined (.nothing i j) (becomes_moved edits i j i' j' h)

end

end Scaffold.Diff
