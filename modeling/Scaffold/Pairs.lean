/-! Lists of pairs as maps: the first pair with a key counts. -/

namespace Scaffold.Pairs

variable {κ α : Type} [BEq κ] [LawfulBEq κ] [DecidableEq κ]

theorem lookup_cons (key other : κ) (v : α) (pairs : List (κ × α)) :
    ((key, v) :: pairs).lookup other = if other = key then some v else pairs.lookup other := by
  by_cases h : other = key
  · simp [h]
  · have hb : (other == key) = false := by simpa using h
    simp [List.lookup_cons, hb, h]

theorem lookup_filter (keep : κ → Bool) (other : κ) :
    ∀ pairs : List (κ × α),
      (pairs.filter (keep ·.1)).lookup other = if keep other then pairs.lookup other else none
  | [] => by simp
  | (key, v) :: rest => by
    have ih := lookup_filter keep other rest
    by_cases hk : keep key = true
    · have hf : ((key, v) :: rest).filter (keep ·.1) = (key, v) :: rest.filter (keep ·.1) := by
        simp [hk]
      rw [hf, lookup_cons, lookup_cons, ih]
      by_cases h : other = key <;> simp [h, hk]
    · have hf : ((key, v) :: rest).filter (keep ·.1) = rest.filter (keep ·.1) := by simp [hk]
      rw [hf, ih, lookup_cons]
      by_cases h : other = key <;> simp [h, hk]

end Scaffold.Pairs
