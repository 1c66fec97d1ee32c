import Scaffold.Disk.Path
import Scaffold.Proofs.Text.Split

/-! The parts of a path: its pieces that are not empty. Joining paths puts their parts one after another,
    a directory around a path has the first of its parts, and what is put after the name at the end of a
    path changes that name alone. -/

namespace Scaffold.Path
open Text

/-- The pieces of a path that are not empty. -/
def parts (s : List Char) : List (List Char) := (splitOn '/' s).filter (· ≠ [])

theorem parts_append_cons (s t : List Char) : parts (s ++ '/' :: t) = parts s ++ parts t := by
  simp only [parts, splitOn_append_cons, List.filter_append]

@[simp] theorem parts_nil : parts [] = [] := by simp [parts, splitOn]

@[simp] theorem parts_cons (t : List Char) : parts ('/' :: t) = parts t := by
  have h := parts_append_cons [] t
  rwa [parts_nil, List.nil_append, List.nil_append] at h

theorem parts_of_notMem {s : List Char} (h : '/' ∉ s) (hne : s ≠ []) : parts s = [s] := by
  simp [parts, splitOn_of_notMem h, hne]

theorem ne_nil_of_mem_parts {s p : List Char} (h : p ∈ parts s) : p ≠ [] := by
  simpa using (List.mem_filter.mp h).2

/-! ### Joining -/

/-- A path that starts at the root. -/
def IsAbsolute (path : String) : Prop := path.toList.head? = some '/'

theorem parts_join {base rel : String} (hrel : ¬IsAbsolute rel) :
    parts (join base rel).toList = parts base.toList ++ parts rel.toList := by
  unfold join
  by_cases hbase : base = ""
  · simp [hbase]
  have hempty : base.isEmpty = false := by simpa using hbase
  have hcond : (rel.toList.head? = some '/' || base.isEmpty) = false := by simpa [hempty, IsAbsolute] using hrel
  simp only [hcond, Bool.false_eq_true, ↓reduceIte]
  split
  · rename_i hlast
    obtain ⟨front, hfront⟩ := List.getLast?_eq_some_iff.mp hlast
    have hslash := parts_append_cons front []
    rw [parts_nil, List.append_nil] at hslash
    rw [String.toList_append, hfront, List.append_assoc, List.singleton_append, parts_append_cons, hslash]
  · have h : (base ++ "/" ++ rel).toList = base.toList ++ '/' :: rel.toList := by simp
    rw [h, parts_append_cons]

theorem isAbsolute_join {base rel : String} (hrel : ¬IsAbsolute rel) : IsAbsolute (join base rel) ↔ IsAbsolute base := by
  unfold join
  by_cases hbase : base = ""
  · have h : rel.toList.head? ≠ some '/' := hrel
    simp [hbase, IsAbsolute, h]
  have hempty : base.isEmpty = false := by simpa using hbase
  have hcond : (rel.toList.head? = some '/' || base.isEmpty) = false := by simpa [hempty, IsAbsolute] using hrel
  obtain ⟨c, rest, hlist⟩ : ∃ c rest, base.toList = c :: rest :=
    List.exists_cons_of_ne_nil fun h => hbase (by simpa using h)
  simp only [hcond, Bool.false_eq_true, ↓reduceIte, IsAbsolute]
  split <;> simp [hlist]

/-! ### The name at the end -/

/-- A slash in a path is the one before the name at the end, or stands in front of it. -/
theorem cut_before_name {front rest around base : List Char} (hslash : '/' ∉ base)
    (h : front ++ '/' :: rest = around ++ '/' :: base) :
    (front = around ∧ rest = base) ∨ ∃ mid, around = front ++ '/' :: mid ∧ rest = mid ++ '/' :: base := by
  rcases List.append_eq_append_iff.mp h with ⟨tail, htail, hrest⟩ | ⟨tail, htail, hbase⟩
  · cases tail with
    | nil => exact Or.inl ⟨by simp [htail], (List.cons.inj hrest).2⟩
    | cons c mid =>
      obtain ⟨rfl, rfl⟩ := List.cons.inj hrest
      exact Or.inr ⟨mid, htail, rfl⟩
  · cases tail with
    | nil => exact Or.inl ⟨by simp [htail], (List.cons.inj hbase).2.symm⟩
    | cons c mid =>
      obtain ⟨-, rfl⟩ := List.cons.inj hbase
      exact absurd (by simp) hslash

/-- A path that ends in the name `base`; `dir` are the parts in front of it. -/
def Ends (s : List Char) (dir : List (List Char)) (base : List Char) : Prop :=
  '/' ∉ base ∧ base ≠ [] ∧ ((s = base ∧ dir = []) ∨ ∃ front, s = front ++ '/' :: base ∧ dir = parts front)

namespace Ends
variable {s base t : List Char} {dir : List (List Char)}

theorem parts_eq (h : Ends s dir base) : parts s = dir ++ [base] := by
  obtain ⟨hslash, hne, ⟨rfl, rfl⟩ | ⟨front, rfl, rfl⟩⟩ := h
  · exact parts_of_notMem hslash hne
  · rw [parts_append_cons, parts_of_notMem hslash hne]

theorem ne_nil (h : Ends s dir base) : s ≠ [] := by
  obtain ⟨-, hne, ⟨rfl, -⟩ | ⟨front, rfl, -⟩⟩ := h
  · exact hne
  · simp

theorem append (h : Ends s dir base) (ht : '/' ∉ t) : Ends (s ++ t) dir (base ++ t) := by
  obtain ⟨hslash, hne, hcase⟩ := h
  refine ⟨fun hmem => (List.mem_append.mp hmem).elim hslash ht, by simp [hne], ?_⟩
  rcases hcase with ⟨rfl, rfl⟩ | ⟨front, rfl, rfl⟩
  · exact Or.inl ⟨rfl, rfl⟩
  · exact Or.inr ⟨front, by simp, rfl⟩

theorem join {path rel : String} (h : Ends rel.toList dir base) (hrel : ¬IsAbsolute rel) :
    Ends (Path.join path rel).toList (parts path.toList ++ dir) base := by
  obtain ⟨hslash, hne, hcase⟩ := h
  refine ⟨hslash, hne, ?_⟩
  by_cases hpath : path = ""
  · subst hpath
    simpa [Path.join] using hcase
  right
  have hcond : (rel.toList.head? = some '/' || path.isEmpty) = false := by simpa [hpath, IsAbsolute] using hrel
  obtain ⟨around, htext, hparts⟩ : ∃ around, (Path.join path rel).toList = around ++ '/' :: rel.toList ∧
      parts around = parts path.toList := by
    simp only [Path.join, hcond, Bool.false_eq_true, ↓reduceIte]
    split
    · rename_i hlast
      obtain ⟨front, hfront⟩ := List.getLast?_eq_some_iff.mp hlast
      refine ⟨front, by simp [hfront], ?_⟩
      rw [hfront, parts_append_cons, parts_nil, List.append_nil]
    · exact ⟨path.toList, by simp, rfl⟩
  rcases hcase with ⟨heq, rfl⟩ | ⟨front, heq, rfl⟩
  · exact ⟨around, by rw [htext, heq], by rw [hparts, List.append_nil]⟩
  · exact ⟨around ++ '/' :: front, by simp [htext, heq], by rw [parts_append_cons, hparts]⟩

theorem getLast?_ne (h : Ends s dir base) : s.getLast? ≠ some '/' := by
  obtain ⟨hslash, hne, hcase⟩ := h
  have hlast : s.getLast? = base.getLast? := by
    rcases hcase with ⟨rfl, -⟩ | ⟨front, rfl, -⟩
    · rfl
    · rw [List.getLast?_append, List.getLast?_cons_of_ne_nil hne, List.getLast?_eq_some_getLast hne, Option.some_or]
  intro heq
  exact hslash (List.mem_of_getLast? (hlast ▸ heq))

theorem of_append_cons {front rest : List Char} (h : Ends (front ++ '/' :: rest) dir base) :
    ∃ dir', Ends rest dir' base ∧ dir = parts front ++ dir' := by
  obtain ⟨hslash, hne, ⟨heq, -⟩ | ⟨around, heq, rfl⟩⟩ := h
  · exact absurd (heq ▸ List.mem_append_right _ (List.mem_cons_self ..)) hslash
  · rcases cut_before_name hslash heq with ⟨rfl, rfl⟩ | ⟨mid, rfl, rfl⟩
    · exact ⟨[], ⟨hslash, hne, Or.inl ⟨rfl, rfl⟩⟩, by simp⟩
    · exact ⟨parts mid, ⟨hslash, hne, Or.inr ⟨mid, rfl, rfl⟩⟩, by rw [parts_append_cons]⟩

end Ends

theorem ends_join {path name : String} (hslash : '/' ∉ name.toList) (hne : name ≠ "") :
    Ends (join path name).toList (parts path.toList) name.toList := by
  have hname : name.toList ≠ [] := by simpa using hne
  have hends : Ends name.toList [] name.toList := ⟨hslash, hname, Or.inl ⟨rfl, rfl⟩⟩
  rw [← List.append_nil (parts path.toList)]
  exact Ends.join hends fun habs => hslash (List.mem_of_mem_head? habs)

theorem exists_ends : ∀ {s : List Char}, s ≠ [] → s.getLast? ≠ some '/' → ∃ dir base, Ends s dir base
  | [], h, _ => absurd rfl h
  | [c], _, hlast => ⟨[], [c], fun hc => hlast (by simpa using (List.mem_singleton.mp hc).symm), by simp, Or.inl ⟨rfl, rfl⟩⟩
  | c :: d :: rest, _, hlast => by
    obtain ⟨dir, base, hslash, hne, hcase⟩ := exists_ends (s := d :: rest) (by simp) (by simpa using hlast)
    rcases hcase with ⟨heq, -⟩ | ⟨front, heq, -⟩
    · by_cases hc : c = '/'
      · exact ⟨parts [], base, hslash, hne, Or.inr ⟨[], by rw [heq, hc, List.nil_append], rfl⟩⟩
      · refine ⟨[], c :: base, fun hmem => ?_, by simp, Or.inl ⟨by rw [heq], rfl⟩⟩
        exact (List.mem_cons.mp hmem).elim (fun h => hc h.symm) hslash
    · exact ⟨parts (c :: front), base, hslash, hne, Or.inr ⟨c :: front, by rw [heq, List.cons_append], rfl⟩⟩

/-! ### Names -/

/-- The names in parts of a path: those other than `.`. -/
def namesIn (ps : List (List Char)) : List String := (ps.filter (· ≠ ['.'])).map String.ofList

theorem namesIn_append (ps qs : List (List Char)) : namesIn (ps ++ qs) = namesIn ps ++ namesIn qs := by
  simp [namesIn]

/-! ### The directories around a path -/

theorem dropEmptyEnd_suffix (absolute : Bool) : ∀ r : List (List Char), dropEmptyEnd absolute r <:+ r
  | [] => List.suffix_refl _
  | piece :: rest => by
    simp only [dropEmptyEnd]
    split
    · exact List.suffix_refl _
    · exact (dropEmptyEnd_suffix absolute rest).trans (List.suffix_cons ..)

theorem mem_parentsOf {absolute : Bool} {q : String} :
    ∀ {r : List (List Char)}, q ∈ parentsOf absolute r → ∃ around, around <:+ r ∧ q = ofReversed absolute around
  | [], h => by simp [parentsOf] at h
  | piece :: rest, h => by
    have hrest : q ∈ parentsOf absolute rest → ∃ around, around <:+ piece :: rest ∧ q = ofReversed absolute around :=
      fun hq => by
        obtain ⟨around, hsuffix, heq⟩ := mem_parentsOf hq
        exact ⟨around, hsuffix.trans (List.suffix_cons ..), heq⟩
    simp only [parentsOf] at h
    split at h
    · rcases List.mem_cons.mp h with rfl | h
      · exact ⟨_, (dropEmptyEnd_suffix absolute rest).trans (List.suffix_cons ..), rfl⟩
      · exact hrest h
    · exact hrest h

theorem parts_joinWith {ps : List (List Char)} (hp : ∀ p ∈ ps, '/' ∉ p) :
    parts (joinWith ['/'] ps) = ps.filter (· ≠ []) := by
  by_cases hne : ps = []
  · simp [hne, joinWith]
  · rw [parts, splitOn_joinWith hne hp]

theorem head?_joinWith {ps rest : List (List Char)} {first : List Char} (h : ps = first :: rest)
    (hne : first ≠ []) : (joinWith ['/'] ps).head? = first.head? := by
  subst h
  obtain ⟨c, cs, rfl⟩ := List.exists_cons_of_ne_nil hne
  cases rest <;> simp [joinWith]

/-- The first pieces of a path that does not start at the root do not make one that does: the first of them is not
    empty, unless the path is. -/
theorem head?_joinWith_ne {s : List Char} {ps : List (List Char)} (hs : s.head? ≠ some '/')
    (h : ps <+: Text.splitOn '/' s) : (joinWith ['/'] ps).head? ≠ some '/' := by
  obtain ⟨tail, htail⟩ := h
  cases ps with
  | nil => simp [joinWith]
  | cons first others =>
    cases s with
    | nil =>
      obtain ⟨rfl, hnil⟩ := List.cons.inj (htail : first :: (others ++ tail) = [[]])
      obtain ⟨rfl, -⟩ := List.append_eq_nil_iff.mp hnil
      simp [joinWith]
    | cons c cs =>
      have hc : c ≠ '/' := fun hc => hs (by rw [hc]; rfl)
      obtain ⟨piece, rest, hrest⟩ := List.exists_cons_of_ne_nil (splitOn_ne_nil '/' cs)
      rw [splitOn_cons_of_ne hc hrest] at htail
      obtain ⟨rfl, -⟩ := List.cons.inj htail
      rw [head?_joinWith rfl (by simp)]
      simpa using hc

theorem mem_parents {path q : String} (h : q ∈ parents path) :
    parts q.toList <+: parts path.toList ∧ (IsAbsolute q ↔ IsAbsolute path) := by
  unfold parents pieces at h
  split at h
  rename_i absolute ps heq
  obtain ⟨around, hsuffix, rfl⟩ := mem_parentsOf h
  have hfront : around.reverse <+: ps := by simpa using List.reverse_prefix.mpr hsuffix
  split at heq
  · rename_i rest hlist
    obtain ⟨rfl, rfl⟩ := Prod.mk.inj heq
    have hfree : ∀ p ∈ around.reverse, '/' ∉ p := fun p hp => notMem_of_mem_splitOn (hfront.subset hp)
    simp only [ofReversed, ↓reduceIte, String.toList_ofList, List.singleton_append, IsAbsolute, hlist, parts_cons,
      List.head?_cons, and_true]
    rw [parts_joinWith hfree]
    exact hfront.filter _
  · rename_i hlist
    obtain ⟨rfl, rfl⟩ := Prod.mk.inj heq
    have hfree : ∀ p ∈ around.reverse, '/' ∉ p := fun p hp => notMem_of_mem_splitOn (hfront.subset hp)
    have hrelative : ¬IsAbsolute path := fun habs => by
      obtain ⟨rest, hrest⟩ := List.head?_eq_some_iff.mp habs
      exact hlist rest hrest
    simp only [ofReversed, Bool.false_eq_true, ↓reduceIte, String.toList_ofList, List.nil_append, IsAbsolute]
    refine ⟨?_, ⟨fun hq => ?_, fun hq => absurd hq hrelative⟩⟩
    · rw [parts_joinWith hfree]
      exact hfront.filter _
    · exact absurd hq (head?_joinWith_ne hrelative hfront)

end Scaffold.Path
