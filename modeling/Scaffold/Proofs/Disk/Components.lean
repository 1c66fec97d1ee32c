import Scaffold.Proofs.Disk.Walk

/-! The components of a path. Joining a path of names appends its components (`components_join`), whatever slashes
    the two texts begin and end with, and a path leads where its components do (`locate_eq_foldl`). So a path that has
    more names than a root leads to a location under it (`locate_of_inside`). -/

namespace Scaffold

namespace Text

theorem splitOn_append_of_notMem {sep : Char} {t : List Char} (ht : sep ∉ t) : ∀ s : List Char,
    ∃ front last, splitOn sep s = front ++ [last] ∧ splitOn sep (s ++ t) = front ++ [last ++ t]
  | [] => ⟨[], [], rfl, splitOn_of_notMem ht⟩
  | c :: s => by
    obtain ⟨front, last, hs, hst⟩ := splitOn_append_of_notMem ht s
    by_cases hc : c = sep
    · exact ⟨[] :: front, last, by simp [splitOn, hc, hs], by simp [splitOn, hc, hst]⟩
    · cases front with
      | nil => exact ⟨[], c :: last, splitOn_cons_of_ne hc hs, splitOn_cons_of_ne hc hst⟩
      | cons first others =>
        exact ⟨(c :: first) :: others, last, splitOn_cons_of_ne hc hs, splitOn_cons_of_ne hc hst⟩

end Text

namespace Path
open Text

/-! ### Components of texts -/

theorem component?_of_name {first : Bool} {piece : List Char} (hne : piece ≠ []) (hdots : ¬Disk.IsDots piece) :
    component? first piece = some (.name piece) := by
  obtain ⟨h1, h2⟩ := not_or.mp hdots
  simp [component?, hne, h1, h2]

theorem components_of_absolute {path : String} {rest : List Char} (h : path.toList = '/' :: rest) :
    components path = .root :: (splitOn '/' rest).filterMap (component? false) := by
  simp only [components, pieces, h]

theorem components_of_relative {path : String} (h : ¬IsAbsolute path) {first : List Char} {others : List (List Char)}
    (hcut : splitOn '/' path.toList = first :: others) :
    components path = (component? true first).toList ++ others.filterMap (component? false) := by
  have hpieces : pieces path.toList = (false, first :: others) := by
    unfold pieces
    split
    · rename_i rest hlist
      exact absurd (by rw [IsAbsolute, hlist]; rfl) h
    · rw [hcut]
  simp only [components, hpieces]

@[simp] theorem components_empty : components "" = [] := rfl

/-- What follows a slash behind a path adds the components of its pieces. -/
theorem components_of_cut {path base : String} {rest : List Char} (h : path.toList = base.toList ++ '/' :: rest)
    (hne : base ≠ "") : components path = components base ++ (splitOn '/' rest).filterMap (component? false) := by
  obtain ⟨c, cs, hbase⟩ : ∃ c cs, base.toList = c :: cs := List.exists_cons_of_ne_nil fun h => hne (by simpa using h)
  -- only the first piece of a relative path is read as a first piece
  by_cases hc : c = '/'
  · subst hc
    have hpath : path.toList = '/' :: (cs ++ '/' :: rest) := by
      rw [h, hbase]
      rfl
    rw [components_of_absolute hbase, components_of_absolute hpath, splitOn_append_cons, List.filterMap_append,
      List.cons_append]
  · obtain ⟨first, others, hcut⟩ := List.exists_cons_of_ne_nil (splitOn_ne_nil '/' base.toList)
    have hrelative : ∀ {p : String} {t : List Char}, p.toList = c :: t → ¬IsAbsolute p := fun {p t} hp habs => by
      rw [IsAbsolute, hp] at habs
      exact hc (Option.some.inj habs)
    have hcut' : splitOn '/' path.toList = first :: (others ++ splitOn '/' rest) := by
      rw [h, splitOn_append_cons, hcut, List.cons_append]
    rw [components_of_relative (hrelative hbase) hcut,
      components_of_relative (hrelative (t := cs ++ '/' :: rest) (by rw [h, hbase]; rfl)) hcut',
      List.filterMap_append, List.append_assoc]

theorem components_of_ends {path : String} {dir : List (List Char)} {base : List Char}
    (h : Ends path.toList dir base) (hdots : ¬Disk.IsDots base) :
    ∃ front, components path = front ++ [.name base] := by
  obtain ⟨hslash, hne, ⟨hpath, -⟩ | ⟨front, hpath, -⟩⟩ := h
  · have hrelative : ¬IsAbsolute path := fun habs => by
      rw [IsAbsolute, hpath] at habs
      exact hslash (List.mem_of_head? habs)
    refine ⟨[], ?_⟩
    have hcut : splitOn '/' path.toList = [base] := by rw [hpath, splitOn_of_notMem hslash]
    rw [components_of_relative hrelative hcut, component?_of_name hne hdots]
    rfl
  · have hlast : (splitOn '/' base).filterMap (component? false) = [.name base] := by
      rw [splitOn_of_notMem hslash, List.filterMap_cons_some (component?_of_name hne hdots), List.filterMap_nil]
    by_cases hfront : front = []
    · subst hfront
      exact ⟨[.root], by rw [components_of_absolute hpath, hlast]; rfl⟩
    · have hfront' : String.ofList front ≠ "" := by simpa using hfront
      have hpath' : path.toList = (String.ofList front).toList ++ '/' :: base := by simpa using hpath
      exact ⟨_, by rw [components_of_cut hpath' hfront', hlast]⟩

/-! ### Paths of names -/

/-- A path that is not empty and has names alone as its components. -/
def IsPlain (rel : String) : Prop := rel ≠ "" ∧ allNames (components rel) = true

@[simp] theorem allNames_nil : allNames [] = true := rfl

@[simp] theorem allNames_name_cons (s : List Char) (cs : List Component) : allNames (.name s :: cs) = allNames cs := by
  simp [allNames]

theorem allNames_append (cs ds : List Component) : allNames (cs ++ ds) = (allNames cs && allNames ds) := List.all_append

theorem allNames_iff {cs : List Component} : allNames cs = true ↔ ∃ names : List (List Char), cs = names.map .name := by
  refine ⟨fun h => ?_, ?_⟩
  · induction cs with
    | nil => exact ⟨[], rfl⟩
    | cons c cs ih =>
      rw [allNames, List.all_cons, Bool.and_eq_true] at h
      obtain ⟨names, rfl⟩ := ih h.2
      cases c with
      | name s => exact ⟨s :: names, rfl⟩
      | root | here | up => cases h.1
  · rintro ⟨names, rfl⟩
    simp [allNames]

theorem allNames_component? (first : Bool) (piece : List Char) : allNames (component? first piece).toList = true ↔
    piece ≠ ['.', '.'] ∧ (first = true → piece ≠ ['.']) := by
  by_cases hempty : piece = []
  · simp [hempty, component?]
  by_cases hhere : piece = ['.']
  · cases first <;> simp [hhere, component?, allNames]
  by_cases hup : piece = ['.', '.']
  · simp [hup, component?, allNames]
  · simp [component?, hempty, hhere, hup]

theorem allNames_filterMap_component? : ∀ pieces : List (List Char),
    allNames (pieces.filterMap (component? false)) = true ↔ ['.', '.'] ∉ pieces
  | [] => by simp
  | piece :: pieces => by
    have hcut : (piece :: pieces).filterMap (component? false) =
        (component? false piece).toList ++ pieces.filterMap (component? false) := by
      cases hc : component? false piece <;> simp [hc]
    rw [hcut, allNames_append, Bool.and_eq_true, allNames_component?, allNames_filterMap_component? pieces,
      List.mem_cons, not_or]
    simp [eq_comm]

theorem relative_of_allNames {rel : String} (h : allNames (components rel) = true) : ¬IsAbsolute rel := by
  intro habs
  obtain ⟨rest, hrest⟩ := List.head?_eq_some_iff.mp habs
  rw [components_of_absolute hrest] at h
  cases h

/-- A relative path is one of names if it does not climb, and does not begin with `.`. -/
theorem allNames_components_iff {rel : String} (hrelative : ¬IsAbsolute rel) {first : List Char} {others : List (List Char)}
    (hcut : splitOn '/' rel.toList = first :: others) : allNames (components rel) = true ↔
      (first ≠ ['.', '.'] ∧ first ≠ ['.']) ∧ ['.', '.'] ∉ others := by
  rw [components_of_relative hrelative hcut, allNames_append, Bool.and_eq_true, allNames_component?,
    allNames_filterMap_component?]
  simp

theorem IsPlain.relative {rel : String} (h : IsPlain rel) : ¬IsAbsolute rel := relative_of_allNames h.2

theorem IsPlain.pieces {rel : String} (h : IsPlain rel) : ∃ first others, splitOn '/' rel.toList = first :: others ∧
    component? true first = some (.name first) ∧
    components rel = .name first :: others.filterMap (component? false) := by
  obtain ⟨first, others, hcut⟩ := List.exists_cons_of_ne_nil (splitOn_ne_nil '/' rel.toList)
  have hcomponents := components_of_relative h.relative hcut
  have hnames := h.2
  rw [hcomponents] at hnames
  have hfirst : first ≠ [] := by
    rintro rfl
    obtain ⟨c, cs, hlist⟩ := List.exists_cons_of_ne_nil (l := rel.toList) (by simpa using h.1)
    have hc : c ≠ '/' := fun hc => h.relative (by rw [IsAbsolute, hlist, hc]; rfl)
    obtain ⟨piece, rest, hrest⟩ := List.exists_cons_of_ne_nil (splitOn_ne_nil '/' cs)
    rw [hlist, splitOn_cons_of_ne hc hrest] at hcut
    cases hcut
  have hdots : ¬Disk.IsDots first := by
    rintro (rfl | rfl) <;> cases hnames
  have hname : component? true first = some (.name first) := component?_of_name hfirst hdots
  exact ⟨first, others, hcut, hname, by rw [hcomponents, hname]; rfl⟩

theorem IsPlain.filterMap_pieces {rel : String} (h : IsPlain rel) :
    (splitOn '/' rel.toList).filterMap (component? false) = components rel := by
  obtain ⟨first, others, hcut, hfirst, hcomponents⟩ := h.pieces
  obtain ⟨hne, hdots⟩ : first ≠ [] ∧ ¬Disk.IsDots first := by
    refine ⟨?_, ?_⟩
    · rintro rfl
      cases hfirst
    · rintro (rfl | rfl) <;> cases hfirst
  rw [hcut, List.filterMap_cons, component?_of_name hne hdots, hcomponents]

theorem components_join {base rel : String} (h : IsPlain rel) :
    components (join base rel) = components base ++ components rel := by
  have hrel := h.filterMap_pieces
  by_cases hempty : base = ""
  · subst hempty
    simp [join]
  have hcond : (rel.toList.head? = some '/' || base.isEmpty) = false := by simpa [hempty, IsAbsolute] using h.relative
  simp only [join, hcond, Bool.false_eq_true, ↓reduceIte]
  split
  · rename_i hlast
    obtain ⟨front, hfront⟩ := List.getLast?_eq_some_iff.mp hlast
    have htext : (base ++ rel).toList = front ++ '/' :: rel.toList := by simp [hfront]
    by_cases hroot : front = []
    · subst hroot
      have hbase : base.toList = '/' :: [] := hfront
      rw [components_of_absolute htext, components_of_absolute hbase, hrel]
      rfl
    · have hne : String.ofList front ≠ "" := by simpa using hroot
      have htext' : (base ++ rel).toList = (String.ofList front).toList ++ '/' :: rel.toList := by simpa using htext
      have hbase : base.toList = (String.ofList front).toList ++ '/' :: [] := by simpa using hfront
      rw [components_of_cut htext' hne, components_of_cut hbase hne, hrel]
      simp [splitOn, component?]
  · have htext : (base ++ "/" ++ rel).toList = base.toList ++ '/' :: rel.toList := by simp
    rw [components_of_cut htext hempty, hrel]

theorem not_isDots_append (piece : List Char) {t : List Char} (ht : 2 < t.length) :
    piece ++ t ≠ [] ∧ ¬Disk.IsDots (piece ++ t) := by
  have hlong : 2 < (piece ++ t).length := by
    rw [List.length_append]
    omega
  refine ⟨fun h => ?_, ?_⟩
  · rw [h] at hlong
    simp at hlong
  · rintro (h | h) <;> rw [h] at hlong <;> simp at hlong

/-- Whatever a path of names ends with, an ending that is written behind it makes one name with the last piece. -/
theorem IsPlain.append {rel ending : String} (h : IsPlain rel) (hslash : '/' ∉ ending.toList)
    (hlong : 2 < ending.toList.length) : IsPlain (rel ++ ending) := by
  have hne : (rel ++ ending) ≠ "" := fun hempty => h.1 (String.append_eq_empty_iff.mp hempty).1
  obtain ⟨front, last, hcut, hcut'⟩ := splitOn_append_of_notMem hslash rel.toList
  rw [← String.toList_append] at hcut'
  obtain ⟨hlast, hdots⟩ := not_isDots_append last hlong
  have hnames := h.2
  have hrelative : ¬IsAbsolute (rel ++ ending) := fun habs => h.relative (by
    obtain ⟨c, cs, hlist⟩ := List.exists_cons_of_ne_nil (l := rel.toList) (by simpa using h.1)
    rw [IsAbsolute, String.toList_append, hlist] at habs
    rw [IsAbsolute, hlist]
    exact habs)
  refine ⟨hne, ?_⟩
  -- a path that is one piece has its last piece as the first, where a dot would be a component
  cases front with
  | nil =>
    rw [components_of_relative hrelative hcut', component?_of_name hlast hdots]
    rfl
  | cons first others =>
    rw [List.cons_append] at hcut hcut'
    rw [components_of_relative h.relative hcut] at hnames
    rw [components_of_relative hrelative hcut', List.filterMap_append, ← List.append_assoc]
    rw [List.filterMap_append, ← List.append_assoc] at hnames
    simp only [allNames, List.all_append, Bool.and_eq_true] at hnames ⊢
    refine ⟨hnames.1, ?_⟩
    rw [List.filterMap_cons, component?_of_name hlast hdots]
    rfl

/-! ### Inside a root -/

/-- A path is a root with at least one name behind it. -/
def Inside (root path : String) : Prop :=
  ∃ names : List (List Char), names ≠ [] ∧ components path = components root ++ names.map .name

theorem Inside.join {root path rel : String} (h : Inside root path) (hrel : IsPlain rel) :
    Inside root (Path.join path rel) := by
  obtain ⟨names, hne, hnames⟩ := h
  obtain ⟨more, hmore⟩ := allNames_iff.mp hrel.2
  exact ⟨names ++ more, by simp [hne], by rw [components_join hrel, hnames, hmore]; simp⟩

end Path

/-! ### Where components lead -/

namespace Disk
open Scaffold.Path Text

/-- Where a component leads from a location. -/
def stepTo (loc : Location) : Component → Location
  | .root => []
  | .here => loc
  | .up => loc.tail
  | .name s => String.ofList s :: loc

theorem follow_eq_component (first : Bool) (loc : Location) (piece : List Char) :
    follow loc piece = (component? first piece).toList.foldl stepTo loc := by
  by_cases hempty : piece = []
  · simp [hempty, component?]
  by_cases hdots : IsDots piece
  · rcases hdots with rfl | rfl <;> cases first <;> simp [component?, stepTo]
  · rw [follow_of_name hempty hdots, component?_of_name hempty hdots]
    rfl

theorem walk_eq_foldl (loc : Location) : ∀ ps : List (List Char),
    walk loc (ps.filter (· ≠ [])) = (ps.filterMap (component? false)).foldl stepTo loc
  | [] => rfl
  | p :: ps => by
    have hstep : walk loc ((p :: ps).filter (· ≠ [])) = walk (follow loc p) (ps.filter (· ≠ [])) := by
      by_cases hp : p = []
      · simp [hp]
      · simp [hp]
    rw [hstep, walk_eq_foldl, follow_eq_component false loc p]
    cases hc : component? false p <;> simp [hc]

theorem locate_eq_foldl (d : Disk) (path : String) : d.locate path = (components path).foldl stepTo d.current := by
  by_cases habs : IsAbsolute path
  · obtain ⟨rest, hrest⟩ := List.head?_eq_some_iff.mp habs
    have hstart : d.start path = [] := if_pos habs
    rw [components_of_absolute hrest, List.foldl_cons, locate, hstart, hrest, parts_cons]
    exact walk_eq_foldl [] (splitOn '/' rest)
  · obtain ⟨first, others, hcut⟩ := List.exists_cons_of_ne_nil (splitOn_ne_nil '/' path.toList)
    have hfirst : walk d.current ((first :: others).filter (· ≠ [])) =
        walk (follow d.current first) (others.filter (· ≠ [])) := by
      by_cases hp : first = []
      · simp [hp]
      · simp [hp]
    have hstart : d.start path = d.current := if_neg habs
    rw [components_of_relative habs hcut, List.foldl_append, ← follow_eq_component, ← walk_eq_foldl, ← hfirst, locate,
      hstart, parts, hcut]

theorem foldl_stepTo_names : ∀ (names : List (List Char)) (loc : Location),
    (names.map Component.name).foldl stepTo loc = (names.map String.ofList).reverse ++ loc
  | [], _ => rfl
  | s :: names, loc => by
    rw [List.map_cons, List.foldl_cons, foldl_stepTo_names names, List.map_cons, List.reverse_cons, List.append_assoc]
    rfl

end Disk

end Scaffold
