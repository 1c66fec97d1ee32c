import Mathlib.Data.List.Infix
import Scaffold.Proofs.Disk.Components
import Scaffold.Proofs.Disk.Tree

/-! The directories around a path. A path from the root that neither stays nor climbs is told by its location, and the
    directories around it lead to the locations around that one, from the innermost to the root
    (`map_locate_ancestors`). Their paths are beginnings of it (`leader_prefix`), so none of them is longer. -/

namespace Scaffold

namespace Text

theorem joinWith_append (sep : List Char) {ps qs : List (List Char)} (hp : ps ≠ []) (hq : qs ≠ []) :
    joinWith sep (ps ++ qs) = joinWith sep ps ++ sep ++ joinWith sep qs := by
  obtain ⟨p, ps, rfl⟩ := List.exists_cons_of_ne_nil hp
  obtain ⟨q, qs, rfl⟩ := List.exists_cons_of_ne_nil hq
  simp [joinWith_cons]

end Text

namespace Path
open Text Disk

/-- A path from the root on in which no part stays or climbs. -/
structure Upright (path : String) : Prop where
  absolute : IsAbsolute path
  straight : ∀ part ∈ parts path.toList, ¬IsDots part

/-- A relative path of names. -/
structure Ordinary (rel : String) : Prop where
  notEmpty : rel ≠ ""
  relative : ¬IsAbsolute rel
  straight : ∀ part ∈ parts rel.toList, ¬IsDots part

instance (path : String) : Decidable (IsAbsolute path) := inferInstanceAs (Decidable (_ = _))

instance (part : List Char) : Decidable (IsDots part) := inferInstanceAs (Decidable (_ ∨ _))

instance (path : String) : Decidable (Upright path) :=
  decidable_of_iff (IsAbsolute path ∧ ∀ part ∈ parts path.toList, ¬IsDots part)
    ⟨fun ⟨h1, h2⟩ => ⟨h1, h2⟩, fun ⟨h1, h2⟩ => ⟨h1, h2⟩⟩

instance (rel : String) : Decidable (Ordinary rel) :=
  decidable_of_iff (rel ≠ "" ∧ ¬IsAbsolute rel ∧ ∀ part ∈ parts rel.toList, ¬IsDots part)
    ⟨fun ⟨h1, h2, h3⟩ => ⟨h1, h2, h3⟩, fun ⟨h1, h2, h3⟩ => ⟨h1, h2, h3⟩⟩

/-- The names on a path. -/
def namesOn (path : String) : List String := (parts path.toList).map String.ofList

/-- A path as its names spell it, with single slashes between them. -/
def spelled (path : String) : String := "/".intercalate (namesOn path)

theorem filterMap_component?_of_straight : ∀ {pieces : List (List Char)}, (∀ piece ∈ pieces, ¬IsDots piece) →
    pieces.filterMap (component? false) = (pieces.filter (· ≠ [])).map .name
  | [], _ => rfl
  | piece :: pieces, h => by
    obtain ⟨hdots, hrest⟩ := List.forall_mem_cons.mp h
    rw [List.filterMap_cons, filterMap_component?_of_straight hrest]
    by_cases hne : piece = []
    · simp [hne, component?]
    · simp [hne, component?_of_name hne hdots]

section
variable {path other : String}

theorem Upright.components_eq (h : Upright path) : components path = .root :: (parts path.toList).map .name := by
  obtain ⟨rest, hrest⟩ := List.head?_eq_some_iff.mp h.absolute
  have hstraight : ∀ piece ∈ splitOn '/' rest, ¬IsDots piece := fun piece hpiece hdots => by
    refine h.straight piece ?_ hdots
    rw [hrest, parts_cons]
    exact List.mem_filter.mpr ⟨hpiece, by rcases hdots with rfl | rfl <;> rfl⟩
  rw [components_of_absolute hrest, filterMap_component?_of_straight hstraight, hrest, parts_cons]
  rfl

theorem Upright.locate_eq (h : Upright path) (d : Disk) : d.locate path = (namesOn path).reverse := by
  rw [locate_eq_foldl, h.components_eq, List.foldl_cons, foldl_stepTo_names, stepTo, List.append_nil]
  rfl

theorem Upright.components_of_locate (h : Upright path) (d : Disk) :
    components path = .root :: (d.locate path).reverse.map (.name ·.toList) := by
  rw [h.components_eq, h.locate_eq, List.reverse_reverse, namesOn, List.map_map]
  congr 1
  exact List.map_congr_left fun _ _ => by simp

theorem Upright.parent (h : Upright path) (hother : other ∈ parents path) : Upright other := by
  obtain ⟨hbegins, habsolute⟩ := mem_parents hother
  exact ⟨habsolute.mpr h.absolute, fun part hpart => h.straight part (hbegins.subset hpart)⟩

theorem Upright.ancestor (h : Upright path) (hother : other ∈ ancestors path) : Upright other := by
  rcases List.mem_cons.mp hother with rfl | hother
  · exact h
  · exact h.parent hother

end

/-! ### Locations -/

/-- The location of pieces that are given from the last to the first. -/
def locationOf (reversed : List (List Char)) : Location := (reversed.filter (· ≠ [])).map String.ofList

theorem locationOf_dropEmptyEnd : ∀ {reversed : List (List Char)}, (∀ piece ∈ reversed, ¬IsDots piece) →
    locationOf (dropEmptyEnd true reversed) = locationOf reversed
  | [], _ => rfl
  | piece :: reversed, h => by
    obtain ⟨hdots, hrest⟩ := List.forall_mem_cons.mp h
    unfold dropEmptyEnd endsInComponent
    by_cases hne : piece = []
    · simpa [hne, component?, locationOf] using locationOf_dropEmptyEnd hrest
    · simp [component?_of_name hne hdots]

theorem locate_ofReversed (d : Disk) {reversed : List (List Char)} (h : ∀ piece ∈ reversed, '/' ∉ piece ∧ ¬IsDots piece) :
    d.locate (ofReversed true reversed) = locationOf reversed := by
  have htext : (ofReversed true reversed).toList = '/' :: joinWith ['/'] reversed.reverse := by simp [ofReversed]
  have hparts : parts (ofReversed true reversed).toList = (reversed.filter (· ≠ [])).reverse := by
    rw [htext, parts_cons, parts_joinWith fun p hp => (h p (List.mem_reverse.mp hp)).1, List.filter_reverse]
  have hupright : Upright (ofReversed true reversed) := by
    refine ⟨by rw [IsAbsolute, htext]; rfl, fun part hpart => ?_⟩
    rw [hparts, List.mem_reverse] at hpart
    exact (h part (List.mem_filter.mp hpart).1).2
  rw [hupright.locate_eq, namesOn, hparts, List.map_reverse, List.reverse_reverse]
  rfl

theorem map_locate_parentsOf (d : Disk) : ∀ {reversed : List (List Char)},
    (∀ piece ∈ reversed, '/' ∉ piece ∧ ¬IsDots piece) →
      (parentsOf true reversed).map d.locate = (locationOf reversed).tails.tail
  | [], _ => rfl
  | piece :: reversed, h => by
    obtain ⟨⟨-, hdots⟩, hrest⟩ := List.forall_mem_cons.mp h
    have ih := map_locate_parentsOf d hrest
    unfold parentsOf endsInComponent
    by_cases hne : piece = []
    · simpa [hne, component?, locationOf] using ih
    · have hlocation : locationOf (piece :: reversed) = String.ofList piece :: locationOf reversed := by
        simp [locationOf, hne]
      have hkept : ∀ piece ∈ dropEmptyEnd true reversed, '/' ∉ piece ∧ ¬IsDots piece := fun piece hpiece =>
        hrest piece ((dropEmptyEnd_suffix true reversed).subset hpiece)
      rw [component?_of_name hne hdots, Option.isSome_some, if_pos rfl, List.map_cons, ih, hlocation, List.tails,
        List.tail_cons, locate_ofReversed d hkept, locationOf_dropEmptyEnd fun p hp => (hrest p hp).2]
      cases locationOf reversed <;> rfl

theorem map_locate_ancestors {path : String} (h : Upright path) (d : Disk) :
    (ancestors path).map d.locate = (d.locate path).tails := by
  obtain ⟨rest, hrest⟩ := List.head?_eq_some_iff.mp h.absolute
  have hpieces : ∀ piece ∈ (splitOn '/' rest).reverse, '/' ∉ piece ∧ ¬IsDots piece := fun piece hpiece => by
    rw [List.mem_reverse] at hpiece
    refine ⟨notMem_of_mem_splitOn hpiece, fun hdots => h.straight piece ?_ hdots⟩
    rw [hrest, parts_cons]
    exact List.mem_filter.mpr ⟨hpiece, by rcases hdots with rfl | rfl <;> rfl⟩
  have hlocation : locationOf (splitOn '/' rest).reverse = d.locate path := by
    rw [h.locate_eq, namesOn, hrest, parts_cons, locationOf, parts, List.filter_reverse, List.map_reverse]
  have hparents : parents path = parentsOf true (splitOn '/' rest).reverse := by
    simp only [parents, pieces, hrest]
  rw [ancestors, List.map_cons, hparents, map_locate_parentsOf d hpieces, hlocation]
  cases d.locate path <;> rfl

theorem locate_suffix {path q : String} (h : Upright path) (d : Disk) (hq : q ∈ ancestors path) :
    d.locate q <:+ d.locate path := by
  rw [← List.mem_tails, ← map_locate_ancestors h d]
  exact List.mem_map_of_mem hq

theorem nodup_tails {α : Type} : ∀ l : List α, l.tails.Nodup
  | [] => List.nodup_singleton _
  | a :: l => by
    rw [List.tails, List.nodup_cons, List.mem_tails]
    exact ⟨fun h => absurd h.length_le (by simp), nodup_tails l⟩

theorem eq_of_locate_eq {path q q' : String} (h : Upright path) {d : Disk} (hq : q ∈ ancestors path)
    (hq' : q' ∈ ancestors path) (heq : d.locate q = d.locate q') : q = q' :=
  List.inj_on_of_nodup_map (map_locate_ancestors h d ▸ nodup_tails _) hq hq' heq

/-! ### Joining -/

section
variable {path rel : String}

theorem parts_ne_nil {c : Char} (hc : c ≠ '/') (s : List Char) : parts (c :: s) ≠ [] := by
  obtain ⟨first, others, hrest⟩ := List.exists_cons_of_ne_nil (splitOn_ne_nil '/' s)
  rw [parts, splitOn_cons_of_ne hc hrest]
  simp

theorem Ordinary.parts_ne_nil (h : Ordinary rel) : parts rel.toList ≠ [] := by
  obtain ⟨c, rest, hlist⟩ := List.exists_cons_of_ne_nil (l := rel.toList) (by simpa using h.notEmpty)
  have hc : c ≠ '/' := fun hc => h.relative (by rw [IsAbsolute, hlist, hc]; rfl)
  rw [hlist]
  exact Path.parts_ne_nil hc rest

theorem Upright.join (h : Upright path) (hrel : Ordinary rel) : Upright (join path rel) where
  absolute := (isAbsolute_join hrel.relative).mpr h.absolute
  straight part hpart := by
    rw [parts_join hrel.relative] at hpart
    exact (List.mem_append.mp hpart).elim (h.straight part) (hrel.straight part)

theorem namesOn_join (hrel : Ordinary rel) (path : String) : namesOn (Path.join path rel) = namesOn path ++ namesOn rel := by
  rw [namesOn, parts_join hrel.relative, List.map_append]
  rfl

theorem Upright.locate_join (h : Upright path) (hrel : Ordinary rel) (d : Disk) :
    d.locate (Path.join path rel) = (namesOn rel).reverse ++ d.locate path := by
  rw [(h.join hrel).locate_eq, namesOn_join hrel, List.reverse_append, h.locate_eq]

theorem namesOn_ne_nil (hrel : Ordinary rel) : namesOn rel ≠ [] := by simpa [namesOn] using hrel.parts_ne_nil

theorem spelled_eq_self (h : ∀ piece ∈ splitOn '/' rel.toList, piece ≠ []) : spelled rel = rel := by
  have hparts : parts rel.toList = splitOn '/' rel.toList := List.filter_eq_self.mpr (by simpa using h)
  rw [← String.toList_inj, spelled, toList_intercalate, namesOn, List.map_map, hparts]
  simpa using joinWith_splitOn '/' rel.toList

theorem parentsOf_suffix (absolute : Bool) (outer : List (List Char)) : ∀ inner : List (List Char),
    parentsOf absolute outer <:+ parentsOf absolute (inner ++ outer)
  | [] => List.suffix_refl _
  | piece :: inner => by
    have ih := parentsOf_suffix absolute outer inner
    rw [List.cons_append, parentsOf]
    split
    · exact ih.trans (List.suffix_cons ..)
    · exact ih

theorem parents_join_suffix (habsolute : IsAbsolute path) (hrel : ¬IsAbsolute rel) :
    parents path <:+ parents (Path.join path rel) := by
  obtain ⟨rest, hrest⟩ := List.head?_eq_some_iff.mp habsolute
  have hparents : ∀ {q : String} {s : List Char}, q.toList = '/' :: s →
      parents q = parentsOf true (splitOn '/' s).reverse := fun h => by simp only [parents, pieces, h]
  have hjoin : (Path.join path rel).toList = (leader path).toList ++ rel.toList := by
    rw [join_of_relative hrel, String.toList_append]
  rw [hparents hrest]
  unfold leader at hjoin
  split at hjoin
  · next hcond =>
    -- the path ends in a slash, and the empty piece behind that is no directory
    by_cases hroot : rest = []
    · rw [hroot]
      exact List.nil_suffix
    have hne : path.isEmpty = false := by simpa using fun h => by simp [h] at hrest
    rw [hne, Bool.false_or, decide_eq_true_eq, hrest, List.getLast?_cons_of_ne_nil hroot] at hcond
    obtain ⟨front, rfl⟩ := List.getLast?_eq_some_iff.mp hcond
    have htext : (Path.join path rel).toList = '/' :: (front ++ '/' :: rel.toList) := by simp [hjoin, hrest]
    rw [hparents htext, splitOn_append_cons, splitOn_append_cons, List.reverse_append, List.reverse_append]
    exact parentsOf_suffix true (splitOn '/' front).reverse _
  · have htext : (Path.join path rel).toList = '/' :: (rest ++ '/' :: rel.toList) := by simp [hjoin, hrest]
    rw [hparents htext, splitOn_append_cons, List.reverse_append]
    exact parentsOf_suffix ..

end

/-! ### Sizes -/

theorem size_le_of_prefix {s t : String} (h : s.toList <+: t.toList) : s.utf8ByteSize ≤ t.utf8ByteSize := by
  obtain ⟨rest, hrest⟩ := h
  have ht : t = s ++ String.ofList rest := by
    rw [← String.toList_inj, ← hrest]
    simp
  rw [ht, String.utf8ByteSize_append]
  exact Nat.le_add_right ..

theorem leader_eq (base : String) : leader base = base ∨ leader base = base ++ "/" := by
  unfold leader
  split
  · exact Or.inl rfl
  · exact Or.inr rfl

theorem mem_parentsOf_tail {absolute : Bool} {q : String} : ∀ {reversed : List (List Char)},
    q ∈ parentsOf absolute reversed → ∃ around, around <:+ reversed.tail ∧ reversed ≠ [] ∧ q = ofReversed absolute around
  | piece :: reversed, h => by
    have hrest : q ∈ parentsOf absolute reversed → ∃ around, around <:+ (piece :: reversed).tail ∧
        piece :: reversed ≠ [] ∧ q = ofReversed absolute around := fun hq => by
      obtain ⟨around, hsuffix, -, heq⟩ := mem_parentsOf_tail hq
      exact ⟨around, hsuffix.trans (List.tail_suffix _), List.cons_ne_nil _ _, heq⟩
    unfold parentsOf at h
    split at h
    · rcases List.mem_cons.mp h with rfl | h
      · exact ⟨_, dropEmptyEnd_suffix absolute reversed, List.cons_ne_nil _ _, rfl⟩
      · exact hrest h
    · exact hrest h

/-- A directory around a path is written as a beginning of it. -/
theorem leader_prefix {path q : String} (habsolute : IsAbsolute path) (h : q ∈ parents path) :
    (leader q).toList <+: path.toList := by
  obtain ⟨rest, hrest⟩ := List.head?_eq_some_iff.mp habsolute
  have hparents : parents path = parentsOf true (splitOn '/' rest).reverse := by
    simp only [parents, pieces, hrest]
  rw [hparents] at h
  obtain ⟨around, hsuffix, hne, rfl⟩ := mem_parentsOf_tail h
  have htext : (ofReversed true around).toList = '/' :: joinWith ['/'] around.reverse := by simp [ofReversed]
  by_cases hempty : around = []
  · subst hempty
    exact hrest ▸ ⟨rest, rfl⟩
  obtain ⟨piece, reversed, hreversed⟩ := List.exists_cons_of_ne_nil hne
  obtain ⟨inner, hinner⟩ := hsuffix
  rw [hreversed, List.tail_cons] at hinner
  have hpieces : splitOn '/' rest = around.reverse ++ (inner.reverse ++ [piece]) := by
    rw [← List.reverse_reverse (splitOn '/' rest), hreversed, ← hinner]
    simp
  have hpath : path.toList = (ofReversed true around).toList ++ '/' :: joinWith ['/'] (inner.reverse ++ [piece]) := by
    rw [hrest, ← joinWith_splitOn '/' rest, hpieces, joinWith_append _ (by simpa using hempty) (by simp), htext]
    simp
  rw [hpath]
  rcases leader_eq (ofReversed true around) with heq | heq
  · rw [heq]
    exact List.prefix_append ..
  · rw [heq, String.toList_append]
    exact ⟨joinWith ['/'] (inner.reverse ++ [piece]), by simp⟩

theorem parts_leader (base : String) : parts (leader base).toList = parts base.toList := by
  rcases leader_eq base with h | h
  · rw [h]
  · have htext : (base ++ "/").toList = base.toList ++ '/' :: [] := String.toList_append ..
    rw [h, htext, parts_append_cons, parts_nil, List.append_nil]

/-- Whatever is joined to a path, the directories around that are no longer than those around the path itself. -/
theorem size_leader_le {path rel dir : String} (habsolute : IsAbsolute path) (hrel : ¬IsAbsolute rel)
    (hdir : dir ∈ parents (join path rel)) (hfewer : (parts dir.toList).length ≤ (parts path.toList).length) :
    (leader dir).utf8ByteSize ≤ (leader path).utf8ByteSize := by
  have hjoin : (join path rel).toList = (leader path).toList ++ rel.toList := by
    rw [join_of_relative hrel, String.toList_append]
  have hlead := leader_prefix ((isAbsolute_join hrel).mpr habsolute) hdir
  rw [hjoin] at hlead
  rcases List.prefix_or_prefix_of_prefix hlead (List.prefix_append (leader path).toList rel.toList) with h | h
  · exact size_le_of_prefix h
  -- else there would be a name more in the directory
  obtain ⟨more, hmore⟩ := h
  cases more with
  | nil => exact size_le_of_prefix ⟨[], by rw [List.append_nil, ← hmore, List.append_nil]⟩
  | cons c more =>
    rw [← hmore, List.prefix_append_right_inj] at hlead
    obtain ⟨rest, hrest⟩ := hlead
    have hc : c ≠ '/' := fun hc => hrel (by rw [IsAbsolute, ← hrest, hc]; rfl)
    have hrelative : ¬IsAbsolute (String.ofList (c :: more)) := fun habs => hc (by simpa [IsAbsolute] using habs)
    have hparts : parts dir.toList = parts path.toList ++ parts (c :: more) := by
      rw [← parts_leader dir, ← hmore, ← String.toList_ofList (l := c :: more), ← String.toList_append,
        ← join_of_relative hrelative, parts_join hrelative]
    have hnil := List.ne_nil_iff_length_pos.mp (parts_ne_nil hc more)
    rw [hparts, List.length_append] at hfewer
    omega

/-- A directory around a joined path that is at the location of one around the path itself is written no longer than
    that. -/
theorem size_leader_le_of_locate_eq {path rel dir dir' : String} (hpath : Upright path) (hrel : Ordinary rel) {d : Disk}
    (hdir : dir ∈ ancestors path) (hdir' : dir' ∈ ancestors (join path rel)) (heq : d.locate dir' = d.locate dir) :
    (leader dir').utf8ByteSize ≤ (leader dir).utf8ByteSize := by
  have hjoin := hpath.join hrel
  have hparent' : dir' ∈ parents (join path rel) := by
    refine (List.mem_cons.mp hdir').resolve_left fun hitself => ?_
    have hlength := (locate_suffix hpath d hdir).length_le
    have hpos := List.length_pos_iff.mpr (namesOn_ne_nil hrel)
    rw [← heq, hitself, hpath.locate_join hrel, List.length_append, List.length_reverse] at hlength
    omega
  rcases List.mem_cons.mp hdir with rfl | hparent
  · refine size_leader_le hpath.absolute hrel.relative hparent' ?_
    have hlength := congrArg List.length heq
    rw [(hjoin.parent hparent').locate_eq, hpath.locate_eq] at hlength
    simpa [namesOn] using hlength.le
  · have hthere := (parents_join_suffix hpath.absolute hrel.relative).subset hparent
    rw [eq_of_locate_eq hjoin hdir' (List.mem_cons_of_mem _ hthere) heq]

end Path

end Scaffold
