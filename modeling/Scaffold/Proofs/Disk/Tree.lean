import Mathlib.Data.List.Induction
import Mathlib.Data.List.Nodup
import Scaffold.Proofs.Disk.Named

/-! The tree below a directory. Its entries are listed once each (`list_of_isDirectoryAt`), and names lead from the
    directory to what stands there (`find_pathBelow`), by the path that joining the names one after another makes. That
    is the path of the joined names too (`pathBelow_eq_join`). -/

namespace Scaffold.Disk
open Scaffold.Path

/-! ### The entries of a directory -/

theorem nodup_eraseDups {α : Type} [DecidableEq α] : ∀ l : List α, l.eraseDups.Nodup
  | [] => by simp
  | a :: l => by
    rw [List.eraseDups_cons, List.nodup_cons]
    exact ⟨by simp, nodup_eraseDups _⟩
termination_by l => l.length
decreasing_by exact Nat.lt_succ_of_le (List.length_filter_le _ l)

/-- The entries of a directory: each name once, with what it is a name of. -/
structure Entries (d : Disk) (dir : Location) (entries : List (String × Entry)) : Prop where
  nodup : (entries.map Prod.fst).Nodup
  mem_iff : ∀ name e, (name, e) ∈ entries ↔ d.get? (name :: dir) = some e

section
variable {d : Disk} {path root name : String}

theorem map_fst_filterMap_get? (dir : Location) (names : List String) :
    ((names.filterMap fun name => (d.get? (name :: dir)).map (name, ·)).map Prod.fst) =
      names.filter fun name => (d.get? (name :: dir)).isSome := by
  induction names with
  | nil => rfl
  | cons name names ih => cases h : d.get? (name :: dir) <;> simp [h, ih]

theorem list_of_isDirectoryAt (h : d.IsDirectoryAt path) :
    ∃ entries, d.list path = .ok entries ∧ Entries d (d.locate path) entries := by
  unfold list
  rw [find_of_isDirectoryAt h]
  refine ⟨_, rfl, ?_, fun name e => ?_⟩
  · rw [map_fst_filterMap_get?]
    exact (nodup_eraseDups _).filter _
  · rw [List.mem_filterMap]
    constructor
    · rintro ⟨other, -, hother⟩
      obtain ⟨e', he', heq⟩ := Option.map_eq_some_iff.mp hother
      cases heq
      exact he'
    · intro he
      refine ⟨name, List.mem_eraseDups.mpr (List.mem_filterMap.mpr ?_), by rw [he]; rfl⟩
      have hlookup : d.entries.lookup (name :: d.locate path) = some e := he
      obtain ⟨before, after, heq, -⟩ := List.lookup_eq_some_iff.mp hlookup
      exact ⟨(name :: d.locate path, e), heq ▸ List.mem_append_right _ List.mem_cons_self, if_pos rfl⟩

/-! ### Paths of names -/

/-- What a relative path is written behind to be seen from a base. -/
def leader (base : String) : String := if base.isEmpty || base.toList.getLast? = some '/' then base else base ++ "/"

theorem join_of_relative {rel : String} (h : ¬IsAbsolute rel) (base : String) : join base rel = leader base ++ rel := by
  have hrel : decide (rel.toList.head? = some '/') = false := decide_eq_false h
  unfold join leader
  by_cases hempty : base.isEmpty = true
  · have hbase : base = "" := String.isEmpty_iff.mp hempty
    simp [hbase]
  · by_cases hlast : base.toList.getLast? = some '/' <;> simp [hrel, hempty, hlast]

theorem size_leader (base : String) : base.utf8ByteSize ≤ (leader base).utf8ByteSize := by
  unfold leader
  split
  · exact Nat.le_refl _
  · rw [String.utf8ByteSize_append]
    exact Nat.le_add_right ..

/-- The path that names lead along from a directory. -/
def pathBelow (root : String) (names : List String) : String := names.foldl join root

theorem FileName.relative (h : FileName name) : ¬IsAbsolute name := fun habs => h.noSlash (List.mem_of_mem_head? habs)

theorem size_join (h : FileName name) (path : String) : path.utf8ByteSize < (join path name).utf8ByteSize := by
  have hpos : name.utf8ByteSize ≠ 0 := fun hzero => h.notEmpty (String.utf8ByteSize_eq_zero_iff.mp hzero)
  have hleader := size_leader path
  rw [join_of_relative h.relative, String.utf8ByteSize_append]
  omega

theorem leader_join (h : FileName name) (root : String) : leader (join root name) = join root name ++ "/" := by
  have hends : Ends (join root name).toList (parts root.toList) name.toList := ends_join h.noSlash h.notEmpty
  have hempty : (join root name).isEmpty = false := String.isEmpty_eq_false_iff.mpr (by simpa using hends.ne_nil)
  rw [leader, hempty, Bool.false_or, if_neg (by simpa using hends.getLast?_ne)]

theorem join_join (h : FileName name) {rel : String} (hrel : ¬IsAbsolute rel) (root : String) :
    join (join root name) rel = join root (name ++ "/" ++ rel) := by
  have hrelative : ¬IsAbsolute (name ++ "/" ++ rel) := fun habs => by
    obtain ⟨c, cs, hname⟩ := List.exists_cons_of_ne_nil (l := name.toList) (by simpa using h.notEmpty)
    have hc : c = '/' := by simpa [IsAbsolute, hname] using habs
    exact h.noSlash (by rw [hname, hc]; exact List.mem_cons_self)
  rw [join_of_relative hrel, leader_join h, join_of_relative hrelative, join_of_relative h.relative]
  simp only [String.append_assoc]

theorem toList_intercalate (names : List String) :
    ("/".intercalate names).toList = Text.joinWith ['/'] (names.map String.toList) := by
  rw [String.toList_intercalate, Text.intercalate_eq_joinWith]
  rfl

theorem splitOn_intercalate {names : List String} (hne : names ≠ []) (h : ∀ name ∈ names, '/' ∉ name.toList) :
    Text.splitOn '/' ("/".intercalate names).toList = names.map String.toList := by
  rw [toList_intercalate]
  exact Text.splitOn_joinWith (by simpa using hne) (List.forall_mem_map.mpr h)

theorem not_isAbsolute_intercalate {names : List String} (hne : names ≠ []) (h : ∀ name ∈ names, FileName name) :
    ¬IsAbsolute ("/".intercalate names) := by
  obtain ⟨name, names, rfl⟩ := List.exists_cons_of_ne_nil hne
  have hname := (List.forall_mem_cons.mp h).1
  rw [IsAbsolute, toList_intercalate, List.map_cons, head?_joinWith rfl (by simpa using hname.notEmpty)]
  exact hname.relative

theorem pathBelow_eq_join : ∀ {names : List String}, names ≠ [] → (∀ name ∈ names, FileName name) → ∀ root : String,
    pathBelow root names = join root ("/".intercalate names)
  | [name], _, _, root => by simp [pathBelow]
  | name :: next :: names, _, h, root => by
    obtain ⟨hname, hnames⟩ := List.forall_mem_cons.mp h
    have ih := pathBelow_eq_join (List.cons_ne_nil next names) hnames (join root name)
    have hrelative := not_isAbsolute_intercalate (List.cons_ne_nil next names) hnames
    rw [String.intercalate_cons_cons, ← join_join hname hrelative, ← ih]
    rfl

theorem pathBelow_append (root : String) (names : List String) (name : String) :
    pathBelow root (names ++ [name]) = join (pathBelow root names) name := by
  simp [pathBelow]

/-! ### Finding what stands below -/

theorem Named.fileName {loc : Location} {e : Entry} (h : d.Named) (hthere : d.get? loc = some e) :
    ∀ name ∈ loc, FileName name := h loc (by rw [hthere]; rfl)

theorem isDirectoryAt_pathBelow (h : d.Named) (hroot : d.IsDirectoryAt root) {names : List String}
    (hthere : d.get? (names.reverse ++ d.locate root) = some .directory)
    (hshort : (pathBelow root names).utf8ByteSize < maxPathSize) :
    d.IsDirectoryAt (pathBelow root names) ∧ d.locate (pathBelow root names) = names.reverse ++ d.locate root := by
  induction names using List.reverseRecOn with
  | nil => exact ⟨hroot, rfl⟩
  | append_singleton names name ih =>
    rw [List.reverse_concat, List.cons_append] at hthere
    have hname := h.fileName hthere name List.mem_cons_self
    rw [pathBelow_append] at hshort ⊢
    obtain ⟨hdir, hlocate⟩ := ih (d.parent_isDirectory hthere) (Nat.lt_trans (size_join hname _) hshort)
    have hjoin : d.locate (join (pathBelow root names) name) = name :: (names.reverse ++ d.locate root) := by
      rw [locate_join hname.noSlash hname.notEmpty hname.notDots, hlocate]
    refine ⟨⟨opens_join hdir hname hshort, by rw [hjoin, hthere]⟩, ?_⟩
    rw [hjoin, List.reverse_concat, List.cons_append]

theorem find_pathBelow (h : d.Named) (hroot : d.IsDirectoryAt root) {names : List String} {e : Entry} (hne : names ≠ [])
    (hthere : d.get? (names.reverse ++ d.locate root) = some e)
    (hshort : (pathBelow root names).utf8ByteSize < maxPathSize) :
    ∃ r, d.find (pathBelow root names) = .ok r ∧ r.entry = e := by
  obtain ⟨names, name, rfl⟩ := (List.eq_nil_or_concat names).resolve_left hne
  rw [List.concat_eq_append] at hthere hshort ⊢
  rw [List.reverse_concat, List.cons_append] at hthere
  have hname := h.fileName hthere name List.mem_cons_self
  rw [pathBelow_append] at hshort ⊢
  obtain ⟨hdir, hlocate⟩ := isDirectoryAt_pathBelow h hroot (d.parent_isDirectory hthere) (Nat.lt_trans (size_join hname _) hshort)
  exact find_join hdir hname hshort (by rw [hlocate, hthere])

end

end Scaffold.Disk
