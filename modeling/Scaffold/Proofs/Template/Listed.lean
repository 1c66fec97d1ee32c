import Mathlib.Data.List.TakeDrop
import Mathlib.Data.List.TakeWhile
import Mathlib.Data.String.Basic
import Scaffold.Proofs.Disk.Tree
import Scaffold.Proofs.Template.Contained

/-! The templates that a directory is said to have (`idsIn_exact`). A search finds every file below a directory once
    (`filesIn_run`), in whatever order the entries come, and its last name tells whether it is a template. The names on
    the way with slashes between them are the identifier, which leads back to the file (`loadFrom_idOf`), unless a name
    has a backslash, which an identifier has as a slash; and a directory whose path is too long is not searched
    (`idsIn_inexact`). -/

namespace Scaffold.Template
open Disk Scaffold.Path Text

/-! ### Order -/

section
variable {texts others : List String}

theorem insertOrdered_perm (s : String) : ∀ texts : List String, (insertOrdered s texts).Perm (s :: texts)
  | [] => .refl _
  | t :: rest => by
    unfold insertOrdered
    split
    · exact .refl _
    · exact ((insertOrdered_perm s rest).cons t).trans (.swap s t rest)

theorem pairwise_insertOrdered (s : String) : ∀ {texts : List String}, texts.Pairwise (· ≤ ·) →
    (insertOrdered s texts).Pairwise (· ≤ ·)
  | [], _ => List.pairwise_singleton ..
  | t :: rest, h => by
    obtain ⟨ht, hrest⟩ := List.pairwise_cons.mp h
    unfold insertOrdered
    split
    · next hlt =>
      refine List.pairwise_cons.mpr ⟨List.forall_mem_cons.mpr ⟨hlt.le, fun u hu => ?_⟩, h⟩
      exact hlt.le.trans (ht u hu)
    · next hlt =>
      refine List.pairwise_cons.mpr ⟨fun u hu => ?_, pairwise_insertOrdered s hrest⟩
      rcases List.mem_cons.mp ((insertOrdered_perm s rest).mem_iff.mp hu) with rfl | hu
      · exact not_lt.mp hlt
      · exact ht u hu

theorem ordered_perm (texts : List String) : (ordered texts).Perm texts := by
  induction texts with
  | nil => exact .refl _
  | cons s texts ih => exact (insertOrdered_perm s _).trans (ih.cons s)

theorem pairwise_ordered (texts : List String) : (ordered texts).Pairwise (· ≤ ·) := by
  induction texts with
  | nil => exact .nil
  | cons s texts ih => exact pairwise_insertOrdered s ih

theorem ordered_of_perm (h : texts.Perm others) : ordered texts = ordered others :=
  List.Perm.eq_of_pairwise (fun _ _ _ _ => le_antisymm) (pairwise_ordered texts) (pairwise_ordered others)
    ((ordered_perm texts).trans (h.trans (ordered_perm others).symm))

end

/-! ### Files below a directory -/

namespace Store

/-- The search for files on a disk. -/
abbrev Collecting := StateM Disk (Except StoreError (List (List String)))

/-- The paths of the files below a directory that go there through some of its entries, each once. -/
structure Collected (d : Disk) (dir : Location) (inside : List String) (through : String → Prop)
    (paths : List (List String)) : Prop where
  nodup : paths.Nodup
  mem_iff : ∀ path, path ∈ paths ↔ ∃ name names f, through name ∧ path = inside ++ name :: names ∧
    d.get? (names.reverse ++ name :: dir) = some (.file f)

section
variable {d : Disk} {dir : Location} {inside : List String} {name : String} {found more : List (List String)}

theorem Collected.append {through others : String → Prop} (h : Collected d dir inside through found)
    (hmore : Collected d dir inside others more) (hapart : ∀ name, through name → ¬others name) :
    Collected d dir inside (fun name => through name ∨ others name) (found ++ more) where
  nodup := by
    refine h.nodup.append hmore.nodup fun path hfound hpath => ?_
    obtain ⟨name, names, -, hname, rfl, -⟩ := (h.mem_iff path).mp hfound
    obtain ⟨other, names', -, hother, heq, -⟩ := (hmore.mem_iff _).mp hpath
    obtain ⟨rfl, -⟩ := List.cons.inj (List.append_cancel_left heq)
    exact hapart _ hname hother
  mem_iff path := by
    rw [List.mem_append, h.mem_iff, hmore.mem_iff]
    constructor
    · rintro (⟨name, names, f, hname, hrest⟩ | ⟨name, names, f, hname, hrest⟩)
      · exact ⟨name, names, f, Or.inl hname, hrest⟩
      · exact ⟨name, names, f, Or.inr hname, hrest⟩
    · rintro ⟨name, names, f, hname | hname, hrest⟩
      · exact Or.inl ⟨name, names, f, hname, hrest⟩
      · exact Or.inr ⟨name, names, f, hname, hrest⟩

theorem eq_nil_of_file {f : File} (hfile : d.get? dir = some (.file f)) {names : List String} {e : Entry}
    (hthere : d.get? (names.reverse ++ dir) = some e) : names = [] := by
  refine Classical.byContradiction fun hne => ?_
  have hdir := isDirectory_of_suffix (List.suffix_append names.reverse dir) (by rw [hthere]; rfl) (by simpa using hne)
  rw [hfile] at hdir
  cases hdir

theorem collected_file {f : File} (hfile : d.get? (name :: dir) = some (.file f)) :
    Collected d dir inside (· = name) [inside ++ [name]] where
  nodup := List.nodup_singleton _
  mem_iff path := by
    rw [List.mem_singleton]
    constructor
    · rintro rfl
      exact ⟨name, [], f, rfl, rfl, hfile⟩
    · rintro ⟨_, names, f', rfl, rfl, hthere⟩
      rw [eq_nil_of_file hfile hthere]

theorem collected_directory (hdir : d.get? (name :: dir) = some .directory)
    (h : Collected d (name :: dir) (inside ++ [name]) (fun _ => True) found) :
    Collected d dir inside (· = name) found where
  nodup := h.nodup
  mem_iff path := by
    rw [h.mem_iff]
    constructor
    · rintro ⟨next, names, f, -, rfl, hthere⟩
      exact ⟨name, next :: names, f, rfl, by simp, by simpa using hthere⟩
    · rintro ⟨_, names, f, rfl, rfl, hthere⟩
      cases names with
      | nil =>
        rw [List.reverse_nil, List.nil_append, hdir] at hthere
        cases hthere
      | cons next names => exact ⟨next, names, f, trivial, by simp, by simpa using hthere⟩

theorem filesOf_run {path : String} {deeper : String → List String → Collecting}
    (hdeeper : ∀ name, d.get? (name :: dir) = some .directory → ∃ found,
      deeper (join path name) (inside ++ [name]) d = (.ok found, d) ∧
        Collected d (name :: dir) (inside ++ [name]) (fun _ => True) found) :
    ∀ {entries : List (String × EntryKind)}, (entries.map Prod.fst).Nodup →
      (∀ x ∈ entries, ∃ e, d.get? (x.1 :: dir) = some e ∧ x.2 = kindOf e) →
      ∃ paths, filesOf deeper path inside entries d = (.ok paths, d) ∧
        Collected d dir inside (· ∈ entries.map Prod.fst) paths
  | [], _, _ => ⟨[], rfl, List.nodup_nil, by simp⟩
  | (name, kind) :: entries, hnodup, hentries => by
    rw [List.map_cons, List.nodup_cons] at hnodup
    obtain ⟨⟨e, hthere, hkind⟩, hrest⟩ := List.forall_mem_cons.mp hentries
    dsimp only at hthere hkind hnodup
    obtain ⟨more, hrun, hmore⟩ := filesOf_run hdeeper hnodup.2 hrest
    obtain ⟨found, hall, hfound⟩ : ∃ found,
        filesOf deeper path inside ((name, kind) :: entries) d = (.ok (found ++ more), d) ∧
          Collected d dir inside (· = name) found := by
      unfold filesOf
      cases e with
      | file f =>
        refine ⟨_, ?_, collected_file hthere⟩
        simp only [hkind, kindOf, bind_run, pure_run, hrun]
      | directory =>
        obtain ⟨found, hfirst, hfound⟩ := hdeeper name hthere
        refine ⟨found, ?_, collected_directory hthere hfound⟩
        simp only [hkind, kindOf, bind_run, pure_run, hfirst, hrun]
    refine ⟨found ++ more, hall, ?_⟩
    have happend := hfound.append hmore fun _ heq hmem => hnodup.1 (heq ▸ hmem)
    simpa only [List.map_cons, List.mem_cons] using happend

theorem listing_run {path : String} (h : d.IsDirectoryAt path) : ∃ entries : List (String × EntryKind),
    (Listing.list path : StateM Disk (Except Disk.Failure (List (String × EntryKind)))) d = (.ok entries, d) ∧
      (entries.map Prod.fst).Nodup ∧ (∀ x ∈ entries, ∃ e, d.get? (x.1 :: d.locate path) = some e ∧ x.2 = kindOf e) ∧
      ∀ name e, d.get? (name :: d.locate path) = some e → name ∈ entries.map Prod.fst := by
  obtain ⟨entries, hlist, hentries⟩ := list_of_isDirectoryAt h
  have hnames : (entries.map fun x => (x.1, kindOf x.2)).map Prod.fst = entries.map Prod.fst := by
    rw [List.map_map]
    rfl
  refine ⟨entries.map fun x => (x.1, kindOf x.2), ?_, hnames ▸ hentries.nodup,
    List.forall_mem_map.mpr fun x hx => ⟨x.2, (hentries.mem_iff x.1 x.2).mp hx, rfl⟩, fun name e he => ?_⟩
  · simp only [Listing.list, ask, hlist]
    rfl
  · rw [hnames]
    exact List.mem_map.mpr ⟨(name, e), (hentries.mem_iff name e).mpr he, rfl⟩

/-- Every directory below a path has a path that is not too long. -/
def Reachable (d : Disk) (path : String) : Prop :=
  ∀ names : List String, d.get? (names.reverse ++ d.locate path) = some .directory →
    (pathBelow path names).utf8ByteSize < maxPathSize

/-- All files below a directory are found, since directories are not deeper inside each other than their paths are
    long. -/
theorem filesIn_run (hnamed : d.Named) : ∀ (depth : Nat) {path : String} {inside : List String}, d.IsDirectoryAt path →
    Reachable d path → maxPathSize ≤ depth + path.utf8ByteSize → ∃ paths,
      (filesIn depth path inside : Collecting) d = (.ok paths, d) ∧
        Collected d (d.locate path) inside (fun _ => True) paths
  | 0, path, _, hpath, _, hdepth => by
    have hshort := hpath.1.sound.short
    omega
  | depth + 1, path, inside, hpath, hreach, hdepth => by
    have hdeeper : ∀ name, d.get? (name :: d.locate path) = some .directory → ∃ found,
        (filesIn depth (join path name) (inside ++ [name]) : Collecting) d = (.ok found, d) ∧
          Collected d (name :: d.locate path) (inside ++ [name]) (fun _ => True) found := fun name hthere => by
      have hfile := hnamed.fileName hthere name List.mem_cons_self
      have hlocate : d.locate (join path name) = name :: d.locate path :=
        locate_join hfile.noSlash hfile.notEmpty hfile.notDots
      have hopens := opens_join hpath hfile (hreach [name] hthere)
      have hlonger := size_join hfile path
      rw [← hlocate]
      refine filesIn_run hnamed depth ⟨hopens, by rw [hlocate, hthere]⟩ (fun names hnames => ?_) (by omega)
      rw [hlocate] at hnames
      exact hreach (name :: names) (by simpa using hnames)
    obtain ⟨entries, hlist, hnodup, hkinds, hall⟩ := listing_run hpath
    obtain ⟨paths, hrun, hpaths⟩ := filesOf_run hdeeper hnodup hkinds
    refine ⟨paths, ?_, hpaths.nodup, fun p => ?_⟩
    · unfold filesIn
      rw [bind_run, hlist]
      exact hrun
    · rw [hpaths.mem_iff]
      refine exists_congr fun name => exists_congr fun names => exists_congr fun f => ?_
      refine and_congr_left fun ⟨_, hthere⟩ => ⟨fun _ => trivial, fun _ => ?_⟩
      -- a file stands in one of the entries, or is one
      by_cases heq : names = []
      · exact hall name (.file f) (by simpa [heq] using hthere)
      · have hsuffix : name :: d.locate path <:+ names.reverse ++ name :: d.locate path := List.suffix_append ..
        exact hall name _ (isDirectory_of_suffix hsuffix (by rw [hthere]; rfl) (by simpa using heq))

end

end Store

/-! ### Templates -/

theorem extension?_eq_some {name ext : List Char} :
    extension? name = some ext ↔ '.' ∉ ext ∧ ∃ stem, stem ≠ [] ∧ name = stem ++ '.' :: ext := by
  unfold extension?
  rw [List.span_eq_takeWhile_dropWhile]
  constructor
  · intro h
    have hwhole := List.takeWhile_append_dropWhile (p := (decide <| · ≠ '.')) (l := name.reverse)
    have hending : '.' ∉ name.reverse.takeWhile (decide <| · ≠ '.') := fun hmem => by
      simpa using List.mem_takeWhile_imp hmem
    have hpoint := List.head?_dropWhile_not (decide <| · ≠ '.') name.reverse
    generalize name.reverse.takeWhile (decide <| · ≠ '.') = ending at h hwhole hending
    generalize name.reverse.dropWhile (decide <| · ≠ '.') = rest at h hwhole hpoint
    split at h
    · next _ point c rest heq =>
      obtain ⟨rfl, rfl⟩ := Prod.mk.inj heq
      obtain rfl : point = '.' := by simpa using hpoint
      cases h
      refine ⟨by simpa using hending, (c :: rest).reverse, by simp, ?_⟩
      rw [← List.reverse_reverse name, ← hwhole]
      simp
    · cases h
  · rintro ⟨hext, stem, hstem, rfl⟩
    obtain ⟨c, rest, hrest⟩ := List.exists_cons_of_ne_nil (List.reverse_ne_nil_iff.mpr hstem)
    have hkept : ∀ x ∈ ext.reverse, decide (x ≠ '.') = true := fun x hx => by
      simpa using fun heq : x = '.' => hext (heq ▸ List.mem_reverse.mp hx)
    have hname : (stem ++ '.' :: ext).reverse = ext.reverse ++ '.' :: c :: rest := by simp [hrest]
    rw [hname, List.takeWhile_append_of_pos hkept, List.dropWhile_append_of_pos hkept]
    simp

namespace Store

theorem isTemplate_iff {path : List String} :
    isTemplate path = true ↔ ∃ front stem, stem ≠ "" ∧ path = front ++ [stem ++ ".tera"] := by
  have hext : '.' ∉ templateExtension := by decide
  unfold isTemplate
  constructor
  · intro h
    split at h
    · next name hlast =>
      obtain ⟨-, stem, hstem, hname⟩ := extension?_eq_some.mp (of_decide_eq_true h)
      obtain ⟨front, rfl⟩ := List.getLast?_eq_some_iff.mp hlast
      refine ⟨front, String.ofList stem, by simpa using hstem, ?_⟩
      rw [← String.ofList_toList (s := name), hname, String.ofList_append]
      rfl
    · cases h
  · rintro ⟨front, stem, hstem, rfl⟩
    rw [List.getLast?_concat]
    refine decide_eq_true (extension?_eq_some.mpr ⟨hext, stem.toList, by simpa using hstem, ?_⟩)
    rw [String.toList_append]
    rfl

theorem normalId_normalId (id : String) : normalId (normalId id) = normalId id := by
  unfold normalId
  rw [String.toList_ofList, List.map_map]
  congr 2
  funext c
  by_cases hc : c = '\\' <;> simp [hc]

/-- The identifier of a template, by the names that lead to it. -/
def idOf (path : List String) : String := normalId ("/".intercalate path)

/-- The file of a template below a directory, by the names that lead to it. -/
def TemplateAt (d : Disk) (root : String) (path : List String) (f : File) : Prop :=
  d.get? (path.reverse ++ d.locate root) = some (.file f) ∧ ∃ front stem, stem ≠ "" ∧ path = front ++ [stem ++ ".tera"]

/-- What the templates in a directory are listed as from a disk. -/
def listFrom (root : String) (d : Disk) : Except StoreError (List String) :=
  ((idsIn root : StateM Disk (Except StoreError (List String))) d).1

section
variable {d d' : Disk} {root : String} {path other : List String} {f g : File}

theorem idsIn_run (hnamed : d.Named) (hroot : d.IsDirectoryAt root) (hreach : Reachable d root) :
    ∃ paths : List (List String), listFrom root d = .ok (ordered (paths.map idOf)) ∧ paths.Nodup ∧
      ∀ path, path ∈ paths ↔ ∃ f, TemplateAt d root path f := by
  obtain ⟨paths, hrun, hpaths⟩ := @filesIn_run d hnamed maxDepth root [] hroot hreach (Nat.le_add_right ..)
  obtain ⟨there, hthere, hiff⟩ := Output.isThere_run root d
  obtain rfl : there = true := hiff.mpr ⟨_, find_of_isDirectoryAt hroot⟩
  refine ⟨paths.filter isTemplate, ?_, hpaths.nodup.filter _, fun path => ?_⟩
  · unfold listFrom idsIn
    simp only [bind_run, hthere, Bool.not_true, Bool.false_eq_true, ↓reduceIte, hrun]
    rfl
  · rw [List.mem_filter, hpaths.mem_iff, isTemplate_iff]
    constructor
    · rintro ⟨⟨name, names, f, -, rfl, hfile⟩, htemplate⟩
      exact ⟨f, by simpa using hfile, htemplate⟩
    · rintro ⟨f, hfile, front, stem, hstem, rfl⟩
      obtain ⟨name, names, hnames⟩ := List.exists_cons_of_ne_nil (List.concat_ne_nil (stem ++ ".tera") front)
      exact ⟨⟨name, names, f, trivial, hnames, by simpa [hnames] using hfile⟩, front, stem, hstem, rfl⟩

/-- A path without backslashes. -/
def Straight (path : List String) : Prop := ∀ name ∈ path, '\\' ∉ name.toList

theorem TemplateAt.ne_nil (h : TemplateAt d root path f) : path ≠ [] := by
  obtain ⟨-, front, stem, -, rfl⟩ := h
  simp

theorem TemplateAt.fileNames (h : TemplateAt d root path f) (hnamed : d.Named) : ∀ name ∈ path, FileName name :=
  fun name hname => hnamed.fileName h.1 name (List.mem_append_left _ (List.mem_reverse.mpr hname))

theorem idOf_eq (hne : path ≠ []) (hfiles : ∀ name ∈ path, FileName name) (h : Straight path) :
    idOf path = "/".intercalate path := by
  have hfree : '\\' ∉ ("/".intercalate path).toList := fun hmem => by
    have hslash : '\\' ≠ '/' := by decide
    obtain ⟨piece, hpiece, hmem⟩ := (exists_mem_splitOn_iff hslash).mpr hmem
    rw [splitOn_intercalate hne fun name hname => (hfiles name hname).noSlash] at hpiece
    obtain ⟨name, hname, rfl⟩ := List.mem_map.mp hpiece
    exact h name hname hmem
  have hsame : ∀ c ∈ ("/".intercalate path).toList, (if c = '\\' then '/' else c) = c := fun c hc =>
    if_neg fun heq : c = '\\' => hfree (heq ▸ hc)
  rw [idOf, normalId, List.map_congr_left hsame, List.map_id', String.ofList_toList]

theorem idOf_injective (hne : path ≠ []) (hfiles : ∀ name ∈ path, FileName name) (h : Straight path) (hne' : other ≠ [])
    (hfiles' : ∀ name ∈ other, FileName name) (h' : Straight other) (heq : idOf path = idOf other) : path = other := by
  rw [idOf_eq hne hfiles h, idOf_eq hne' hfiles' h'] at heq
  have hsplit := splitOn_intercalate hne fun name hname => (hfiles name hname).noSlash
  rw [heq, splitOn_intercalate hne' fun name hname => (hfiles' name hname).noSlash] at hsplit
  exact (List.map_injective_iff.mpr fun _ _ h => String.toList_inj.mp h) hsplit.symm

theorem loadFrom_idOf (hnamed : d.Named) (hroot : d.IsDirectoryAt root) (h : TemplateAt d root path f)
    (hstraight : Straight path) (hshort : (pathBelow root path).utf8ByteSize < maxPathSize) :
    loadFrom root (idOf path) d =
      (decode? f.bytes).elim (.error (.io (idOf path) (pathBelow root path) .notText)) .ok := by
  have hfiles := h.fileNames hnamed
  have hid := idOf_eq h.ne_nil hfiles hstraight
  have hagain : normalId (idOf path) = idOf path := normalId_normalId _
  have hinside : staysInside (normalId (idOf path)) = true := by
    rw [hagain, hid, staysInside_iff, splitOn_intercalate h.ne_nil fun name hname => (hfiles name hname).noSlash]
    refine ⟨not_isAbsolute_intercalate h.ne_nil hfiles, fun hmem => ?_⟩
    obtain ⟨name, hname, heq⟩ := List.mem_map.mp hmem
    exact (hfiles name hname).notDots (Or.inr heq)
  obtain ⟨r, hfind, hentry⟩ := find_pathBelow hnamed hroot h.ne_nil h.1 hshort
  have hpath : join root (normalId (idOf path)) = pathBelow root path := by
    rw [hagain, hid, pathBelow_eq_join h.ne_nil hfiles]
  rw [loadFrom, ofDirectory_run, if_pos hinside, hpath, hagain, read_of_file hfind hentry, answerFor]
  cases decode? f.bytes <;> rfl

/-- A listing does not depend on the order in which the disk has its entries. -/
theorem listFrom_of_get? (hnamed : d.Named) (hroot : d.IsDirectoryAt root) (hreach : Reachable d root)
    (hcurrent : d'.current = d.current) (hsame : ∀ loc, d'.get? loc = d.get? loc) : listFrom root d' = listFrom root d := by
  have hlocate : d'.locate root = d.locate root := locate_of_current hcurrent root
  have hkeeps : Keeps d d' := ⟨hcurrent, fun loc hloc => (hsame loc).trans hloc⟩
  have hnamed' : d'.Named := fun loc hloc => hnamed loc (hsame loc ▸ hloc)
  have hreach' : Reachable d' root := fun names hnames => hreach names (by rwa [hlocate, hsame] at hnames)
  obtain ⟨paths, hrun, hnodup, hmem⟩ := idsIn_run hnamed hroot hreach
  obtain ⟨paths', hrun', hnodup', hmem'⟩ := idsIn_run hnamed' (hroot.keep hkeeps) hreach'
  have hperm : paths'.Perm paths := (List.perm_ext_iff_of_nodup hnodup' hnodup).mpr fun path => by
    rw [hmem', hmem]
    simp only [TemplateAt, hlocate, hsame]
  rw [hrun, hrun', ordered_of_perm (hperm.map idOf)]

end

/-- What a listing of the templates in a directory has to be. -/
structure Listed (d : Disk) (root : String) (ids : List String) : Prop where
  ordered : ids.Pairwise (· ≤ ·)
  /-- There is one identifier for each template and no other. -/
  each : ∃ paths : List (List String), paths.Nodup ∧ (∀ path, path ∈ paths ↔ ∃ f, TemplateAt d root path f) ∧
    ids.Perm (paths.map idOf)
  strict : (∀ path other f g, TemplateAt d root path f → TemplateAt d root other g → idOf path = idOf other →
    path = other) → ids.Pairwise (· < ·)
  /-- Only a backslash can make two templates share an identifier. -/
  apart : ∀ path other f g, TemplateAt d root path f → TemplateAt d root other g → Straight path → Straight other →
    idOf path = idOf other → path = other
  loads : ∀ path f, TemplateAt d root path f → Straight path → (pathBelow root path).utf8ByteSize < maxPathSize →
    idOf path = "/".intercalate path ∧
    loadFrom root (idOf path) d =
      (decode? f.bytes).elim (.error (.io (idOf path) (pathBelow root path) .notText)) .ok
  unordered : ∀ d' : Disk, d'.current = d.current → (∀ loc, d'.get? loc = d.get? loc) → listFrom root d' = .ok ids

/-- The templates in a directory are listed in order, each once, and what is listed can be loaded. -/
theorem idsIn_exact {d : Disk} {root : String} (hnamed : d.Named) {r : Found d} (hfind : d.find root = .ok r)
    (hdir : r.entry = .directory) (hreach : Reachable d root) :
    ∃ ids, listFrom root d = .ok ids ∧ Listed d root ids := by
  have hroot : d.IsDirectoryAt root := by
    obtain ⟨hopens, hlocation, -⟩ := find_eq_ok.mp hfind
    exact ⟨hopens, by rw [← hlocation, r.here, hdir]⟩
  obtain ⟨paths, hrun, hnodup, hmem⟩ := idsIn_run hnamed hroot hreach
  refine ⟨_, hrun, pairwise_ordered _, ⟨paths, hnodup, hmem, ordered_perm _⟩, fun hapart => ?_,
    fun path other f g hf hg hstraight hstraight' heq => ?_, fun path f h hstraight hshort => ?_,
    fun d' hcurrent hsame => ?_⟩
  · have hids : (paths.map idOf).Nodup := by
      refine List.Nodup.map_on (fun path hpath other hother heq => ?_) hnodup
      obtain ⟨f, hf⟩ := (hmem path).mp hpath
      obtain ⟨g, hg⟩ := (hmem other).mp hother
      exact hapart path other f g hf hg heq
    have hdifferent : (Template.ordered (paths.map idOf)).Nodup := (ordered_perm _).nodup_iff.mpr hids
    exact ((pairwise_ordered _).and hdifferent).imp fun h => lt_of_le_of_ne h.1 h.2
  · exact idOf_injective hf.ne_nil (hf.fileNames hnamed) hstraight hg.ne_nil (hg.fileNames hnamed) hstraight' heq
  · exact ⟨idOf_eq h.ne_nil (h.fileNames hnamed) hstraight, loadFrom_idOf hnamed hroot h hstraight hshort⟩
  · rw [listFrom_of_get? hnamed hroot hreach hcurrent hsame, hrun]

/-! ### Samples -/

/-- It is enough that the paths of the entries of a disk are short. -/
theorem reachable_of_entries {d : Disk} {root : String} (hroot : root.utf8ByteSize < maxPathSize)
    (h : ∀ entry ∈ d.entries, ∀ n ∈ List.range (entry.1.length + 1),
      (pathBelow root (entry.1.take n).reverse).utf8ByteSize < maxPathSize) : Reachable d root := by
  intro names hthere
  by_cases hempty : names = []
  · simpa [hempty, pathBelow] using hroot
  obtain ⟨name, dir, hlocation⟩ := List.exists_cons_of_ne_nil (l := names.reverse ++ d.locate root) (by simp [hempty])
  have htake : (name :: dir).take names.length = names.reverse := by
    rw [← hlocation, List.take_left' (List.length_reverse ..)]
  have hlookup : d.entries.lookup (name :: dir) = some .directory := by
    rw [← hlocation]
    rw [hlocation] at hthere ⊢
    exact hthere
  obtain ⟨before, after, heq, -⟩ := List.lookup_eq_some_iff.mp hlookup
  have hlength : names.length ∈ List.range ((name :: dir).length + 1) := by
    rw [← hlocation, List.mem_range, List.length_append, List.length_reverse]
    omega
  have hshort := h (name :: dir, .directory) (heq ▸ List.mem_append_right _ List.mem_cons_self) names.length hlength
  rwa [htake, List.reverse_reverse] at hshort

/-- A disk with templates and other files in a directory. -/
def templateDisk : Disk := Output.diskOf [("t/sub/b.tera", "inner", false), ("t/a.tera", "outer", false),
  ("t/.tera", "none", false), ("u.tera", "outside", false)]

theorem idsIn_exact_sample : listFrom "t" templateDisk = .ok ["a.tera", "sub/b.tera"] ∧
    ∃ ids, listFrom "t" templateDisk = .ok ids ∧ Listed templateDisk "t" ids := by
  have hnamed : templateDisk.Named := named_of_entries (by decide +kernel)
  have hreach : Reachable templateDisk "t" := reachable_of_entries (by decide +kernel) (by decide +kernel)
  have hentry : (templateDisk.find "t").toOption.map (·.entry) = some .directory := by decide +kernel
  obtain ⟨r, hr, hdir⟩ := Option.map_eq_some_iff.mp hentry
  exact ⟨eq_ok_of_toOption (by decide +kernel), idsIn_exact hnamed (eq_ok_of_toOption hr) hdir hreach⟩

/-- A path that says a number of times to stay. -/
def detour : Nat → String
  | 0 => "t"
  | n + 1 => detour n ++ "/."

theorem size_detour : ∀ n : Nat, (detour n).utf8ByteSize = 2 * n + 1
  | 0 => rfl
  | n + 1 => by
    have hstep : ("/." : String).utf8ByteSize = 2 := rfl
    rw [detour, String.utf8ByteSize_append, size_detour n, hstep]
    omega

theorem parts_detour : ∀ n : Nat, parts (detour n).toList = ['t'] :: List.replicate n ['.']
  | 0 => rfl
  | n + 1 => by
    have htext : (detour (n + 1)).toList = (detour n).toList ++ '/' :: ['.'] := String.toList_append ..
    rw [htext, parts_append_cons, parts_detour n, List.replicate_succ']
    rfl

theorem passes_stay (d : Disk) {loc : Location} (h : d.get? loc = some .directory) : ∀ n : Nat,
    d.Passes loc (List.replicate n ['.']) ∧ walk loc (List.replicate n ['.']) = loc
  | 0 => ⟨trivial, rfl⟩
  | n + 1 => by
    have hfits : Disk.Fits ['.'] := by
      unfold Disk.Fits
      decide
    rw [List.replicate_succ, Passes, walk_cons, follow_here]
    exact ⟨⟨hfits, h, (passes_stay d h n).1⟩, (passes_stay d h n).2⟩

theorem exists_detour_eq : ∀ n : Nat, ∃ rest, (detour n).toList = 't' :: rest ∧ '\x00' ∉ rest
  | 0 => ⟨[], rfl, List.not_mem_nil⟩
  | n + 1 => by
    obtain ⟨rest, hrest, hnul⟩ := exists_detour_eq n
    exact ⟨rest ++ ['/', '.'], by rw [detour, String.toList_append, hrest]; rfl, by simp [hnul]⟩

theorem isDirectoryAt_detour {d : Disk} (hcurrent : d.current = []) (h : d.get? ["t"] = some .directory) {n : Nat}
    (hshort : 2 * n + 1 < maxPathSize) : d.IsDirectoryAt (detour n) ∧ d.locate (detour n) = ["t"] := by
  obtain ⟨rest, hrest, hnul⟩ := exists_detour_eq n
  have hstart : d.start (detour n) = [] := by
    rw [start, hrest, List.head?_cons, if_neg (by decide), hcurrent]
  have hpasses : d.Passes [] (parts (detour n).toList) := by
    rw [parts_detour]
    exact ⟨by unfold Disk.Fits; decide, h, (passes_stay d h n).1⟩
  have hlocate : d.locate (detour n) = ["t"] := by
    rw [locate, hstart, parts_detour]
    exact (passes_stay d h n).2
  refine ⟨isDirectoryAt_iff.mpr ⟨⟨?_, by simp [hrest], by rw [size_detour]; exact hshort⟩, ?_, ?_⟩, hlocate⟩
  · rw [hrest]
    exact Bool.eq_false_iff.mpr fun hmem => hnul (by simpa using hmem)
  · rw [hstart]
    exact d.get?_root
  · rw [hstart]
    exact hpasses

/-- A disk with a single directory in another. -/
def nestedDisk : Disk := Output.diskOf [("t/templates/b.tera", "inner", false)]

theorem list_detour {n : Nat} (hshort : 2 * n + 1 < maxPathSize) :
    nestedDisk.list (detour n) = .ok [("templates", .directory)] := by
  have hthere : nestedDisk.get? ["t"] = some .directory := by decide +kernel
  obtain ⟨hdir, hlocate⟩ := isDirectoryAt_detour (d := nestedDisk) (by decide +kernel) hthere hshort
  obtain ⟨hdir', hlocate'⟩ := isDirectoryAt_detour (d := nestedDisk) (by decide +kernel) hthere (n := 0) (by decide)
  have hfound : nestedDisk.find (detour n) = nestedDisk.find "t" := by
    have hstraight : nestedDisk.find "t" = .ok ⟨nestedDisk.locate "t", .directory, hdir'.2⟩ :=
      find_of_isDirectoryAt hdir'
    rw [find_of_isDirectoryAt hdir, hstraight]
    exact congrArg _ (Found.ext (hlocate.trans hlocate'.symm) rfl)
  have hstraight : nestedDisk.list "t" = .ok [("templates", .directory)] := eq_ok_of_toOption (by decide +kernel)
  unfold list at hstraight ⊢
  rw [hfound, hstraight]

theorem listFrom_detour {n : Nat} (hshort : 2 * n + 1 < maxPathSize) (hlong : maxPathSize ≤ 2 * n + 10) :
    ∃ e, listFrom (detour n) nestedDisk = .error e := by
  have hthere : nestedDisk.get? ["t"] = some .directory := by decide +kernel
  obtain ⟨hdir, -⟩ := isDirectoryAt_detour (d := nestedDisk) (by decide +kernel) hthere hshort
  have hfile : FileName "templates" := by decide +kernel
  have hrefused : ¬Taken (join (detour n) "templates") := fun htaken => by
    have hsize := htaken.2.2
    have hname : ("templates" : String).utf8ByteSize = 9 := rfl
    have hleader := size_leader (detour n)
    rw [join_of_relative hfile.relative, String.utf8ByteSize_append, hname] at hsize
    rw [size_detour] at hleader
    omega
  obtain ⟨e, herror⟩ := place_error_of_not_taken hrefused
  have hinner : nestedDisk.list (join (detour n) "templates") = .error e := by
    unfold list
    rw [find_of_place_error (herror _)]
    rfl
  obtain ⟨k, hk⟩ : ∃ k, maxDepth = k + 2 := ⟨4094, rfl⟩
  obtain ⟨there, hrun, hiff⟩ := Output.isThere_run (detour n) nestedDisk
  obtain rfl : there = true := hiff.mpr ⟨_, find_of_isDirectoryAt hdir⟩
  refine ⟨.io "" (join (detour n) "templates") e, ?_⟩
  unfold listFrom idsIn
  rw [hk]
  simp only [bind_run, hrun, Bool.not_true, Bool.false_eq_true, ↓reduceIte, filesIn, Listing.list, ask,
    list_detour hshort, hinner, filesOf, Except.map, List.map_cons, List.map_nil, kindOf]
  rfl

/-- A disk with a template that has a backslash in its name. -/
def slashedDisk : Disk := Output.diskOf [("t/a\\b.tera", "one", false)]

/-- Not all templates are listed by their own paths, or at all: a backslash in a name is listed as a slash, which leads
    elsewhere, and a directory whose path is too long is not read. -/
theorem idsIn_inexact :
    (slashedDisk.Named ∧ slashedDisk.IsDirectoryAt "t" ∧ listFrom "t" slashedDisk = .ok ["a/b.tera"] ∧
      loadFrom "t" "a/b.tera" slashedDisk = .error (.notFound "a/b.tera")) ∧
    (nestedDisk.Named ∧ nestedDisk.IsDirectoryAt (detour 2045) ∧ ∃ e, listFrom (detour 2045) nestedDisk = .error e) := by
  have hslashed : slashedDisk.get? ["t"] = some .directory := by decide +kernel
  have hnested : nestedDisk.get? ["t"] = some .directory := by decide +kernel
  refine ⟨⟨named_of_entries (by decide +kernel), ?_, eq_ok_of_toOption (by decide +kernel), ?_⟩,
    named_of_entries (by decide +kernel), ?_, listFrom_detour (by decide) (by decide)⟩
  · exact (isDirectoryAt_detour (by decide +kernel) hslashed (n := 0) (by decide)).1
  · rfl
  · exact (isDirectoryAt_detour (by decide +kernel) hnested (by decide)).1

end Store

end Scaffold.Template
