import Scaffold.Proofs.Disk.Earlier
import Scaffold.Proofs.Disk.Film

/-! Names on a disk. A disk that has come about by operations has only names that a path can spell (`Reached.named`),
    since whatever is made is made at the end of a path. So what stands at a location can be found there by the path that
    leads to it (`isDirectoryAt_of_get?`, `find_join`), unless that path is too long. -/

namespace Scaffold.Disk
open Scaffold.Path

/-- A name that an entry of a directory can have. -/
structure FileName (name : String) : Prop where
  noSlash : '/' ∉ name.toList
  noNul : '\x00' ∉ name.toList
  notEmpty : name ≠ ""
  notDots : ¬IsDots name.toList
  fits : name.utf8ByteSize ≤ maxNameSize

instance (name : String) : Decidable (FileName name) :=
  haveI : Decidable (IsDots name.toList) := inferInstanceAs (Decidable (_ ∨ _))
  decidable_of_iff ('/' ∉ name.toList ∧ '\x00' ∉ name.toList ∧ name ≠ "" ∧ ¬IsDots name.toList ∧
      name.utf8ByteSize ≤ maxNameSize)
    ⟨fun ⟨h1, h2, h3, h4, h5⟩ => ⟨h1, h2, h3, h4, h5⟩, fun ⟨h1, h2, h3, h4, h5⟩ => ⟨h1, h2, h3, h4, h5⟩⟩

/-- Every name of a location is that of an entry. -/
def NamesFiles (loc : Location) : Prop := ∀ name ∈ loc, FileName name

instance (loc : Location) : Decidable (NamesFiles loc) := List.decidableBAll _ loc

/-- Whatever stands on the disk has names that entries can have. -/
def Named (d : Disk) : Prop := ∀ loc, (d.get? loc).isSome → NamesFiles loc

section
variable {d d' : Disk} {path name : String} {loc : Location} {e : Entry}

/-! ### Disks that come about -/

theorem fileName_of_sound (h : Sound path) (hname : (aim path).2.1 = some name) : FileName name := by
  rcases List.eq_nil_or_concat (parts path.toList) with hnil | ⟨front, last, hlast⟩
  · simp [aim_of_parts_nil hnil] at hname
  rw [List.concat_eq_append] at hlast
  have hdots : ¬IsDots last := fun hdots => by simp [aim_of_dots hlast hdots] at hname
  have hmem : last ∈ parts path.toList := by simp [hlast]
  have hfits := h.nameFits name hname
  rw [aim_of_name hlast hdots, Option.some.injEq] at hname
  subst hname
  refine ⟨?_, ?_, by simpa using ne_nil_of_mem_parts hmem, by rwa [String.toList_ofList], hfits⟩
  · rw [String.toList_ofList]
    exact Text.notMem_of_mem_splitOn (List.mem_filter.mp hmem).1
  · rw [String.toList_ofList]
    intro hnul
    have hpath : '\x00' ∈ path.toList :=
      (Text.exists_mem_splitOn_iff (by decide)).mp ⟨last, (List.mem_filter.mp hmem).1, hnul⟩
    have hfree := h.noNul
    rw [List.contains_iff_mem.mpr hpath] at hfree
    cases hfree

theorem Named.locate (h : d.Named) (hopens : d.Opens path) : NamesFiles (d.locate path) := by
  have hdir : NamesFiles (walk (d.start path) (aim path).1) :=
    h _ (by rw [hopens.passes.isDirectory hopens.started]; rfl)
  rw [locate_eq_aim]
  cases hname : (aim path).2.1 with
  | none => exact hdir
  | some name => exact List.forall_mem_cons.mpr ⟨fileName_of_sound hopens.sound hname, hdir⟩

theorem Named.becomes {o : Option Entry} (h : d.Named) (hchange : Becomes d d' loc o) (hloc : o.isSome → NamesFiles loc) :
    d'.Named := by
  intro l hl
  rw [hchange.get?] at hl
  split at hl
  · next heq => exact heq ▸ hloc hl
  · exact h l hl

/-- A disk on which operations have been done, beginning with the empty disk. -/
inductive Reached : Disk → Prop
  | empty : Reached .empty
  | write {d d' : Disk} {path : String} {bytes : ByteArray} (hd : Reached d) (h : d.write path bytes = .ok d') : Reached d'
  | makeDir {d d' : Disk} {path : String} (hd : Reached d) (h : d.makeDir path = .ok d') : Reached d'
  | rename {d d' : Disk} {source target : String} (hd : Reached d) (h : d.rename source target = .ok d') : Reached d'
  | remove {d d' : Disk} {path : String} (hd : Reached d) (h : d.remove path = .ok d') : Reached d'
  | removeTree {d d' : Disk} {path : String} (hd : Reached d) (h : d.removeTree path = .ok d') : Reached d'
  | setMode {d d' : Disk} {path : String} {mode : Nat} (hd : Reached d) (h : d.setMode path mode = .ok d') : Reached d'

theorem named_empty : Named .empty := by
  intro loc hloc
  cases loc with
  | nil => exact List.forall_mem_nil _
  | cons name dir => cases hloc

theorem Reached.named (h : Reached d) : d.Named := by
  induction h with
  | empty => exact named_empty
  | write hd h ih =>
    obtain ⟨hholds, -, hchange⟩ := write_ok h
    exact ih.becomes hchange fun _ => ih.locate hholds.opens
  | makeDir hd h ih =>
    obtain ⟨hopens, -, hchange⟩ := makeDir_ok h
    exact ih.becomes hchange fun _ => ih.locate hopens
  | rename hd h ih =>
    obtain ⟨f, mid, -, htarget, -, hgone, hmoved⟩ := rename_ok h
    have hmid := ih.becomes hgone nofun
    exact hmid.becomes hmoved fun _ => ih.locate htarget.opens
  | remove hd h ih => exact ih.becomes (remove_ok h) nofun
  | removeTree hd h ih =>
    obtain ⟨r, -, heq⟩ := bind_eq_ok.mp h
    cases heq
    intro l hl
    rw [get?_removeInside] at hl
    split at hl
    · cases hl
    · exact ih l hl
  | @setMode d _ path mode hd h ih =>
    obtain ⟨r, hfind, -⟩ := bind_eq_ok.mp h
    rcases setMode_ok h with rfl | ⟨f, hchange⟩
    · exact ih
    · exact ih.becomes hchange fun _ => ih.locate (find_eq_ok.mp hfind).1

theorem named_of_entries (h : ∀ entry ∈ d.entries, NamesFiles entry.1) : d.Named := by
  intro loc hloc
  cases loc with
  | nil => exact List.forall_mem_nil _
  | cons name dir =>
    obtain ⟨e, he⟩ := Option.isSome_iff_exists.mp hloc
    have hlookup : d.entries.lookup (name :: dir) = some e := he
    obtain ⟨before, after, heq, -⟩ := List.lookup_eq_some_iff.mp hlookup
    exact h (name :: dir, e) (heq ▸ List.mem_append_right _ List.mem_cons_self)

/-! ### Finding what stands at a location -/

/-- Without climbing, every part of a path names a directory on its way, unless it is `.`. -/
theorem mem_walk {p : List Char} : ∀ {ps : List (List Char)} {loc : Location}, (∀ p ∈ ps, p ≠ []) → ['.', '.'] ∉ ps →
    p ∈ ps → p = ['.'] ∨ String.ofList p ∈ walk loc ps
  | q :: ps, loc, hne, hup, hp => by
    obtain ⟨hq, hrest⟩ := List.forall_mem_cons.mp hne
    obtain ⟨hqup, hups⟩ := not_or.mp fun hmem => hup (List.mem_cons.mpr hmem)
    rcases List.mem_cons.mp hp with rfl | hp
    · by_cases hdots : IsDots p
      · exact Or.inl (hdots.resolve_right fun h => hqup h.symm)
      · refine Or.inr ((suffix_walk hups).subset ?_)
        rw [follow_of_name hq hdots]
        exact List.mem_cons_self
    · have ih : p = ['.'] ∨ String.ofList p ∈ walk (follow loc q) ps := mem_walk hrest hups hp
      exact ih

theorem isDirectoryAt_iff : d.IsDirectoryAt path ↔
    Taken path ∧ d.get? (d.start path) = some .directory ∧ d.Passes (d.start path) (parts path.toList) := by
  constructor
  · rintro ⟨hopens, hdir⟩
    refine ⟨⟨hopens.sound.noNul, hopens.sound.notEmpty, hopens.sound.short⟩, hopens.started, ?_⟩
    have hpasses := hopens.passes
    rcases List.eq_nil_or_concat (parts path.toList) with hnil | ⟨front, last, hlast⟩
    · rw [hnil]
      trivial
    rw [List.concat_eq_append] at hlast
    by_cases hdots : IsDots last
    · rwa [aim_of_dots hlast hdots, ← hlast] at hpasses
    · have hname : (aim path).2.1 = some (String.ofList last) := by rw [aim_of_name hlast hdots]
      rw [aim_of_name hlast hdots] at hpasses
      rw [locate, hlast, walk_append] at hdir
      rw [hlast]
      exact passes_append.mpr ⟨hpasses, hopens.sound.nameFits _ hname, hdir, trivial⟩
  · rintro ⟨⟨hnul, hne, hshort⟩, hstarted, hpasses⟩
    refine ⟨⟨⟨hnul, hne, hshort, fun name hname => ?_⟩, hstarted, ?_⟩, hpasses.isDirectory hstarted⟩
    · rcases List.eq_nil_or_concat (parts path.toList) with hnil | ⟨front, last, hlast⟩
      · simp [aim_of_parts_nil hnil] at hname
      rw [List.concat_eq_append] at hlast
      have hdots : ¬IsDots last := fun hdots => by simp [aim_of_dots hlast hdots] at hname
      rw [aim_of_name hlast hdots, Option.some.injEq] at hname
      exact hname ▸ hpasses.fits last (by simp [hlast])
    · rcases List.eq_nil_or_concat (parts path.toList) with hnil | ⟨front, last, hlast⟩
      · rw [aim_of_parts_nil hnil]
        trivial
      rw [List.concat_eq_append] at hlast
      by_cases hdots : IsDots last
      · rw [aim_of_dots hlast hdots, ← hlast]
        exact hpasses
      · rw [aim_of_name hlast hdots]
        exact (passes_append.mp (hlast ▸ hpasses)).1

theorem isDirectoryAt_of_get? (h : d.Named) (hne : path ≠ "") (hshort : path.utf8ByteSize < maxPathSize)
    (hup : ['.', '.'] ∉ parts path.toList) (hdir : d.get? (d.locate path) = some .directory) : d.IsDirectoryAt path := by
  have hpieces : ∀ p ∈ parts path.toList, p ≠ [] := fun p hp => ne_nil_of_mem_parts hp
  have hsome : (d.get? (d.locate path)).isSome := by rw [hdir]; rfl
  -- every part of the path is `.` or the name of something on the disk
  have hfiles : ∀ p ∈ parts path.toList, p = ['.'] ∨ FileName (String.ofList p) := fun p hp =>
    (mem_walk hpieces hup hp).imp_right fun hmem => h _ hsome _ hmem
  have hfits : ∀ p ∈ parts path.toList, Fits p := fun p hp => by
    rcases hfiles p hp with rfl | hfile
    · unfold Fits
      decide
    · exact hfile.fits
  have hclimb : d.Climbs (d.start path) (parts path.toList) := fun front back heq => absurd (by simp [heq]) hup
  refine isDirectoryAt_iff.mpr ⟨⟨?_, by simpa using hne, hshort⟩, passes_of_climbs hclimb hdir hfits⟩
  refine Bool.eq_false_iff.mpr fun hnul => ?_
  have hslash : '\x00' ≠ '/' := by decide
  obtain ⟨p, hp, hmem⟩ := (Text.exists_mem_splitOn_iff hslash).mpr (List.contains_iff_mem.mp hnul)
  have hpart : p ∈ parts path.toList := List.mem_filter.mpr ⟨hp, by simpa using List.ne_nil_of_mem hmem⟩
  rcases hfiles p hpart with rfl | hfile
  · simp at hmem
  · exact hfile.noNul (by rwa [String.toList_ofList])

/-- What stands in a directory is found by its name, unless that makes the path too long. -/
theorem opens_join (h : d.IsDirectoryAt path) (hfile : FileName name)
    (hshort : (join path name).utf8ByteSize < maxPathSize) : d.Opens (join path name) := by
  have hends : Ends (join path name).toList (parts path.toList) name.toList := ends_join hfile.noSlash hfile.notEmpty
  have haim := aim_of_ends hends hfile.notDots
  have hstart : d.start (join path name) = d.start path :=
    start_of_isAbsolute_iff (isAbsolute_join fun habs => hfile.noSlash (List.mem_of_mem_head? habs))
  have hnul : '\x00' ∉ (join path name).toList := by
    have hpath : '\x00' ∉ path.toList := fun hmem => by
      have hfree := h.1.sound.noNul
      rw [List.contains_iff_mem.mpr hmem] at hfree
      cases hfree
    have hname := hfile.noNul
    unfold join
    split
    · exact hname
    · split <;> simp [hpath, hname]
  refine ⟨⟨Bool.eq_false_iff.mpr fun hmem => hnul (List.contains_iff_mem.mp hmem), hends.ne_nil, hshort,
    fun other hother => ?_⟩, hstart ▸ h.1.started, ?_⟩
  · rw [haim, Option.some.injEq, String.ofList_toList] at hother
    exact hother ▸ hfile.fits
  · rw [haim, hstart]
    exact (isDirectoryAt_iff.mp h).2.2

theorem find_join (h : d.IsDirectoryAt path) (hfile : FileName name)
    (hshort : (join path name).utf8ByteSize < maxPathSize) (hthere : d.get? (name :: d.locate path) = some e) :
    ∃ r, d.find (join path name) = .ok r ∧ r.entry = e := by
  have hends : Ends (join path name).toList (parts path.toList) name.toList := ends_join hfile.noSlash hfile.notEmpty
  have haim := aim_of_ends hends hfile.notDots
  refine exists_find_iff.mpr ⟨opens_join h hfile hshort, ?_, by simp [haim]⟩
  rwa [locate_join hfile.noSlash hfile.notEmpty hfile.notDots]

end

end Scaffold.Disk
