import Scaffold.Proofs.Disk.Components
import Scaffold.Proofs.Output.Write

/-! Where generated files go. A path that is not refused goes inwards only (`under_of_location`), so that its file
    and the draft of it are found under the root by the names in the path (`locate_path`, `locate_draft`). -/

namespace Scaffold.Output
open Disk Scaffold.Path

/-! ### Paths that are not refused -/

theorem notUp_of_allNames {rel : String} (h : allNames (components rel) = true) :
    ¬IsAbsolute rel ∧ ['.', '.'] ∉ parts rel.toList := by
  have hrelative := relative_of_allNames h
  obtain ⟨first, others, hcut⟩ := List.exists_cons_of_ne_nil (Text.splitOn_ne_nil '/' rel.toList)
  obtain ⟨⟨hfirst, -⟩, hothers⟩ := (allNames_components_iff hrelative hcut).mp h
  refine ⟨hrelative, fun hmem => ?_⟩
  rw [parts, hcut] at hmem
  rcases List.mem_cons.mp (List.mem_filter.mp hmem).1 with heq | hmem
  · exact hfirst heq.symm
  · exact hothers hmem

/-- The path of a file under a root. -/
def pathFor (root moduleRoot : String) (file : GeneratedFile) : String := Path.join root (file.relativePath moduleRoot)

/-- The place of a file under a root. -/
def targetOf (root moduleRoot : String) (file : GeneratedFile) : Target :=
  ⟨file, file.relativePath moduleRoot, pathFor root moduleRoot file⟩

theorem target_eq_ok {root moduleRoot : String} {file : GeneratedFile} {t : Target}
    (h : target root moduleRoot file = .ok t) : t = targetOf root moduleRoot file ∧ t.Under root := by
  obtain ⟨path, hpath, heq⟩ := bind_eq_ok.mp h
  cases heq
  unfold location at hpath
  split at hpath
  · rename_i hcond
    cases hpath
    obtain ⟨hrelative, hinside⟩ := notUp_of_allNames (Bool.and_eq_true_iff.mp hcond).2
    exact ⟨rfl, rfl, hrelative, hinside⟩
  · cases hpath

theorem mapM_target_eq_ok {root moduleRoot : String} : ∀ {files : List GeneratedFile} {ts : List Target},
    files.mapM (target root moduleRoot) = .ok ts →
      ts = files.map (targetOf root moduleRoot) ∧ ∀ t ∈ ts, t.Under root
  | [], ts, h => by
    cases h
    simp
  | file :: files, ts, h => by
    rw [List.mapM_cons] at h
    obtain ⟨t, ht, h⟩ := bind_eq_ok.mp h
    obtain ⟨rest, hrest, h⟩ := bind_eq_ok.mp h
    cases h
    obtain ⟨rfl, hunder⟩ := target_eq_ok ht
    obtain ⟨rfl, hunders⟩ := mapM_target_eq_ok hrest
    exact ⟨rfl, List.forall_mem_cons.mpr ⟨hunder, hunders⟩⟩

/-! ### Locations under a root -/

/-- The location that names lead to. -/
def placeAt (loc : Location) (names : List String) : Location := names.reverse ++ loc

theorem walk_eq_placeAt : ∀ {ps : List (List Char)} {loc : Location}, (∀ p ∈ ps, p ≠ []) → ['.', '.'] ∉ ps →
    walk loc ps = placeAt loc (namesIn ps)
  | [], _, _, _ => rfl
  | p :: ps, loc, hne, hup => by
    obtain ⟨hp, hps⟩ := not_or.mp fun hmem => hup (List.mem_cons.mpr hmem)
    obtain ⟨hempty, hrest⟩ := List.forall_mem_cons.mp hne
    rw [walk_cons, walk_eq_placeAt hrest hps]
    by_cases hdot : p = ['.']
    · simp [hdot, namesIn]
    · rw [follow_of_name hempty (not_or.mpr ⟨hdot, fun h => hp h.symm⟩)]
      simp [placeAt, namesIn, hdot]

theorem placeAt_injective {loc : Location} {names names' : List String} (h : placeAt loc names = placeAt loc names') :
    names = names' :=
  List.reverse_inj.mp (List.append_cancel_right h)

theorem Target.Under.locate_eq {root : String} {t : Target} (h : t.Under root) (d : Disk) :
    d.locate t.path = placeAt (d.locate root) (namesIn (parts t.rel.toList)) := by
  have hne : ∀ p ∈ parts t.rel.toList, p ≠ [] := fun p hp => ne_nil_of_mem_parts hp
  rw [locate, h.parts_path, h.start_path, walk_append, walk_eq_placeAt hne h.inside]
  rfl

theorem Target.Under.locate_path {root : String} {t : Target} (h : t.Under root) {dir : List (List Char)}
    {base : List Char} (hends : Ends t.rel.toList dir base) (hname : ¬IsDots base) (d : Disk) :
    d.locate t.path = placeAt (d.locate root) (namesIn dir ++ [String.ofList base]) := by
  rw [h.locate_eq, hends.parts_eq, namesIn_append, namesIn_name hname]

theorem Target.Under.locate_draft {root : String} {t : Target} (h : t.Under root) {dir : List (List Char)}
    {base : List Char} (hends : Ends t.rel.toList dir base) (d : Disk) :
    d.locate (draftPath t.path) = placeAt (d.locate root) (namesIn dir ++ [String.ofList (base ++ draftEnd)]) := by
  have hpath : Ends t.path.toList (parts root.toList ++ dir) base := h.path ▸ hends.join h.relative
  have hdir : ∀ p ∈ dir, p ∈ parts t.rel.toList := fun p hp => by
    rw [hends.parts_eq]
    exact List.mem_append_left _ hp
  rw [locate_draftPath hpath, h.start_path, walk_append,
    walk_eq_placeAt (fun p hp => ne_nil_of_mem_parts (hdir p hp)) fun hmem => h.inside (hdir _ hmem)]
  simp [placeAt, locate]

end Scaffold.Output
