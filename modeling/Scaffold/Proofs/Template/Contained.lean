import Scaffold.Proofs.Disk.Below
import Scaffold.Proofs.Output.Target
import Scaffold.Template.Directory

/-! A store of templates in a directory stays in it (`ofDirectory_contained`). An identifier that could lead out is
    refused before anything is read, whatever separators and points it is spelled with, since it is brought into normal
    form first. For any other one path is read, which leads inwards from the directory; what it answers is decided below
    that (`read_below`). -/

namespace Scaffold.Template
open Disk Scaffold.Path Text

/-- An identifier that could lead out of a directory: in normal form it begins at the root or climbs. -/
def Escapes (id : String) : Prop := IsAbsolute (normalId id) ∨ ['.', '.'] ∈ splitOn '/' (normalId id).toList

/-- The segments of an identifier that mean something. -/
def segments (id : String) : List String :=
  ((splitOn '/' (normalId id).toList).filter fun piece => piece ≠ [] ∧ piece ≠ ['.']).map String.ofList

/-! ### Identifiers -/

/-- A component that leads inwards, or nowhere. -/
def inward : Component → Bool
  | .name _ | .here => true
  | _ => false

theorem all_inward_component? (first : Bool) (piece : List Char) :
    (component? first piece).toList.all inward = true ↔ piece ≠ ['.', '.'] := by
  by_cases hempty : piece = []
  · simp [hempty, component?]
  by_cases hhere : piece = ['.']
  · cases first <;> simp [hhere, component?, inward]
  by_cases hup : piece = ['.', '.']
  · simp [hup, component?, inward]
  · simp [component?, hempty, hhere, hup, inward]

theorem all_inward_filterMap (first : Bool) : ∀ pieces : List (List Char),
    (pieces.filterMap (component? first)).all inward = true ↔ ['.', '.'] ∉ pieces
  | [] => by simp
  | piece :: pieces => by
    have hcut : (piece :: pieces).filterMap (component? first) =
        (component? first piece).toList ++ pieces.filterMap (component? first) := by
      cases hc : component? first piece <;> simp [hc]
    rw [hcut, List.all_append, Bool.and_eq_true, all_inward_component?, all_inward_filterMap first pieces, List.mem_cons,
      not_or]
    simp [eq_comm]

theorem staysInside_iff {id : String} :
    staysInside id = true ↔ ¬IsAbsolute id ∧ ['.', '.'] ∉ splitOn '/' id.toList := by
  have hall : staysInside id = (components id).all inward := rfl
  rw [hall]
  by_cases habs : IsAbsolute id
  · obtain ⟨rest, hrest⟩ := List.head?_eq_some_iff.mp habs
    rw [components_of_absolute hrest]
    simp [habs, inward]
  · obtain ⟨first, others, hcut⟩ := List.exists_cons_of_ne_nil (splitOn_ne_nil '/' id.toList)
    rw [components_of_relative habs hcut, List.all_append, Bool.and_eq_true, all_inward_component?, all_inward_filterMap,
      hcut, List.mem_cons, not_or]
    simp [habs, eq_comm]

theorem staysInside_normalId {id : String} : staysInside (normalId id) = true ↔ ¬Escapes id := by
  rw [staysInside_iff, Escapes, not_or]

theorem namesIn_parts_normalId (id : String) : namesIn (parts (normalId id).toList) = segments id := by
  rw [namesIn, parts, List.filter_filter, segments]
  congr 2
  funext piece
  simp [Bool.and_comm]

namespace Store

section
variable {m : Type → Type} [Monad m] [Access m] {root id : String}

/-! ### Loading -/

/-- What the content at the path of an identifier is answered as. -/
def answerFor (id path : String) : Except Disk.Failure ByteArray → Except StoreError String
  | .ok bytes =>
    match decode? bytes with
    | some source => .ok source
    | none => .error (.io id path .notText)
  | .error .notFound => .error (.notFound id)
  | .error failure => .error (.io id path failure)

theorem ofDirectory_of_escapes (h : Escapes id) :
    (ofDirectory root id : m (Except StoreError String)) = pure (.error (.notFound (normalId id))) := by
  have houtside : staysInside (normalId id) = false :=
    Bool.eq_false_iff.mpr fun hinside => staysInside_normalId.mp hinside h
  simp only [ofDirectory, houtside, Bool.not_false, ↓reduceIte]

theorem ofDirectory_of_not_escapes [LawfulMonad m] (h : ¬Escapes id) :
    (ofDirectory root id : m (Except StoreError String)) =
      answerFor (normalId id) (join root (normalId id)) <$> Access.read (join root (normalId id)) := by
  have hinside : staysInside (normalId id) = true := staysInside_normalId.mpr h
  simp only [ofDirectory, hinside, Bool.not_true, Bool.false_eq_true, ↓reduceIte, readText, bind_assoc,
    map_eq_pure_bind]
  congr 1
  funext content
  cases content with
  | error e => cases e <;> simp [answerFor]
  | ok bytes => cases hdecode : decode? bytes <;> simp [answerFor, hdecode]

/-- What a template in a directory is loaded as from a disk. -/
def loadFrom (root id : String) (d : Disk) : Except StoreError String :=
  ((ofDirectory root id : StateM Disk (Except StoreError String)) d).1

theorem ofDirectory_run (d : Disk) : (ofDirectory root id : StateM Disk (Except StoreError String)) d =
    (if staysInside (normalId id) then
      answerFor (normalId id) (join root (normalId id)) (d.read (join root (normalId id)))
    else .error (.notFound (normalId id)), d) := by
  by_cases h : Escapes id
  · have houtside : ¬staysInside (normalId id) = true := fun hinside => staysInside_normalId.mp hinside h
    rw [ofDirectory_of_escapes h, if_neg houtside]
    rfl
  · rw [ofDirectory_of_not_escapes h, if_pos (staysInside_normalId.mpr h)]
    rfl

end

/-! ### Inside the directory -/

section
variable {root id : String}

theorem locate_join_normalId (h : ¬Escapes id) (d : Disk) :
    d.locate (join root (normalId id)) = (segments id).reverse ++ d.locate root := by
  obtain ⟨hrelative, hup⟩ := not_or.mp h
  have hparts : ['.', '.'] ∉ parts (normalId id).toList := fun hmem => hup (List.mem_filter.mp hmem).1
  rw [locate, parts_join hrelative, start_of_isAbsolute_iff (isAbsolute_join hrelative), walk_append,
    Output.walk_eq_placeAt (fun _ hp => ne_nil_of_mem_parts hp) hparts, namesIn_parts_normalId]
  rfl

theorem loadFrom_same {d d' : Disk} (hroot : d.IsDirectoryAt root) (hroot' : d'.IsDirectoryAt root)
    (hagree : Agree d d' (d.locate root) (d'.locate root)) :
    loadFrom root id d = loadFrom root id d' := by
  rw [loadFrom, loadFrom, ofDirectory_run, ofDirectory_run]
  by_cases h : Escapes id
  · have houtside : ¬staysInside (normalId id) = true := fun hinside => staysInside_normalId.mp hinside h
    rw [if_neg houtside, if_neg houtside]
  · obtain ⟨hrelative, hup⟩ := not_or.mp h
    have hparts : ['.', '.'] ∉ parts (normalId id).toList := fun hmem => hup (List.mem_filter.mp hmem).1
    rw [read_below hroot hroot' hagree (isAbsolute_join hrelative) (parts_join hrelative) hparts]

end

/-- What a store of templates in a directory does with an identifier. -/
structure Contained (root id : String) : Prop where
  /-- What could lead out is refused, and nothing is read. -/
  refused : Escapes id → ∀ (m : Type → Type) [Monad m] [Access m],
    (ofDirectory root id : m (Except StoreError String)) = pure (.error (.notFound (normalId id)))
  /-- Else the answer is made from what is read at one path. -/
  reads : ¬Escapes id → ∀ (m : Type → Type) [Monad m] [LawfulMonad m] [Access m],
    (ofDirectory root id : m (Except StoreError String)) =
      answerFor (normalId id) (join root (normalId id)) <$> Access.read (join root (normalId id))
  inside : ¬Escapes id → ∀ d : Disk, d.locate (join root (normalId id)) = (segments id).reverse ++ d.locate root
  alike : ∀ (d d' : Disk) (r : Found d) (r' : Found d'), d.find root = .ok r → r.entry = .directory →
    d'.find root = .ok r' → r'.entry = .directory → Agree d d' r.location r'.location →
    loadFrom root id d = loadFrom root id d'
  layered : Escapes id → ∀ (m : Type → Type) [Monad m] [LawfulMonad m] [Access m] (fallback : Store m),
    orElse (ofDirectory root) fallback id = fallback id

/-- A store of templates in a directory never reads outside it. -/
theorem ofDirectory_contained (root id : String) : Contained root id where
  refused h m := by
    intros
    exact ofDirectory_of_escapes h
  reads h m := by
    intros
    exact ofDirectory_of_not_escapes h
  inside h d := locate_join_normalId h d
  alike d d' r r' hfind hdir hfind' hdir' hagree := by
    obtain ⟨hopens, hlocation, -⟩ := find_eq_ok.mp hfind
    obtain ⟨hopens', hlocation', -⟩ := find_eq_ok.mp hfind'
    rw [hlocation, hlocation'] at hagree
    exact loadFrom_same ⟨hopens, by rw [← hlocation, r.here, hdir]⟩ ⟨hopens', by rw [← hlocation', r'.here, hdir']⟩
      hagree
  layered h m := by
    intro _ _ _ fallback
    simp only [orElse, ofDirectory_of_escapes h, pure_bind]

/-- A disk with a template in a directory and another beside that. -/
def guardedDisk : Disk := Output.diskOf [("t/sub/a.tera", "inside", false), ("secret.tera", "outside", false)]

/-- Separators of both kinds do not hide that an identifier climbs. -/
theorem ofDirectory_contained_sample : Escapes "sub\\..\\../secret.tera" ∧
    loadFrom "t" "sub\\..\\../secret.tera" guardedDisk = .error (.notFound "sub/../../secret.tera") ∧
    ¬Escapes "sub\\./a.tera" ∧ loadFrom "t" "sub\\./a.tera" guardedDisk = .ok "inside" := by
  have hescapes : Escapes "sub\\..\\../secret.tera" := by
    unfold Escapes IsAbsolute
    decide
  have hinside : ¬Escapes "sub\\./a.tera" := by
    unfold Escapes IsAbsolute
    decide
  refine ⟨hescapes, ?_, hinside, ?_⟩
  · rw [loadFrom, (ofDirectory_contained "t" "sub\\..\\../secret.tera").refused hescapes]
    rfl
  · rw [loadFrom, (ofDirectory_contained "t" "sub\\./a.tera").reads hinside]
    exact eq_ok_of_toOption (by decide +kernel)

end Store

end Scaffold.Template
