import Scaffold.Disk.Place
import Scaffold.Proofs.Disk.Parts

/-! Where a path leads, as if every directory on its way were there. A disk only decides how far one gets:
    whoever arrives has arrived at that location (`enterAll_eq_ok`), and who misses a directory would not
    have come to one further on either (`not_isDirectory_walk`), unless the path climbs out of a directory
    that is not there. -/

namespace Scaffold.Disk
open Scaffold.Path

/-- Where one piece of a path leads. -/
def follow (loc : Location) (piece : List Char) : Location :=
  if piece = [] || piece = ['.'] then loc
  else if piece = ['.', '.'] then loc.tail
  else String.ofList piece :: loc

/-- Where pieces of a path lead one after another. -/
def walk (loc : Location) (ps : List (List Char)) : Location := ps.foldl follow loc

@[simp] theorem walk_nil (loc : Location) : walk loc [] = loc := rfl

@[simp] theorem walk_cons (loc : Location) (p : List Char) (ps : List (List Char)) :
    walk loc (p :: ps) = walk (follow loc p) ps := rfl

theorem walk_append (loc : Location) (ps qs : List (List Char)) : walk loc (ps ++ qs) = walk (walk loc ps) qs :=
  List.foldl_append ..

/-- Where a path begins: at the root, or in the current directory. -/
def start (d : Disk) (path : String) : Location := if path.toList.head? = some '/' then [] else d.current

/-- The location that a path is about, whether or not anything is there. -/
def locate (d : Disk) (path : String) : Location := walk (d.start path) (parts path.toList)

theorem locate_of_current {d d' : Disk} (h : d'.current = d.current) (path : String) : d'.locate path = d.locate path := by
  simp only [locate, start, h]

theorem start_of_isAbsolute_iff {d : Disk} {p q : String} (h : IsAbsolute p ↔ IsAbsolute q) : d.start p = d.start q := by
  unfold IsAbsolute at h
  simp only [start, h]

/-- A piece that means no directory by itself. -/
def IsDots (piece : List Char) : Prop := piece = ['.'] ∨ piece = ['.', '.']

theorem follow_of_name {loc : Location} {p : List Char} (hne : p ≠ []) (hp : ¬IsDots p) :
    follow loc p = String.ofList p :: loc := by
  obtain ⟨h1, h2⟩ := not_or.mp hp
  simp [follow, hne, h1, h2]

theorem namesIn_name {p : List Char} (h : ¬IsDots p) : namesIn [p] = [String.ofList p] := by
  simp [namesIn, (not_or.mp h).1]

@[simp] theorem follow_nil (loc : Location) : follow loc [] = loc := by simp [follow]
@[simp] theorem follow_here (loc : Location) : follow loc ['.'] = loc := by simp [follow]
@[simp] theorem follow_up (loc : Location) : follow loc ['.', '.'] = loc.tail := by simp [follow]

theorem suffix_walk : ∀ {ps : List (List Char)} {loc : Location}, ['.', '.'] ∉ ps → loc <:+ walk loc ps
  | [], _, _ => List.suffix_refl _
  | p :: ps, loc, h => by
    obtain ⟨hp, hps⟩ := not_or.mp fun hmem => h (List.mem_cons.mpr hmem)
    have ih : follow loc p <:+ walk (follow loc p) ps := suffix_walk hps
    refine List.IsSuffix.trans ?_ ih
    by_cases hempty : p = []
    · have hstay : follow loc p = loc := by rw [hempty, follow_nil]
      exact hstay.symm ▸ List.suffix_refl loc
    by_cases hdots : IsDots p
    · rcases hdots with rfl | rfl
      · exact (follow_here loc).symm ▸ List.suffix_refl loc
      · exact absurd rfl hp
    · rw [follow_of_name hempty hdots]
      exact List.suffix_cons ..

/-! ### What stands around a location -/

theorem isDirectory_of_suffix {d : Disk} {around : Location} :
    ∀ {loc : Location}, around <:+ loc → (d.get? loc).isSome → around ≠ loc → d.get? around = some .directory
  | [], h, _, hne => absurd (List.suffix_nil.mp h) hne
  | name :: dir, h, hsome, hne => by
    obtain ⟨e, he⟩ := Option.isSome_iff_exists.mp hsome
    have hdir := d.parent_isDirectory he
    rcases List.suffix_cons_iff.mp h with heq | hsuffix
    · exact absurd heq hne
    · by_cases heq : around = dir
      · exact heq ▸ hdir
      · exact isDirectory_of_suffix hsuffix (by simp [hdir]) heq

/-! ### Passing through directories -/

/-- A piece whose name is not too long. -/
def Fits (piece : List Char) : Prop := (String.ofList piece).utf8ByteSize ≤ maxNameSize

/-- Every piece leads from a directory into a directory. -/
def Passes (d : Disk) : Location → List (List Char) → Prop
  | _, [] => True
  | loc, p :: ps => Fits p ∧ d.get? (follow loc p) = some .directory ∧ Passes d (follow loc p) ps

theorem passes_append {d : Disk} : ∀ {ps qs : List (List Char)} {loc : Location},
    d.Passes loc (ps ++ qs) ↔ d.Passes loc ps ∧ d.Passes (walk loc ps) qs
  | [], qs, loc => by simp [Passes]
  | p :: ps, qs, loc => by simp only [List.cons_append, Passes, walk_cons, passes_append, and_assoc]

theorem Passes.isDirectory {d : Disk} : ∀ {ps : List (List Char)} {loc : Location}, d.get? loc = some .directory →
    d.Passes loc ps → d.get? (walk loc ps) = some .directory
  | [], _, h, _ => h
  | _ :: ps, _, _, ⟨_, hdir, hps⟩ => @Passes.isDirectory d ps _ hdir hps

theorem Passes.of_front {d : Disk} {ps qs : List (List Char)} {loc : Location} (hloc : d.get? loc = some .directory)
    (h : d.Passes loc ps) (hfront : qs <+: ps) : d.get? (walk loc qs) = some .directory := by
  obtain ⟨rest, rfl⟩ := hfront
  exact (passes_append.mp h).1.isDirectory hloc

theorem enter_eq_ok {d : Disk} {dir dir' : d.Directory} {p : List Char} :
    d.enter dir p = .ok dir' ↔ (Fits p ∧ d.get? (follow dir.1 p) = some .directory) ∧ dir'.1 = follow dir.1 p := by
  obtain ⟨loc, hloc⟩ := dir
  unfold enter
  by_cases hhere : p = [] ∨ p = ['.']
  · have hfits : Fits p := by rcases hhere with rfl | rfl <;> unfold Fits <;> decide
    have hfollow : follow loc p = loc := by rcases hhere with rfl | rfl <;> simp
    have hcond : (decide (p = []) || decide (p = ['.'])) = true := by simpa using hhere
    simp only [hcond, ↓reduceIte, Except.ok.injEq, hfollow, hloc, and_true, hfits, true_and, Subtype.ext_iff]
    exact eq_comm
  have hcond : (decide (p = []) || decide (p = ['.'])) = false := by simpa using hhere
  by_cases hup : p = ['.', '.']
  · subst hup
    have hfits : Fits ['.', '.'] := by unfold Fits; decide
    have hparent : (d.parent ⟨loc, hloc⟩).1 = loc.tail := by cases loc <;> rfl
    have htail : d.get? loc.tail = some .directory := hparent ▸ (d.parent ⟨loc, hloc⟩).2
    simp only [hcond, Bool.false_eq_true, ↓reduceIte, Except.ok.injEq, follow_up, htail, hfits, true_and,
      Subtype.ext_iff, hparent]
    exact eq_comm
  · obtain ⟨hempty, hdot⟩ := not_or.mp hhere
    have hname : follow loc p = String.ofList p :: loc := follow_of_name hempty (not_or.mpr ⟨hdot, hup⟩)
    simp only [hcond, Bool.false_eq_true, hup, ↓reduceIte, hname]
    by_cases hlong : maxNameSize < (String.ofList p).utf8ByteSize
    · have hfits : ¬Fits p := by unfold Fits; omega
      simp [hlong, hfits]
    · have hfits : Fits p := by unfold Fits; omega
      simp only [hlong, ↓reduceIte]
      split
      · rename_i hdir
        simp only [Except.ok.injEq, hfits, hdir, true_and, Subtype.ext_iff, eq_comm]
      · rename_i f hfile
        simp [hfile]
      · rename_i hnone
        simp [hnone]

theorem enterAll_eq_ok {d : Disk} : ∀ {ps : List (List Char)} {dir dir' : d.Directory},
    d.enterAll dir ps = .ok dir' ↔ d.Passes dir.1 ps ∧ dir'.1 = walk dir.1 ps
  | [], dir, dir' => by
    simp only [enterAll, Passes, walk_nil, true_and, Except.ok.injEq, Subtype.ext_iff, eq_comm]
  | p :: ps, dir, dir' => by
    simp only [enterAll, Passes, walk_cons]
    cases hfirst : d.enter dir p with
    | error e =>
      have hno : ¬(Fits p ∧ d.get? (follow dir.1 p) = some .directory) := fun h => by
        have hok : d.enter dir p = .ok ⟨follow dir.1 p, h.2⟩ := enter_eq_ok.mpr ⟨h, rfl⟩
        rw [hfirst] at hok
        cases hok
      simp only [bind, Except.bind, reduceCtorEq, false_iff]
      exact fun h => hno ⟨h.1.1, h.1.2.1⟩
    | ok next =>
      obtain ⟨⟨hfits, hdir⟩, hnext⟩ := enter_eq_ok.mp hfirst
      simp only [bind, Except.bind, enterAll_eq_ok, hnext, hfits, hdir, true_and]

/-! ### Missing directories -/

/-- Every directory that the pieces climb out of is there. -/
def Climbs (d : Disk) (loc : Location) (ps : List (List Char)) : Prop :=
  ∀ front back, ps = front ++ ['.', '.'] :: back → d.get? (walk loc front) = some .directory

/-- Every directory that a path climbs out of is there. -/
def Climbable (d : Disk) (path : String) : Prop := d.Climbs (d.start path) (parts path.toList)

theorem Passes.climbs {d : Disk} {ps : List (List Char)} {loc : Location} (hloc : d.get? loc = some .directory)
    (h : d.Passes loc ps) : d.Climbs loc ps := fun _ _ heq => h.of_front hloc (heq ▸ List.prefix_append ..)

theorem Climbs.append {d : Disk} {ps qs : List (List Char)} {loc : Location} (h : d.Climbs loc ps)
    (hqs : ['.', '.'] ∉ qs) : d.Climbs loc (ps ++ qs) := by
  intro front back heq
  rcases List.append_eq_append_iff.mp heq with ⟨tail, -, htail⟩ | ⟨tail, hps, htail⟩
  · exact absurd (by simp [htail]) hqs
  · cases tail with
    | nil =>
      rw [List.nil_append] at htail
      exact absurd (htail ▸ List.mem_cons_self ..) hqs
    | cons p tail =>
      obtain ⟨rfl, -⟩ := List.cons.inj htail
      exact h front tail hps

theorem Climbs.of_append {d : Disk} {ps qs : List (List Char)} {loc : Location} (h : d.Climbs loc (ps ++ qs)) :
    d.Climbs loc ps := fun front back heq => h front (back ++ qs) (by simp [heq])

/-- Who misses a directory would not come to one further on either: the way behind it does not climb,
    since one can only climb out of what is there. -/
theorem not_isDirectory_walk {d : Disk} {loc : Location} {front back : List (List Char)}
    (h : d.Climbs loc (front ++ back)) (hmissing : d.get? (walk loc front) ≠ some .directory) :
    d.get? (walk loc (front ++ back)) ≠ some .directory := by
  -- what lies further in than `front` lies in no directory
  have hinside : ∀ {ps : List (List Char)}, ['.', '.'] ∉ ps → d.get? (walk loc (front ++ ps)) ≠ some .directory := by
    intro ps hps hdir
    rw [walk_append] at hdir
    by_cases heq : walk loc front = walk (walk loc front) ps
    · exact hmissing (heq ▸ hdir)
    · exact hmissing (isDirectory_of_suffix (suffix_walk hps) (by simp [hdir]) heq)
  refine hinside fun hmem => ?_
  obtain ⟨inner, rest, rfl, hfirst⟩ := List.eq_append_cons_of_mem hmem
  exact hinside hfirst (h (front ++ inner) rest (by simp))

end Scaffold.Disk
