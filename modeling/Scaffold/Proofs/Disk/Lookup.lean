import Scaffold.Disk.Access
import Scaffold.Proofs.Disk.Walk

/-! Looking up paths. A path that leads to a place leads to its location (`place_location`), and what is
    found at its end stands there (`find_eq_ok`). As long as the directories stay (`Keeps`), a path goes on
    leading to the same place. A path at whose end nothing is found has nothing at its location
    (`get?_locate_of_notFound`), if it climbs only out of directories that are there. -/

namespace Scaffold.Disk
open Scaffold.Path

/-! ### Places -/

/-- The location of a place. -/
def Place.location {d : Disk} (p : Place d) : Location := p.name.toList ++ p.dir.1

/-- What a path says about its place, whatever the disk: the parts that lead to the directory, the name in
    it if the path ends in one, and whether it ends with a slash. -/
def aim (path : String) : List (List Char) × Option String × Bool :=
  match (parts path.toList).getLast? with
  | none => ([], none, true)
  | some last =>
    if last = ['.'] || last = ['.', '.'] then (parts path.toList, none, true)
    else ((parts path.toList).dropLast, some (String.ofList last), path.toList.getLast? = some '/')

/-- A path that the system takes: it is not empty, has no NUL and is not too long, nor is its last name. -/
structure Sound (path : String) : Prop where
  noNul : path.toList.contains '\x00' = false
  notEmpty : path.toList ≠ []
  short : path.utf8ByteSize < maxPathSize
  nameFits : ∀ name, (aim path).2.1 = some name → name.utf8ByteSize ≤ maxNameSize

/-- A path that leads to a place: its directories are there. -/
structure Opens (d : Disk) (path : String) : Prop where
  sound : Sound path
  started : d.get? (d.start path) = some .directory
  passes : d.Passes (d.start path) (aim path).1

theorem startOf_eq_ok {d : Disk} {path : String} {dir : d.Directory} :
    d.startOf (path.toList.head? = some '/') = .ok dir ↔
      d.get? (d.start path) = some .directory ∧ dir.1 = d.start path := by
  unfold startOf start
  by_cases habs : path.toList.head? = some '/'
  · simp only [habs, decide_true, ↓reduceIte, get?_root, true_and, Except.ok.injEq, Subtype.ext_iff, root]
    exact eq_comm
  · simp only [habs, decide_false, Bool.false_eq_true, ↓reduceIte]
    by_cases hcurrent : d.get? d.current = some .directory
    · simp only [hcurrent, ↓reduceDIte, true_and, Except.ok.injEq, Subtype.ext_iff]
      exact eq_comm
    · simp [hcurrent]

theorem startOf_of_error {d : Disk} {path : String} {e : Failure}
    (h : d.startOf (path.toList.head? = some '/') = .error e) : d.get? (d.start path) ≠ some .directory := fun hdir => by
  have hok := (startOf_eq_ok : _ = Except.ok (⟨_, hdir⟩ : d.Directory) ↔ _).mpr ⟨hdir, rfl⟩
  rw [h] at hok
  cases hok

theorem aim_of_parts_nil {path : String} (h : parts path.toList = []) : aim path = ([], none, true) := by
  simp [aim, h]

theorem aim_of_dots {path : String} {dir : List (List Char)} {last : List Char}
    (h : parts path.toList = dir ++ [last]) (hdots : IsDots last) : aim path = (dir ++ [last], none, true) := by
  rcases hdots with rfl | rfl <;> simp [aim, h]

theorem aim_of_name {path : String} {dir : List (List Char)} {last : List Char}
    (h : parts path.toList = dir ++ [last]) (hname : ¬IsDots last) :
    aim path = (dir, some (String.ofList last), decide (path.toList.getLast? = some '/')) := by
  obtain ⟨h1, h2⟩ := not_or.mp hname
  simp [aim, h, h1, h2]

theorem aim_of_ends {path : String} {dir : List (List Char)} {base : List Char} (h : Ends path.toList dir base)
    (hname : ¬IsDots base) : aim path = (dir, some (String.ofList base), false) := by
  rw [aim_of_name h.parts_eq hname, decide_eq_false h.getLast?_ne]

theorem locate_eq_aim (d : Disk) (path : String) :
    d.locate path = (aim path).2.1.toList ++ walk (d.start path) (aim path).1 := by
  unfold locate
  rcases List.eq_nil_or_concat (parts path.toList) with hnil | ⟨dir, last, hlast⟩
  · simp [aim_of_parts_nil hnil, hnil]
  · rw [List.concat_eq_append] at hlast
    by_cases hdots : IsDots last
    · simp [aim_of_dots hlast hdots, hlast]
    · have hne : last ≠ [] := ne_nil_of_mem_parts (by rw [hlast]; simp)
      simp [aim_of_name hlast hdots, hlast, walk_append, follow_of_name hne hdots]

theorem locate_of_ends {d : Disk} {path : String} {dir : List (List Char)} {base : List Char}
    (h : Ends path.toList dir base) (hname : ¬IsDots base) :
    d.locate path = String.ofList base :: walk (d.start path) dir := by
  rw [locate_eq_aim, aim_of_ends h hname]
  rfl

theorem locate_join {d : Disk} {path name : String} (hslash : '/' ∉ name.toList) (hne : name ≠ "")
    (hname : ¬IsDots name.toList) : d.locate (join path name) = name :: d.locate path := by
  have hrel : ¬IsAbsolute name := fun habs => hslash (List.mem_of_mem_head? habs)
  rw [locate_of_ends (ends_join hslash hne) hname, String.ofList_toList, locate,
    start_of_isAbsolute_iff (isAbsolute_join hrel)]

theorem enterAll_append {d : Disk} : ∀ {ps qs : List (List Char)} {dir : d.Directory},
    d.enterAll dir (ps ++ qs) = (d.enterAll dir ps).bind fun dir => d.enterAll dir qs
  | [], _, _ => rfl
  | p :: ps, qs, dir => by
    simp only [List.cons_append, enterAll, bind, Except.bind]
    cases d.enter dir p with
    | error e => rfl
    | ok next => exact enterAll_append

theorem enterAll_bind_eq_ok {d : Disk} (first : d.Directory) (ps : List (List Char)) (name : Option String)
    (slash long : Bool) (p : Place d) :
    ((d.enterAll first ps).bind fun dir => if long then .error .nameTooLong else .ok ⟨dir, name, slash⟩) = .ok p ↔
      long = false ∧ d.Passes first.1 ps ∧ p.dir.1 = walk first.1 ps ∧ p.name = name ∧ p.slash = slash := by
  obtain ⟨dir, n, s⟩ := p
  constructor
  · intro h
    cases henter : d.enterAll first ps with
    | error e =>
      rw [henter] at h
      cases h
    | ok last =>
      rw [henter] at h
      cases long with
      | true => cases h
      | false =>
        cases h
        obtain ⟨hpasses, hwalk⟩ := enterAll_eq_ok.mp henter
        exact ⟨rfl, hpasses, hwalk, rfl, rfl⟩
  · rintro ⟨rfl, hpasses, hwalk, rfl, rfl⟩
    have henter : d.enterAll first ps = .ok dir := enterAll_eq_ok.mpr ⟨hpasses, hwalk⟩
    rw [henter]
    rfl

/-- A path that is looked up at all. -/
def Taken (path : String) : Prop :=
  path.toList.contains '\x00' = false ∧ path.toList ≠ [] ∧ path.utf8ByteSize < maxPathSize

/-- Whether a path ends in a name that does not fit. -/
def endsTooLong (path : String) : Bool := (aim path).2.1.any fun name => decide (maxNameSize < name.utf8ByteSize)

theorem endsTooLong_eq_false {path : String} :
    endsTooLong path = false ↔ ∀ name, (aim path).2.1 = some name → name.utf8ByteSize ≤ maxNameSize := by
  unfold endsTooLong
  cases (aim path).2.1 <;> simp

theorem place_of_not_taken {d : Disk} {path : String} (h : ¬Taken path) :
    ∃ e, d.place path = .error e ∧ (e = .notFound → path.toList = []) := by
  unfold place
  dsimp only
  split
  · exact ⟨_, rfl, nofun⟩
  rename_i hnul
  split
  · rename_i hempty
    exact ⟨_, rfl, fun _ => hempty⟩
  rename_i hempty
  split
  · exact ⟨_, rfl, nofun⟩
  rename_i hlong
  exact absurd ⟨by simpa using hnul, hempty, Nat.not_le.mp hlong⟩ h

/-- The directories on the path are entered one after another, and then its name has to fit. -/
theorem place_of_taken {d : Disk} {path : String} (h : Taken path) :
    d.place path = (d.startOf (path.toList.head? = some '/')).bind fun first =>
      (d.enterAll first (aim path).1).bind fun dir =>
        if endsTooLong path then .error .nameTooLong else .ok ⟨dir, (aim path).2.1, (aim path).2.2⟩ := by
  obtain ⟨hnul, hempty, hshort⟩ := h
  unfold place
  simp only [hnul, Bool.false_eq_true, ↓reduceIte, hempty, Nat.not_le.mpr hshort, bind]
  congr 1
  funext first
  rcases List.eq_nil_or_concat (parts path.toList) with hnil | ⟨front, last, hlast⟩
  · have hpieces : (Text.splitOn '/' path.toList).filter (· ≠ []) = [] := hnil
    simp only [hpieces, endsTooLong, aim_of_parts_nil hnil]
    rfl
  · rw [List.concat_eq_append] at hlast
    have hpieces : (Text.splitOn '/' path.toList).filter (· ≠ []) = front ++ [last] := hlast
    simp only [hpieces, List.getLast?_append, List.getLast?_singleton, Option.some_or, List.dropLast_concat]
    by_cases hdots : IsDots last
    · have hcond : (decide (last = ['.']) || decide (last = ['.', '.'])) = true := by simpa [IsDots] using hdots
      simp only [endsTooLong, aim_of_dots hlast hdots, enterAll_append, hcond, ↓reduceIte, enterAll, bind, Except.bind,
        pure, Except.pure]
      cases d.enterAll first front with
      | error e => rfl
      | ok mid => cases henter : d.enter mid last <;> simp only [henter, Option.any_none, Bool.false_eq_true, ↓reduceIte]
    · have hcond : (decide (last = ['.']) || decide (last = ['.', '.'])) = false := by simpa [IsDots] using hdots
      simp only [endsTooLong, aim_of_name hlast hdots, hcond, Bool.false_eq_true, ↓reduceIte, Option.any_some,
        decide_eq_true_eq]
      rfl

theorem place_eq_ok {d : Disk} {path : String} {p : Place d} :
    d.place path = .ok p ↔
      d.Opens path ∧ p.dir.1 = walk (d.start path) (aim path).1 ∧ p.name = (aim path).2.1 ∧ p.slash = (aim path).2.2 := by
  by_cases htaken : Taken path
  · rw [place_of_taken htaken]
    cases hstart : d.startOf (path.toList.head? = some '/') with
    | error e => exact ⟨nofun, fun ⟨h, _⟩ => absurd h.started (startOf_of_error hstart)⟩
    | ok first =>
      obtain ⟨hdir, hfirst⟩ := startOf_eq_ok.mp hstart
      refine (enterAll_bind_eq_ok first _ _ _ _ p).trans ?_
      rw [hfirst, endsTooLong_eq_false]
      constructor
      · rintro ⟨hfits, hpasses, hrest⟩
        exact ⟨⟨⟨htaken.1, htaken.2.1, htaken.2.2, hfits⟩, hdir, hpasses⟩, hrest⟩
      · rintro ⟨h, hrest⟩
        exact ⟨h.sound.nameFits, h.passes, hrest⟩
  · obtain ⟨e, he, -⟩ := place_of_not_taken (d := d) htaken
    rw [he]
    exact ⟨nofun, fun ⟨h, _⟩ => absurd ⟨h.sound.noNul, h.sound.notEmpty, h.sound.short⟩ htaken⟩

theorem Opens.place {d : Disk} {path : String} (h : d.Opens path) :
    ∃ p, d.place path = .ok p ∧ p.dir.1 = walk (d.start path) (aim path).1 ∧ p.name = (aim path).2.1 ∧
      p.slash = (aim path).2.2 := by
  have hdir := h.passes.isDirectory h.started
  exact ⟨⟨⟨_, hdir⟩, (aim path).2.1, (aim path).2.2⟩, place_eq_ok.mpr ⟨h, rfl, rfl, rfl⟩, rfl, rfl, rfl⟩

theorem place_location {d : Disk} {path : String} {p : Place d} (h : d.place path = .ok p) :
    p.location = d.locate path := by
  obtain ⟨-, hdir, hname, -⟩ := place_eq_ok.mp h
  rw [Place.location, hdir, hname, locate_eq_aim]

/-- A path that leads to a place climbs only out of directories that are there. -/
theorem Opens.climbable {d : Disk} {path : String} (h : d.Opens path) : d.Climbable path := by
  unfold Climbable
  rcases List.eq_nil_or_concat (parts path.toList) with hnil | ⟨dir, last, hlast⟩
  · rw [hnil]
    exact fun front back heq => by simp at heq
  · rw [List.concat_eq_append] at hlast
    by_cases hdots : IsDots last
    · have hpasses := h.passes
      rw [aim_of_dots hlast hdots, ← hlast] at hpasses
      exact hpasses.climbs h.started
    · have hpasses := h.passes
      rw [aim_of_name hlast hdots] at hpasses
      rw [hlast]
      refine (hpasses.climbs h.started).append fun hmem => ?_
      exact hdots (Or.inr (List.mem_singleton.mp hmem).symm)

/-! ### Finding what stands at the end -/

theorem Found.ext {d : Disk} {r r' : Found d} (hloc : r.location = r'.location) (hentry : r.entry = r'.entry) :
    r = r' := by
  cases r
  cases r'
  cases hloc
  cases hentry
  rfl

theorem find_of_place {d : Disk} {path : String} {p : Place d} (h : d.place path = .ok p) :
    (d.get? p.location = none ∧ d.find path = .error .notFound) ∨
    ∃ e, ∃ here : d.get? p.location = some e,
      if p.slash = true ∧ p.name.isSome ∧ e ≠ .directory then d.find path = .error .notDirectory
      else d.find path = .ok ⟨p.location, e, here⟩ := by
  obtain ⟨dir, name, slash⟩ := p
  unfold find
  rw [h]
  simp only [bind, Except.bind]
  cases name with
  | none => exact Or.inr ⟨.directory, dir.2, by simp [pure, Except.pure, Place.location]⟩
  | some name =>
    dsimp only [Place.location, Option.toList_some, List.singleton_append]
    split
    · rename_i hnone
      exact Or.inl ⟨hnone, rfl⟩
    · rename_i hdir
      exact Or.inr ⟨.directory, hdir, by simp [pure, Except.pure]⟩
    · rename_i f hfile
      refine Or.inr ⟨.file f, hfile, ?_⟩
      cases slash <;> simp [pure, Except.pure, throw, throwThe, MonadExceptOf.throw]

theorem find_of_place_error {d : Disk} {path : String} {e : Failure} (h : d.place path = .error e) :
    d.find path = .error e := by
  unfold find
  rw [h]
  rfl

theorem find_eq_ok {d : Disk} {path : String} {r : Found d} :
    d.find path = .ok r ↔
      d.Opens path ∧ r.location = d.locate path ∧ ((aim path).2.2 = true → r.entry = .directory) := by
  constructor
  · intro h
    cases hplace : d.place path with
    | error e =>
      rw [find_of_place_error hplace] at h
      cases h
    | ok p =>
      obtain ⟨hopens, -, hname, hslash⟩ := place_eq_ok.mp hplace
      have hloc := place_location hplace
      rcases find_of_place hplace with ⟨-, hnone⟩ | ⟨e, here, hfind⟩
      · rw [hnone] at h
        cases h
      · split at hfind
        · rw [hfind] at h
          cases h
        · rename_i hcond
          rw [hfind] at h
          cases h
          refine ⟨hopens, hloc, fun htrue => ?_⟩
          by_cases hdir : e = .directory
          · exact hdir
          · -- only a path without a name ends with a slash at something else, and that is a directory
            have hnone : p.name = none := by
              cases hn : p.name with
              | none => rfl
              | some n => exact absurd ⟨hslash.trans htrue, by simp [hn], hdir⟩ hcond
            rw [Place.location, hnone] at here
            exact absurd (Option.some.inj (here.symm.trans p.dir.2)) hdir
  · rintro ⟨hopens, hloc, hslash⟩
    obtain ⟨p, hplace, -, -, hpslash⟩ := hopens.place
    have hsame : r.location = p.location := hloc.trans (place_location hplace).symm
    rcases find_of_place hplace with ⟨hnone, -⟩ | ⟨e, here, hfind⟩
    · have := r.here
      rw [hsame, hnone] at this
      cases this
    · have hentry : r.entry = e := Option.some.inj (r.here.symm.trans (hsame ▸ here))
      split at hfind
      · rename_i hcond
        exact absurd (hentry ▸ hslash (hpslash ▸ hcond.1)) hcond.2.2
      · rw [hfind]
        exact congrArg _ (Found.ext hsame.symm hentry.symm)

theorem enter_notFound {d : Disk} {dir : d.Directory} {p : List Char} (h : d.enter dir p = .error .notFound) :
    d.get? (follow dir.1 p) = none := by
  unfold enter at h
  split at h
  · cases h
  rename_i hhere
  split at h
  · cases h
  rename_i hup
  simp only [Bool.or_eq_true, decide_eq_true_eq, not_or] at hhere
  rw [follow_of_name hhere.1 (not_or.mpr ⟨hhere.2, hup⟩)]
  dsimp only at h
  split at h
  · cases h
  · split at h
    · cases h
    · cases h
    · assumption

theorem enterAll_notFound {d : Disk} : ∀ {ps : List (List Char)} {dir : d.Directory},
    d.enterAll dir ps = .error .notFound → ∃ front back, ps = front ++ back ∧ d.get? (walk dir.1 front) = none
  | [], _, h => by cases h
  | p :: ps, dir, h => by
    cases hfirst : d.enter dir p with
    | error e =>
      simp only [enterAll, hfirst, bind, Except.bind, Except.error.injEq] at h
      subst h
      exact ⟨[p], ps, rfl, enter_notFound hfirst⟩
    | ok next =>
      simp only [enterAll, hfirst, bind, Except.bind] at h
      obtain ⟨front, back, rfl, hnone⟩ := enterAll_notFound h
      exact ⟨p :: front, back, rfl, by rw [walk_cons, ← (enter_eq_ok.mp hfirst).2, hnone]⟩

/-- A path to a name leads nowhere only if the directory of that name is missing. -/
theorem place_notFound {d : Disk} {path name : String} (hname : (aim path).2.1 = some name)
    (hclimb : d.Climbable path) (h : d.place path = .error .notFound) :
    d.get? (walk (d.start path) (aim path).1) ≠ some .directory := by
  rcases List.eq_nil_or_concat (parts path.toList) with hnil | ⟨front, last, hlast⟩
  · simp [aim_of_parts_nil hnil] at hname
  rw [List.concat_eq_append] at hlast
  have hdots : ¬IsDots last := fun hdots => by simp [aim_of_dots hlast hdots] at hname
  have hfront : (aim path).1 = front := by rw [aim_of_name hlast hdots]
  have hclimb' : d.Climbs (d.start path) front :=
    Climbs.of_append (hlast ▸ hclimb : d.Climbs (d.start path) (front ++ [last]))
  by_cases htaken : Taken path
  · rw [place_of_taken htaken, hfront] at h
    rw [hfront]
    cases hstart : d.startOf (path.toList.head? = some '/') with
    | error e => exact @not_isDirectory_walk d _ [] _ hclimb' (startOf_of_error hstart)
    | ok first =>
      simp only [hstart, Except.bind] at h
      cases henter : d.enterAll first front with
      | error e =>
        simp only [henter, Except.error.injEq] at h
        subst h
        obtain ⟨near, far, rfl, hnone⟩ := enterAll_notFound henter
        rw [(startOf_eq_ok.mp hstart).2] at hnone
        exact not_isDirectory_walk hclimb' (by simp [hnone])
      | ok dir =>
        simp only [henter] at h
        split at h <;> cases h
  · obtain ⟨e, he, hempty⟩ := place_of_not_taken (d := d) htaken
    rw [he, Except.error.injEq] at h
    rw [hempty h] at hlast
    simp at hlast

theorem get?_locate_of_notFound {d : Disk} {path name : String} (hname : (aim path).2.1 = some name)
    (hclimb : d.Climbable path) (h : d.find path = .error .notFound) : d.get? (d.locate path) = none := by
  cases hplace : d.place path with
  | error e =>
    rw [find_of_place_error hplace, Except.error.injEq] at h
    subst h
    have hmissing := place_notFound hname hclimb hplace
    rw [locate_eq_aim, hname]
    cases he : d.get? (name :: walk (d.start path) (aim path).1) with
    | none => exact he
    | some e => exact absurd (d.parent_isDirectory he) hmissing
  | ok p =>
    rcases find_of_place hplace with ⟨hnone, -⟩ | ⟨e, here, hfind⟩
    · rwa [← place_location hplace]
    · split at hfind <;> rw [hfind] at h <;> cases h

/-! ### Keeping the directories -/

/-- What every change of the disk keeps: the current directory and all directories. -/
structure Keeps (d d' : Disk) : Prop where
  current : d'.current = d.current
  directory : ∀ loc, d.get? loc = some .directory → d'.get? loc = some .directory

namespace Keeps
variable {d d' d'' : Disk}

theorem refl (d : Disk) : Keeps d d := ⟨rfl, fun _ h => h⟩

theorem trans (h : Keeps d d') (h' : Keeps d' d'') : Keeps d d'' :=
  ⟨h'.current.trans h.current, fun loc hloc => h'.directory loc (h.directory loc hloc)⟩

theorem start (h : Keeps d d') (path : String) : d'.start path = d.start path := by
  simp only [Disk.start, h.current]

theorem locate (h : Keeps d d') (path : String) : d'.locate path = d.locate path := locate_of_current h.current path

theorem passes (h : Keeps d d') : ∀ {ps : List (List Char)} {loc : Location}, d.Passes loc ps → d'.Passes loc ps
  | [], _, _ => trivial
  | _ :: _, _, ⟨hfits, hdir, hps⟩ => ⟨hfits, h.directory _ hdir, h.passes hps⟩

theorem opens (h : Keeps d d') {path : String} (hopens : d.Opens path) : d'.Opens path :=
  ⟨hopens.sound, h.start path ▸ h.directory _ hopens.started, h.start path ▸ h.passes hopens.passes⟩

theorem climbable (h : Keeps d d') {path : String} (hclimb : d.Climbable path) : d'.Climbable path := by
  intro front back heq
  rw [h.start]
  exact h.directory _ (hclimb front back heq)

end Keeps

end Scaffold.Disk
