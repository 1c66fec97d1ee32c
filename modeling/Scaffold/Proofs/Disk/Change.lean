import Scaffold.Proofs.Disk.Lookup
import Scaffold.Proofs.Monad

/-! What each operation changes: one location (`Becomes`), or, for the directories around a path, missing
    ones on its way (`Grows`). Every change keeps the directories that are there. -/

namespace Scaffold.Disk
open Scaffold.Path

/-! ### One location -/

/-- `d'` is `d` with `e` at a location. -/
structure Becomes (d d' : Disk) (loc : Location) (e : Option Entry) : Prop where
  current : d'.current = d.current
  get? : ∀ l, d'.get? l = if l = loc then e else d.get? l

namespace Becomes
variable {d d' : Disk} {loc : Location} {e : Option Entry}

theorem get?_self (h : Becomes d d' loc e) : d'.get? loc = e := by rw [h.get?, if_pos rfl]

theorem get?_of_ne (h : Becomes d d' loc e) {l : Location} (hl : l ≠ loc) : d'.get? l = d.get? l := by
  rw [h.get?, if_neg hl]

theorem trans {d'' : Disk} {e' : Option Entry} (h : Becomes d d' loc e) (h' : Becomes d' d'' loc e') :
    Becomes d d'' loc e' :=
  ⟨h'.current.trans h.current, fun l => by
    by_cases hl : l = loc
    · rw [hl, h'.get?_self, if_pos rfl]
    · rw [h'.get?_of_ne hl, h.get?_of_ne hl, if_neg hl]⟩

theorem keeps (h : Becomes d d' loc e) (hdir : d.get? loc ≠ some .directory) : Keeps d d' :=
  ⟨h.current, fun l hl => by rw [h.get?_of_ne fun heq => hdir (heq ▸ hl), hl]⟩

end Becomes

/-- The mode of a file that is put where something stood: its own, or that of new files. -/
def modeOf : Option Entry → Nat
  | some (.file f) => f.mode
  | _ => newFileMode

/-- A path at whose end a file can be put. -/
structure Holds (d : Disk) (path : String) : Prop where
  opens : d.Opens path
  named : (aim path).2.1.isSome
  noSlash : (aim path).2.2 = false

theorem Holds.keep {d d' : Disk} {path : String} (h : d.Holds path) (hk : Keeps d d') : d'.Holds path :=
  ⟨hk.opens h.opens, h.named, h.noSlash⟩

theorem Holds.place {d : Disk} {path : String} (h : d.Holds path) :
    ∃ dir name, d.place path = .ok ⟨dir, some name, false⟩ ∧ name :: dir.1 = d.locate path := by
  obtain ⟨⟨dir, name, slash⟩, hplace, -, hname, hslash⟩ := h.opens.place
  obtain ⟨n, hn⟩ := Option.isSome_iff_exists.mp h.named
  dsimp only at hname hslash
  rw [hn] at hname
  rw [h.noSlash] at hslash
  subst hname hslash
  exact ⟨dir, n, hplace, place_location hplace⟩

theorem holds_of_place {d : Disk} {path : String} {p : Place d} (h : d.place path = .ok p) {name : String}
    (hname : p.name = some name) (hslash : p.slash = false) : d.Holds path := by
  obtain ⟨hopens, -, hn, hs⟩ := place_eq_ok.mp h
  exact ⟨hopens, by rw [← hn, hname]; rfl, by rw [← hs, hslash]⟩

theorem becomes_put {d : Disk} {name : String} {dir : d.Directory} {e : Entry}
    (free : d.get? (name :: dir.1) ≠ some .directory) : Becomes d (d.put name dir e free) (name :: dir.1) (some e) :=
  ⟨rfl, fun l => get?_put d name dir e free l⟩

theorem becomes_removeFile {d : Disk} {loc : Location} {f : File} (here : d.get? loc = some (.file f)) :
    Becomes d (d.removeFile loc f here) loc none :=
  ⟨rfl, fun l => get?_removeFile d loc f here l⟩

theorem write_ok {d d' : Disk} {path : String} {bytes : ByteArray} (h : d.write path bytes = .ok d') :
    d.Holds path ∧ d.get? (d.locate path) ≠ some .directory ∧
      Becomes d d' (d.locate path) (some (.file ⟨bytes, modeOf (d.get? (d.locate path))⟩)) := by
  unfold write at h
  cases hplace : d.place path with
  | error e =>
    rw [hplace] at h
    cases h
  | ok p =>
    have hloc := place_location hplace
    obtain ⟨dir, name, slash⟩ := p
    rw [hplace] at h
    simp only [bind, Except.bind] at h
    cases name with
    | none => cases h
    | some name =>
      cases slash with
      | true => cases h
      | false =>
        have hholds := holds_of_place hplace rfl rfl
        simp only [Bool.false_eq_true, ↓reduceIte] at h
        rw [← hloc]
        split at h
        · cases h
        · rename_i f hfile
          cases h
          have hmode : modeOf (d.get? (name :: dir.1)) = f.mode := by rw [hfile]; rfl
          refine ⟨hholds, by simp [Place.location, hfile], ?_⟩
          simpa [Place.location, hmode] using becomes_put (e := .file ⟨bytes, f.mode⟩) _
        · rename_i hnone
          cases h
          have hmode : modeOf (d.get? (name :: dir.1)) = newFileMode := by rw [hnone]; rfl
          refine ⟨hholds, by simp [Place.location, hnone], ?_⟩
          simpa [Place.location, hmode] using becomes_put (e := .file ⟨bytes, newFileMode⟩) _

theorem write_succeeds {d : Disk} {path : String} (bytes : ByteArray) (h : d.Holds path)
    (hfree : d.get? (d.locate path) ≠ some .directory) : ∃ d', d.write path bytes = .ok d' := by
  obtain ⟨dir, name, hplace, hloc⟩ := h.place
  rw [← hloc] at hfree
  unfold write
  rw [hplace]
  simp only [bind, Except.bind, Bool.false_eq_true, ↓reduceIte]
  split
  · contradiction
  · exact ⟨_, rfl⟩
  · exact ⟨_, rfl⟩

theorem makeDir_ok {d d' : Disk} {path : String} (h : d.makeDir path = .ok d') :
    d.Opens path ∧ d.get? (d.locate path) = none ∧ Becomes d d' (d.locate path) (some .directory) := by
  unfold makeDir at h
  cases hplace : d.place path with
  | error e =>
    rw [hplace] at h
    cases h
  | ok p =>
    have hloc := place_location hplace
    have hopens := (place_eq_ok.mp hplace).1
    obtain ⟨dir, name, slash⟩ := p
    rw [hplace] at h
    simp only [bind, Except.bind] at h
    cases name with
    | none => cases h
    | some name =>
      rw [← hloc]
      dsimp only at h
      split at h
      · cases h
      · rename_i hnone
        cases h
        exact ⟨hopens, hnone, becomes_put (e := .directory) _⟩

theorem makeDir_of_isSome {d : Disk} {path : String} (h : d.Opens path) (hthere : (d.get? (d.locate path)).isSome) :
    d.makeDir path = .error .exists := by
  obtain ⟨p, hplace, -⟩ := h.place
  rw [← place_location hplace] at hthere
  obtain ⟨dir, name, slash⟩ := p
  unfold makeDir
  rw [hplace]
  simp only [bind, Except.bind]
  cases name with
  | none => rfl
  | some name =>
    dsimp only
    split
    · rfl
    · rename_i hnone
      simp [Place.location, hnone] at hthere

theorem remove_of_find {d : Disk} {path : String} {r : Found d} (h : d.find path = .ok r) {f : File}
    (hfile : r.entry = .file f) : ∃ d', d.remove path = .ok d' ∧ Becomes d d' (d.locate path) none := by
  have hloc := (find_eq_ok.mp h).2.1
  obtain ⟨loc, e, here⟩ := r
  subst hfile
  dsimp only at hloc
  subst hloc
  refine ⟨d.removeFile _ f here, ?_, becomes_removeFile here⟩
  unfold remove
  rw [h]
  rfl

/-- Setting the mode of what is found fails for nothing and changes files alone. -/
theorem setMode_of_find {d : Disk} {path : String} {r : Found d} (h : d.find path = .ok r) (mode : Nat) :
    ∃ d', d.setMode path mode = .ok d' ∧
      (∀ f, r.entry = .file f → Becomes d d' (d.locate path) (some (.file { f with mode }))) ∧
      (r.entry = .directory → d' = d) := by
  have hloc := (find_eq_ok.mp h).2.1
  obtain ⟨loc, e, here⟩ := r
  unfold setMode
  rw [h]
  simp only [bind, Except.bind]
  rw [← hloc]
  cases e with
  | directory => exact ⟨d, by cases loc <;> rfl, fun f hf => (by cases hf), fun _ => rfl⟩
  | file f =>
    cases loc with
    | nil => simp at here
    | cons name dir =>
      refine ⟨_, rfl, fun g hg => ?_, fun hdir => by cases hdir⟩
      cases hg
      exact becomes_put (e := .file { f with mode }) _

theorem becomes_moveFile {d : Disk} {loc : Location} {f : File} (here : d.get? loc = some (.file f)) {name : String}
    {dir : d.Directory} (free : d.get? (name :: dir.1) ≠ some .directory) :
    ∃ mid, Becomes d mid loc none ∧
      Becomes mid (d.moveFile loc f here name dir free) (name :: dir.1) (some (.file f)) := by
  refine ⟨d.removeFile loc f here, becomes_removeFile here, ?_⟩
  unfold moveFile
  exact @becomes_put _ name ⟨dir.1, _⟩ (.file f) _

theorem rename_ok {d d' : Disk} {source target : String} (h : d.rename source target = .ok d') :
    ∃ f mid, d.get? (d.locate source) = some (.file f) ∧ d.Holds target ∧
      d.get? (d.locate target) ≠ some .directory ∧
      Becomes d mid (d.locate source) none ∧ Becomes mid d' (d.locate target) (some (.file f)) := by
  unfold rename at h
  cases hfind : d.find source with
  | error e =>
    rw [hfind] at h
    cases h
  | ok r =>
    have hsource := (find_eq_ok.mp hfind).2.1
    obtain ⟨loc, e, here⟩ := r
    rw [hfind] at h
    simp only [bind, Except.bind] at h
    cases e with
    | directory => cases h
    | file f =>
      cases hplace : d.place target with
      | error e =>
        rw [hplace] at h
        cases h
      | ok p =>
        have hloc := place_location hplace
        obtain ⟨dir, name, slash⟩ := p
        rw [hplace] at h
        cases name with
        | none => cases h
        | some name =>
          dsimp only at h
          split at h
          · cases h
          · rename_i hfree
            cases slash with
            | true => cases h
            | false =>
              simp only [Bool.false_eq_true, ↓reduceIte] at h
              cases h
              obtain ⟨mid, hmid, hmoved⟩ := becomes_moveFile here hfree
              rw [← hloc, ← hsource]
              exact ⟨f, mid, here, holds_of_place hplace rfl rfl, hfree, hmid, hmoved⟩

theorem rename_succeeds {d : Disk} {source target : String} {r : Found d} (hsource : d.find source = .ok r) {f : File}
    (hfile : r.entry = .file f) (htarget : d.Holds target) (hfree : d.get? (d.locate target) ≠ some .directory) :
    ∃ d', d.rename source target = .ok d' := by
  obtain ⟨dir, name, hplace, hloc⟩ := htarget.place
  obtain ⟨loc, e, here⟩ := r
  subst hfile
  rw [← hloc] at hfree
  unfold rename
  rw [hsource]
  simp only [bind, Except.bind]
  rw [hplace]
  dsimp only
  split
  · contradiction
  · exact ⟨_, rfl⟩

/-! ### Files -/

/-- The file at a location, if one stands there. -/
def file? (d : Disk) (loc : Location) : Option File :=
  match d.get? loc with
  | some (.file f) => some f
  | _ => none

theorem file?_eq_some {d : Disk} {loc : Location} {f : File} : d.file? loc = some f ↔ d.get? loc = some (.file f) := by
  unfold file?
  split <;> simp_all

theorem file?_eq_of_get? {d d' : Disk} {loc : Location} (h : d'.get? loc = d.get? loc) : d'.file? loc = d.file? loc := by
  rw [file?, h, file?]

/-! ### Directories on the way -/

/-- `d'` is `d` with directories at some of the locations `stops`, where nothing was. -/
structure Grows (stops : Location → Prop) (d d' : Disk) : Prop where
  current : d'.current = d.current
  get? : ∀ l, d'.get? l = d.get? l ∨ (stops l ∧ d.get? l = none ∧ d'.get? l = some .directory)

namespace Grows
variable {stops stops' : Location → Prop} {d d' d'' : Disk}

theorem refl (d : Disk) : Grows stops d d := ⟨rfl, fun _ => Or.inl rfl⟩

theorem trans (h : Grows stops d d') (h' : Grows stops d' d'') : Grows stops d d'' where
  current := h'.current.trans h.current
  get? l := by
    rcases h'.get? l with heq | ⟨hstop, hnone, hdir⟩
    · rw [heq]
      exact h.get? l
    · rcases h.get? l with heq | ⟨-, -, hdir'⟩
      · exact Or.inr ⟨hstop, heq ▸ hnone, hdir⟩
      · rw [hnone] at hdir'
        cases hdir'

theorem mono (h : Grows stops d d') (hsub : ∀ l, stops l → stops' l) : Grows stops' d d' :=
  ⟨h.current, fun l => (h.get? l).imp id fun ⟨hstop, hrest⟩ => ⟨hsub l hstop, hrest⟩⟩

theorem keeps (h : Grows stops d d') : Keeps d d' :=
  ⟨h.current, fun l hl => (h.get? l).elim (fun heq => heq.trans hl) fun hnew => hnew.2.2⟩

end Grows

/-- A path at whose end there is a directory. -/
def IsDirectoryAt (d : Disk) (path : String) : Prop := d.Opens path ∧ d.get? (d.locate path) = some .directory

theorem IsDirectoryAt.keep {d d' : Disk} {path : String} (h : d.IsDirectoryAt path) (hk : Keeps d d') :
    d'.IsDirectoryAt path :=
  ⟨hk.opens h.1, hk.locate path ▸ hk.directory _ h.2⟩

theorem find_of_isDirectoryAt {d : Disk} {path : String} (h : d.IsDirectoryAt path) :
    d.find path = .ok ⟨d.locate path, .directory, h.2⟩ :=
  find_eq_ok.mpr ⟨h.1, rfl, fun _ => rfl⟩

theorem kind?_of_ok {d : Disk} {path : String} {r : d.Found} (h : d.find path = .ok r) :
    (Access.kind? path : StateM Disk (Option EntryKind)) d = (some (kindOf r.entry), d) := by
  simp only [Access.kind?, ask, h]

theorem kind?_of_error {d : Disk} {path : String} {e : Failure} (h : d.find path = .error e) :
    (Access.kind? path : StateM Disk (Option EntryKind)) d = (none, d) := by
  simp only [Access.kind?, ask, h]

theorem read_of_file {d : Disk} {path : String} {r : d.Found} {f : File} (h : d.find path = .ok r)
    (hf : r.entry = .file f) : d.read path = .ok f.bytes := by
  simp only [read, h, bind, Except.bind, hf]
  rfl

theorem read_of_directory {d : Disk} {path : String} {r : d.Found} (h : d.find path = .ok r)
    (hd : r.entry = .directory) : d.read path = .error .isDirectory := by
  simp only [read, h, bind, Except.bind, hd]
  rfl

theorem read_of_error {d : Disk} {path : String} {e : Failure} (h : d.find path = .error e) :
    d.read path = .error e := by
  simp only [read, h, bind, Except.bind]

theorem isDirectory_run (d : Disk) (path : String) :
    ∃ b, (isDirectory path : StateM Disk Bool) d = (b, d) ∧ (b = true ↔ d.IsDirectoryAt path) := by
  unfold isDirectory
  rw [bind_run]
  cases hfind : d.find path with
  | error e =>
    rw [kind?_of_error hfind]
    refine ⟨false, rfl, nofun, fun h => ?_⟩
    rw [find_of_isDirectoryAt h] at hfind
    cases hfind
  | ok r =>
    rw [kind?_of_ok hfind]
    refine ⟨_, rfl, ?_⟩
    rw [decide_eq_true_iff]
    constructor
    · intro h
      obtain ⟨hopens, hloc, -⟩ := find_eq_ok.mp hfind
      obtain ⟨loc, e, here⟩ := r
      cases e with
      | file f => cases h
      | directory => exact ⟨hopens, hloc ▸ here⟩
    · intro h
      rw [find_of_isDirectoryAt h, Except.ok.injEq] at hfind
      rw [← hfind]
      rfl

theorem change_run (step : Disk → Except Failure Disk) (d : Disk) :
    change step d =
      match step d with
      | .ok d' => (.ok (), d')
      | .error e => (.error e, d) := rfl

theorem acceptDirectory_run (d : Disk) (path : String) (e : Failure) :
    ∃ r, (do if ← isDirectory path then return .ok () else return .error e :
        StateM Disk (Except Failure Unit)) d = (r, d) ∧ (r = .ok () ↔ d.IsDirectoryAt path) := by
  obtain ⟨b, hrun, hb⟩ := isDirectory_run d path
  cases b with
  | true => exact ⟨.ok (), by rw [bind_run, hrun]; rfl, by simpa using hb⟩
  | false => exact ⟨.error e, by rw [bind_run, hrun]; rfl, by simpa using hb⟩

theorem Grows.makeDir {stops : Location → Prop} {d d₁ d₂ : Disk} {path : String} (h : Grows stops d d₁)
    (hmake : d₁.makeDir path = .ok d₂) (hstop : stops (d.locate path)) : Grows stops d d₂ ∧ d₂.IsDirectoryAt path := by
  obtain ⟨hopens, hnone, hbecomes⟩ := makeDir_ok hmake
  have hkeeps := hbecomes.keeps (by simp [hnone])
  refine ⟨h.trans ⟨hbecomes.current, fun l => ?_⟩, hkeeps.opens hopens, hkeeps.locate path ▸ hbecomes.get?_self⟩
  by_cases hl : l = d₁.locate path
  · subst hl
    exact Or.inr ⟨h.keeps.locate path ▸ hstop, hnone, hbecomes.get?_self⟩
  · exact Or.inl (hbecomes.get?_of_ne hl)

/-- Making directories adds missing ones at the given paths alone; if it succeeds the first is there. -/
theorem makeFirstDir_run : ∀ (paths : List String) (d : Disk), ∃ r d',
    (makeFirstDir paths : StateM Disk (Except Failure Unit)) d = (r, d') ∧
      Grows (fun l => ∃ q ∈ paths, l = d.locate q) d d' ∧
      (r = .ok () → ∀ first, paths.head? = some first → first = "" ∨ d'.IsDirectoryAt first)
  | [], d => ⟨.ok (), d, rfl, Grows.refl d, by simp⟩
  | path :: around, d => by
    by_cases hempty : path = ""
    · exact ⟨.ok (), d, by simp [makeFirstDir, hempty], Grows.refl d, by simp [hempty]⟩
    have hcond : path.isEmpty = false := by simpa using hempty
    have hstop : ∃ q ∈ path :: around, d.locate path = d.locate q := ⟨path, List.mem_cons_self .., rfl⟩
    unfold makeFirstDir
    simp only [hcond, Bool.false_eq_true, ↓reduceIte, bind_run, Access.makeDir, change_run]
    cases hfirst : d.makeDir path with
    | ok d₁ =>
      have hsame : Grows (fun l => ∃ q ∈ path :: around, l = d.locate q) d d := Grows.refl d
      obtain ⟨hgrows, hthere⟩ := hsame.makeDir hfirst hstop
      exact ⟨.ok (), d₁, rfl, hgrows, fun _ first hhead => by cases hhead; exact Or.inr hthere⟩
    | error e =>
      by_cases hmissing : e = .notFound
      · subst hmissing
        -- the directory around it is made first, and then this one is tried again
        obtain ⟨r, d₁, hrun, hgrows, -⟩ := makeFirstDir_run around d
        have hgrows' : Grows (fun l => ∃ q ∈ path :: around, l = d.locate q) d d₁ :=
          hgrows.mono fun l ⟨q, hq, hl⟩ => ⟨q, List.mem_cons_of_mem _ hq, hl⟩
        simp only [bind_run, hrun]
        cases r with
        | error e => exact ⟨.error e, d₁, rfl, hgrows', by simp⟩
        | ok _ =>
          simp only [bind_run, change_run]
          cases hsecond : d₁.makeDir path with
          | ok d₂ =>
            obtain ⟨hgrows₂, hthere⟩ := hgrows'.makeDir hsecond hstop
            exact ⟨.ok (), d₂, rfl, hgrows₂, fun _ first hhead => by cases hhead; exact Or.inr hthere⟩
          | error e =>
            obtain ⟨r, hrun, hr⟩ := acceptDirectory_run d₁ path e
            exact ⟨r, d₁, hrun, hgrows', fun hok first hhead => by cases hhead; exact Or.inr (hr.mp hok)⟩
      · obtain ⟨r, hrun, hr⟩ := acceptDirectory_run d path e
        refine ⟨r, d, ?_, Grows.refl d, fun hok first hhead => by cases hhead; exact Or.inr (hr.mp hok)⟩
        rw [← hrun]
        cases e <;> first | rfl | exact absurd rfl hmissing

/-- A location on the way of a path. -/
def OnWay (d : Disk) (path : String) (loc : Location) : Prop :=
  ∃ front, front <+: parts path.toList ∧ loc = walk (d.start path) front

/-- What is no directory on the way of a path is the end of the path or lies around it, if the path climbs only out
    of directories that are there. -/
theorem OnWay.suffix_of_not_directory {d : Disk} {path : String} {loc : Location} (h : d.OnWay path loc)
    (hclimb : d.Climbable path) (hno : d.get? loc ≠ some .directory) : loc <:+ d.locate path := by
  obtain ⟨front, ⟨back, hback⟩, rfl⟩ := h
  rw [locate, ← hback, walk_append]
  refine suffix_walk fun hmem => ?_
  obtain ⟨inner, rest, rfl, hfirst⟩ := List.eq_append_cons_of_mem hmem
  have hdir := hclimb (front ++ inner) rest (by rw [← hback]; simp)
  rw [walk_append] at hdir
  by_cases heq : walk (d.start path) front = walk (walk (d.start path) front) inner
  · exact hno (heq ▸ hdir)
  · exact hno (isDirectory_of_suffix (suffix_walk hfirst) (by simp [hdir]) heq)

theorem OnWay.suffix_of_missing {d : Disk} {path : String} {loc : Location} (h : d.OnWay path loc)
    (hclimb : d.Climbable path) (hnone : d.get? loc = none) : loc <:+ d.locate path :=
  h.suffix_of_not_directory hclimb (by simp [hnone])

theorem makeDirs_run (path : String) (d : Disk) : ∃ r d',
    (makeDirs path : StateM Disk (Except Failure Unit)) d = (r, d') ∧ Grows (d.OnWay path) d d' ∧
      (r = .ok () → path = "" ∨ d'.IsDirectoryAt path) := by
  obtain ⟨r, d', hrun, hgrows, hok⟩ := makeFirstDir_run (ancestors path) d
  refine ⟨r, d', hrun, hgrows.mono fun l ⟨q, hq, hl⟩ => ?_, fun hr => hok hr path rfl⟩
  rcases List.mem_cons.mp hq with rfl | hq
  · exact ⟨_, List.prefix_refl _, hl⟩
  · obtain ⟨hparts, habs⟩ := mem_parents hq
    exact ⟨_, hparts, by rw [hl, locate, start_of_isAbsolute_iff habs]⟩

theorem makeDirs_of_isDirectoryAt {d : Disk} {path : String} (h : path = "" ∨ d.IsDirectoryAt path) :
    (makeDirs path : StateM Disk (Except Failure Unit)) d = (.ok (), d) := by
  unfold makeDirs ancestors makeFirstDir
  rcases h with rfl | h
  · rfl
  by_cases hempty : path = ""
  · simp [hempty]
  have hcond : path.isEmpty = false := by simpa using hempty
  have hmake := makeDir_of_isSome h.1 (by simp [h.2])
  obtain ⟨r, hrun, hr⟩ := acceptDirectory_run d path .exists
  rw [hr.mpr h] at hrun
  simp only [hcond, Bool.false_eq_true, ↓reduceIte, bind_run, Access.makeDir, change_run, hmake]
  exact hrun

theorem onWay_of_parent? {d : Disk} {path parent : String} (h : parent? path = some parent) {loc : Location}
    (hloc : d.OnWay parent loc) : d.OnWay path loc := by
  obtain ⟨front, hfront, rfl⟩ := hloc
  obtain ⟨hparts, habs⟩ := mem_parents (List.mem_of_head? h)
  exact ⟨front, hfront.trans hparts, by rw [start_of_isAbsolute_iff habs]⟩

end Scaffold.Disk
