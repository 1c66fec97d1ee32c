import Scaffold.GoModule.Detect
import Scaffold.Proofs.Disk.Ancestors
import Scaffold.Proofs.Output.Write

/-! Detecting the module of a directory (`detect_nearest`). The nearest `go.mod` in the directory or around it decides,
    whatever it says, and `GOPATH` only where there is none at all. So below a directory in which nothing else decides
    the same `go.mod`, or `GOPATH`, goes on deciding, and the names on the way are added to the import path. A `go.mod`
    whose path is too long does not count (`detect_unreached`). -/

namespace Scaffold.GoModule
open Disk Scaffold.Path

/-- A detection on a disk. -/
abbrev Detecting := StateM Disk (Except DetectError ModuleRoot)

/-- The search for a `go.mod` on a disk. -/
abbrev Searching := StateM Disk (Except DetectError (Option ModuleRoot))

/-- What decides on an import path is the same, however its path is spelled. -/
def Source.Same : Source → Source → Prop
  | .goMod file, .goMod other => components file = components other
  | .goPath sourceDir, .goPath other => sourceDir = other
  | _, _ => False

/-! ### The nearest `go.mod` -/

/-- There is no `go.mod` in the directories that names lead to from a location, the last name first. -/
def Bare (d : Disk) (inner around : Location) : Prop :=
  ∀ names, names <:+ inner → names ≠ [] → d.get? ("go.mod" :: (names ++ around)) = none

instance (d : Disk) (inner around : Location) : Decidable (Bare d inner around) :=
  decidable_of_iff (∀ names ∈ inner.tails, names ≠ [] → d.get? ("go.mod" :: (names ++ around)) = none)
    (forall_congr' fun _ => by rw [List.mem_tails])

/-- There is no `go.mod` at a location or around it. -/
def Nowhere (d : Disk) (loc : Location) : Prop := ∀ around, around <:+ loc → d.get? ("go.mod" :: around) = none

/-- The `go.mod` that is nearest to the location that the names `inner` lead to from `around` is the one at `around`. -/
structure Nearest (d : Disk) (inner around : Location) (e : Entry) : Prop where
  here : d.get? ("go.mod" :: around) = some e
  bare : Bare d inner around

/-- What a `go.mod` in a directory says about the directory that names lead to from there. -/
def verdict (dir : String) (inner : Location) : Entry → Except DetectError ModuleRoot
  | .directory => .error (.io .isDirectory)
  | .file f =>
    match Text.decode? f.bytes with
    | none => .error (.io .notText)
    | some text =>
      match directive? text with
      | none => .error (.noDirective (join dir "go.mod"))
      | some base =>
        .ok ⟨"/".intercalate (String.ofList (Text.dropEndWhile (· = '/') base.toList) :: inner.reverse),
          .goMod (join dir "go.mod")⟩

/-- What `GOPATH` says about a path: the names on it below the source directory are its import path. -/
inductive Fallback (path : String) : Option String → Except DetectError ModuleRoot → Prop
  | inside {gopath : String} {names : List (List Char)} (hne : names ≠ [])
      (h : components path = components (join gopath "src") ++ names.map .name) :
      Fallback path (some gopath) (.ok ⟨"/".intercalate (names.map String.ofList), .goPath (join gopath "src")⟩)
  | outside {gopath : Option String} (h : ∀ g ∈ gopath, ¬Inside (join g "src") path) :
      Fallback path gopath (.error (.noModule path))

/-- The nearest `go.mod` decides on a path, and `GOPATH` where there is none. -/
inductive Decided (d : Disk) (path : String) (gopath : Option String) : Except DetectError ModuleRoot → Prop
  | nearest {dir : String} {inner : Location} {e : Entry} (hdir : dir ∈ ancestors path)
      (hloc : d.locate path = inner ++ d.locate dir) (h : Nearest d inner (d.locate dir) e) :
      Decided d path gopath (verdict dir inner e)
  | nowhere {r : Except DetectError ModuleRoot} (h : Nowhere d (d.locate path)) (hr : Fallback path gopath r) :
      Decided d path gopath r

/-- The nearest `go.mod` has a path that is not too long. -/
def InReach (d : Disk) (path : String) : Prop :=
  ∀ dir ∈ ancestors path, ∀ inner e, d.locate path = inner ++ d.locate dir → Nearest d inner (d.locate dir) e →
    (join dir "go.mod").utf8ByteSize < maxPathSize

section
variable {d : Disk} {inner outer around : Location} {e : Entry}

theorem bare_cons (name : String) : Bare d (name :: inner) around ↔
    d.get? ("go.mod" :: name :: (inner ++ around)) = none ∧ Bare d inner around := by
  constructor
  · exact fun h => ⟨h _ (List.suffix_refl _) (List.cons_ne_nil _ _), fun names hsuffix =>
      h names (hsuffix.trans (List.suffix_cons ..))⟩
  · rintro ⟨hfirst, hrest⟩ names hsuffix hne
    rcases List.suffix_cons_iff.mp hsuffix with rfl | hsuffix
    · exact hfirst
    · exact hrest names hsuffix hne

theorem bare_append : Bare d (inner ++ outer) around ↔ Bare d inner (outer ++ around) ∧ Bare d outer around := by
  induction inner with
  | nil => simp [Bare]
  | cons name inner ih => simp only [List.cons_append, bare_cons, ih, List.append_assoc, and_assoc]

theorem nowhere_cons (name : String) : Nowhere d (name :: outer) ↔
    d.get? ("go.mod" :: name :: outer) = none ∧ Nowhere d outer := by
  constructor
  · exact fun h => ⟨h _ (List.suffix_refl _), fun around hsuffix => h around (hsuffix.trans (List.suffix_cons ..))⟩
  · rintro ⟨hfirst, hrest⟩ around hsuffix
    rcases List.suffix_cons_iff.mp hsuffix with rfl | hsuffix
    · exact hfirst
    · exact hrest around hsuffix

theorem nowhere_append : Nowhere d (inner ++ outer) ↔ Bare d inner outer ∧ Nowhere d outer := by
  induction inner with
  | nil => simp [Bare]
  | cons name inner ih => rw [List.cons_append, nowhere_cons, ih, bare_cons, and_assoc]

theorem bare_nil (d : Disk) (around : Location) : Bare d [] around :=
  fun _ hsuffix hne => absurd (List.suffix_nil.mp hsuffix) hne

theorem nearest_or_nowhere (d : Disk) : ∀ loc : Location,
    (∃ inner around e, loc = inner ++ around ∧ Nearest d inner around e) ∨ Nowhere d loc
  | [] => by
    cases hroot : d.get? ["go.mod"] with
    | some e => exact Or.inl ⟨[], [], e, rfl, hroot, bare_nil d []⟩
    | none => exact Or.inr fun around hsuffix => by rwa [List.suffix_nil.mp hsuffix]
  | name :: loc => by
    cases hfirst : d.get? ("go.mod" :: name :: loc) with
    | some e => exact Or.inl ⟨[], name :: loc, e, rfl, hfirst, bare_nil d _⟩
    | none =>
      rcases nearest_or_nowhere d loc with ⟨inner, around, e, rfl, h⟩ | h
      · exact Or.inl ⟨name :: inner, around, e, rfl, h.here, (bare_cons name).mpr ⟨hfirst, h.bare⟩⟩
      · exact Or.inr ((nowhere_cons name).mpr ⟨hfirst, h⟩)

end

/-! ### Import paths -/

section
variable {path dir base gopath : String} {inner : Location}

theorem directive?_ne_empty {content : String} (h : directive? content = some base) : base ≠ "" := by
  obtain ⟨s, hs, rfl⟩ := Option.map_eq_some_iff.mp h
  obtain ⟨line, -, hline⟩ := List.exists_of_findSome?_eq_some hs
  unfold directiveOf? at hline
  split at hline
  · split at hline
    · split at hline
      · cases hline
      · next hpath =>
        cases hline
        simpa using hpath
    · cases hline
  · cases hline

theorem names_map_name (ps : List (List Char)) : names (ps.map .name) = ps := by
  simp [names]

theorem intercalate_cons_ne_empty {name : String} (h : name ≠ "") : ∀ names : List String,
    "/".intercalate (name :: names) ≠ ""
  | [] => by simpa using h
  | next :: names => by simp [String.intercalate_cons_cons, h]

theorem importPath_of_names (base : String) (ps : List (List Char)) : importPath base (ps.map .name) =
    "/".intercalate ((if base.isEmpty then [] else [String.ofList (Text.dropEndWhile (· = '/') base.toList)]) ++
      ps.map String.ofList) := by
  rw [← String.toList_inj, toList_intercalate, importPath, names_map_name, String.toList_ofList]
  congr 1
  split <;> simp

theorem below?_of_names {ps : List (List Char)} (h : components path = components base ++ ps.map .name) :
    below? base path = some (ps.map .name) := by
  rw [below?, h, Text.dropStart?_append]

theorem below?_of_locate {d : Disk} (hpath : Upright path) (hdir : Upright dir)
    (h : d.locate path = inner ++ d.locate dir) : below? dir path = some ((inner.reverse.map String.toList).map .name) := by
  refine below?_of_names ?_
  rw [hpath.components_of_locate d, hdir.components_of_locate d, h]
  simp

theorem underGoPath?_cases (hpath : Upright path) (gopath : String) :
    (∃ names, names ≠ [] ∧ components path = components (join gopath "src") ++ names.map .name ∧
      underGoPath? path gopath = some ⟨"/".intercalate (names.map String.ofList), .goPath (join gopath "src")⟩) ∨
    (¬Inside (join gopath "src") path ∧ underGoPath? path gopath = none) := by
  cases hbelow : below? (join gopath "src") path with
  | none =>
    refine Or.inr ⟨fun ⟨names, _, hinside⟩ => ?_, by simp only [underGoPath?, hbelow]⟩
    rw [below?_of_names hinside] at hbelow
    cases hbelow
  | some rel =>
    -- the source directory has a component, so that what is left are names of the path
    have hcut := Text.dropStart?_eq_some hbelow
    have hsource : components (join gopath "src") = components gopath ++ [.name ['s', 'r', 'c']] :=
      components_join ⟨by decide, by decide⟩
    obtain ⟨c, cs, hcs⟩ : ∃ c cs, components (join gopath "src") = c :: cs :=
      List.exists_cons_of_ne_nil (by simp [hsource])
    obtain ⟨front, names, hparts, rfl⟩ : ∃ front names, parts path.toList = front ++ names ∧ names.map .name = rel := by
      rw [hcs, hpath.components_eq, List.cons_append] at hcut
      obtain ⟨front, names, hparts, -, hnames⟩ := List.map_eq_append_iff.mp (List.cons.inj hcut).2
      exact ⟨front, names, hparts, hnames⟩
    have hfound := importPath_of_names "" names
    have hempty : ("" : String).isEmpty = true := rfl
    rw [if_pos hempty, List.nil_append] at hfound
    by_cases hne : names = []
    · refine Or.inr ⟨fun ⟨others, hothers, hinside⟩ => hothers ?_, ?_⟩
      · rw [hne] at hcut
        simpa using hcut.symm.trans hinside
      · simp only [underGoPath?, hbelow, hne]
        rfl
    · refine Or.inl ⟨names, hne, hcut, ?_⟩
      obtain ⟨p, ps, rfl⟩ := List.exists_cons_of_ne_nil hne
      have hp : p ≠ [] := ne_nil_of_mem_parts (by rw [hparts]; simp)
      have hnotEmpty : ("/".intercalate ((p :: ps).map String.ofList)).isEmpty = false :=
        String.isEmpty_eq_false_iff.mpr (intercalate_cons_ne_empty (by simpa using hp) _)
      simp only [underGoPath?, hbelow, hfound, hnotEmpty]
      rfl

theorem fallback_run (hpath : Upright path) (gopath : Option String) :
    Fallback path gopath (match gopath.bind (underGoPath? path) with
      | some found => .ok found
      | none => .error (.noModule path)) := by
  cases gopath with
  | none => exact .outside nofun
  | some gopath =>
    rw [Option.bind_some]
    rcases underGoPath?_cases hpath gopath with ⟨names, hne, h, hfound⟩ | ⟨h, hnone⟩
    · rw [hfound]
      exact .inside hne h
    · rw [hnone]
      exact .outside fun g hg => Option.some.inj hg ▸ h

end

/-! ### The search -/

section
variable {d : Disk} {path dir : String} {inner around : Location} {e : Entry}

theorem fileName_goMod : FileName "go.mod" := by decide +kernel

theorem locate_goMod (d : Disk) (dir : String) : d.locate (join dir "go.mod") = "go.mod" :: d.locate dir :=
  locate_join fileName_goMod.noSlash fileName_goMod.notEmpty fileName_goMod.notDots

theorem find_goMod (h : d.Named) (hdir : Upright dir) (hthere : d.get? ("go.mod" :: d.locate dir) = some e)
    (hshort : (join dir "go.mod").utf8ByteSize < maxPathSize) : ∃ r, d.find (join dir "go.mod") = .ok r ∧ r.entry = e := by
  have hne : dir ≠ "" := fun hempty => by
    have habs := hdir.absolute
    rw [hempty] at habs
    cases habs
  have hdirectory : d.IsDirectoryAt dir :=
    isDirectoryAt_of_get? h hne (Nat.lt_trans (size_join fileName_goMod dir) hshort)
      (fun hup => hdir.straight _ hup (Or.inr rfl)) (d.parent_isDirectory hthere)
  exact find_join hdirectory fileName_goMod hshort hthere

theorem fromGoMod_of_not_found {rest : List String} (h : ¬∃ r, d.find (join dir "go.mod") = .ok r) :
    (fromGoMod path (dir :: rest) : Searching) d = (fromGoMod path rest : Searching) d := by
  obtain ⟨there, hrun, hiff⟩ := Output.isThere_run (join dir "go.mod") d
  obtain rfl : there = false := by simpa using fun htrue => h (hiff.mp htrue)
  rw [fromGoMod]
  simp only [bind_run, hrun, Bool.not_false, ↓reduceIte]

theorem not_found_of_none (h : d.get? ("go.mod" :: d.locate dir) = none) : ¬∃ r, d.find (join dir "go.mod") = .ok r := by
  rintro ⟨r, hr⟩
  obtain ⟨-, hloc, -⟩ := find_eq_ok.mp hr
  have hhere := r.here
  rw [hloc, locate_goMod, h] at hhere
  cases hhere

theorem fromGoMod_of_nowhere : ∀ {dirs : List String}, (∀ dir ∈ dirs, d.get? ("go.mod" :: d.locate dir) = none) →
    (fromGoMod path dirs : Searching) d = (.ok none, d)
  | [], _ => rfl
  | dir :: dirs, h => by
    obtain ⟨hdir, hrest⟩ := List.forall_mem_cons.mp h
    rw [fromGoMod_of_not_found (not_found_of_none hdir), fromGoMod_of_nowhere hrest]

theorem fromGoMod_here {rest : List String} (hpath : Upright path) (hdir : Upright dir)
    (hloc : d.locate path = inner ++ d.locate dir) {r : d.Found} (hfind : d.find (join dir "go.mod") = .ok r) :
    (fromGoMod path (dir :: rest) : Searching) d = ((verdict dir inner r.entry).map some, d) := by
  obtain ⟨there, hrun, hiff⟩ := Output.isThere_run (join dir "go.mod") d
  obtain rfl : there = true := hiff.mpr ⟨r, hfind⟩
  rw [fromGoMod]
  simp only [bind_run, hrun, Bool.not_true, Bool.false_eq_true, ↓reduceIte, Output.readText_run]
  cases hentry : r.entry with
  | directory =>
    rw [read_of_directory hfind hentry]
    rfl
  | file f =>
    rw [read_of_file hfind hentry, verdict]
    cases htext : Text.decode? f.bytes with
    | none =>
      simp only [Except.bind, htext]
      rfl
    | some text =>
      simp only [Except.bind, htext, Option.elim_some]
      cases hbase : directive? text with
      | none => rfl
      | some base =>
        have hne : base.isEmpty = false := String.isEmpty_eq_false_iff.mpr (directive?_ne_empty hbase)
        simp only [below?_of_locate hpath hdir hloc, Option.getD_some, importPath_of_names, hne, Except.map]
        simp

/-- The first of some directories that stand in each other and has a `go.mod` decides. -/
theorem fromGoMod_of_nearest (h : d.Named) (hpath : Upright path) (hloc : d.locate path = inner ++ around)
    (hthere : d.get? ("go.mod" :: around) = some e) : ∀ {dirs : List String} {names : Location},
      (∀ dir ∈ dirs, Upright dir) → dirs.map d.locate = (names ++ around).tails → Bare d names around →
      (∀ dir ∈ dirs, d.locate dir = around → (join dir "go.mod").utf8ByteSize < maxPathSize) →
      ∃ dir ∈ dirs, d.locate dir = around ∧
        (fromGoMod path dirs : Searching) d = ((verdict dir inner e).map some, d)
  | dirs, [], hupright, hdirs, _, hshort => by
    have htails : around.tails = around :: around.tails.tail := by cases around <;> rfl
    rw [List.nil_append, htails] at hdirs
    obtain ⟨dir, rest, rfl, hat, -⟩ := List.map_eq_cons_iff.mp hdirs
    have hdir := hupright dir List.mem_cons_self
    obtain ⟨r, hfind, rfl⟩ := find_goMod h hdir (hat ▸ hthere) (hshort dir List.mem_cons_self hat)
    exact ⟨dir, List.mem_cons_self, hat, fromGoMod_here hpath hdir (hat ▸ hloc) hfind⟩
  | dirs, name :: names, hupright, hdirs, hbare, hshort => by
    obtain ⟨hfirst, hbare⟩ := (bare_cons name).mp hbare
    obtain ⟨dir, rest, rfl, hat, hrest⟩ := List.map_eq_cons_iff.mp hdirs
    obtain ⟨-, hupright⟩ := List.forall_mem_cons.mp hupright
    obtain ⟨-, hshort⟩ := List.forall_mem_cons.mp hshort
    obtain ⟨other, hmem, hother, hrun⟩ := fromGoMod_of_nearest h hpath hloc hthere hupright hrest hbare hshort
    refine ⟨other, List.mem_cons_of_mem _ hmem, hother, ?_⟩
    rw [fromGoMod_of_not_found (not_found_of_none (hat ▸ hfirst)), hrun]

theorem detect_of_nearest (h : d.Named) (hpath : Upright path) (hloc : d.locate path = inner ++ around)
    (hnear : Nearest d inner around e)
    (hshort : ∀ dir ∈ ancestors path, d.locate dir = around → (join dir "go.mod").utf8ByteSize < maxPathSize)
    (gopath : Option String) : ∃ dir ∈ ancestors path, d.locate dir = around ∧
      (detect path gopath : Detecting) d = (verdict dir inner e, d) := by
  have hdirs := map_locate_ancestors hpath d
  rw [hloc] at hdirs
  obtain ⟨dir, hdir, hat, hrun⟩ := fromGoMod_of_nearest h hpath hloc hnear.here (fun dir hdir => hpath.ancestor hdir)
    hdirs hnear.bare hshort
  refine ⟨dir, hdir, hat, ?_⟩
  unfold detect
  rw [bind_run, hrun]
  cases verdict dir inner e <;> rfl

theorem detect_of_nowhere (hpath : Upright path) (hnowhere : Nowhere d (d.locate path)) (gopath : Option String) :
    ∃ r, (detect path gopath : Detecting) d = (r, d) ∧ Fallback path gopath r := by
  have hnone : ∀ dir ∈ ancestors path, d.get? ("go.mod" :: d.locate dir) = none := fun dir hdir => by
    exact hnowhere _ (locate_suffix hpath d hdir)
  refine ⟨_, ?_, fallback_run hpath gopath⟩
  unfold detect
  rw [bind_run, fromGoMod_of_nowhere hnone]
  cases gopath.bind (underGoPath? path) <;> rfl

end

/-! ### Going on below a directory -/

section
variable {d : Disk} {path rel i : String} {s : Source} {gopath : Option String} {inner : Location} {e : Entry}

theorem intercalate_append {names more : List String} (hne : names ≠ []) (hmore : more ≠ []) :
    "/".intercalate (names ++ more) = "/".intercalate names ++ "/" ++ "/".intercalate more := by
  have hnames : names.map String.toList ≠ [] := by simpa using hne
  have hothers : more.map String.toList ≠ [] := by simpa using hmore
  rw [← String.toList_inj]
  simp only [String.toList_append, toList_intercalate, List.map_append, Text.joinWith_append _ hnames hothers]
  rfl

/-- A `go.mod` that gives an import path gives one for all directories that it decides on, with the names on the way. -/
theorem verdict_eq_ok {dir : String} (h : verdict dir inner e = .ok ⟨i, s⟩) : ∃ base,
    i = "/".intercalate (base :: inner.reverse) ∧ s = .goMod (join dir "go.mod") ∧
      ∀ other names, verdict other names e =
        .ok ⟨"/".intercalate (base :: names.reverse), .goMod (join other "go.mod")⟩ := by
  unfold verdict at h
  split at h
  · cases h
  split at h
  · cases h
  next htext =>
  split at h
  · cases h
  next hbase =>
  cases h
  exact ⟨_, rfl, rfl, fun other names => by simp only [verdict, htext, hbase]⟩

theorem Fallback.goes_on {r : Except DetectError ModuleRoot} {other : String} {more : List (List Char)}
    (h : Fallback path gopath (.ok ⟨i, s⟩)) (hother : Fallback other gopath r)
    (hcomponents : components other = components path ++ more.map .name) (hmore : more ≠ []) :
    r = .ok ⟨i ++ "/" ++ "/".intercalate (more.map String.ofList), s⟩ := by
  cases h with
  | @inside g names hne h =>
    rw [h, List.append_assoc, ← List.map_append] at hcomponents
    cases hother with
    | @inside _ others _ hothers =>
      obtain rfl : others = names ++ more := by
        rw [hothers, List.append_cancel_left_eq] at hcomponents
        exact List.map_injective_iff.mpr (fun _ _ h => Component.name.inj h) hcomponents
      rw [List.map_append, intercalate_append (by simpa using hne) (by simpa using hmore)]
    | outside houtside => exact absurd ⟨names ++ more, by simp [hne], hcomponents⟩ (houtside g rfl)

theorem components_join_eq (hpath : Upright path) (hrel : Ordinary rel) :
    components (join path rel) = components path ++ (parts rel.toList).map .name := by
  rw [(hpath.join hrel).components_eq, hpath.components_eq, parts_join hrel.relative, List.map_append, List.cons_append]

theorem components_goMod (dir : String) : components (join dir "go.mod") = components dir ++ [.name "go.mod".toList] :=
  components_join ⟨by decide, by decide +kernel⟩

theorem size_goMod_le (hpath : Upright path) (hrel : Ordinary rel) {dir other : String} (hdir : dir ∈ ancestors path)
    (hother : other ∈ ancestors (join path rel)) (heq : d.locate other = d.locate dir) :
    (join other "go.mod").utf8ByteSize ≤ (join dir "go.mod").utf8ByteSize := by
  have hsize := size_leader_le_of_locate_eq hpath hrel hdir hother heq
  rw [join_of_relative fileName_goMod.relative, join_of_relative fileName_goMod.relative, String.utf8ByteSize_append,
    String.utf8ByteSize_append]
  exact Nat.add_le_add_right hsize _

/-- Where there is no other `go.mod` on the way, detection goes on below a directory as it has begun there. -/
theorem detect_join (h : d.Named) (hpath : Upright path) (hreach : InReach d path) (hrel : Ordinary rel)
    (hbare : Bare d (namesOn rel).reverse (d.locate path))
    (hfound : (detect path gopath : Detecting) d = (.ok ⟨i, s⟩, d)) :
    ∃ other, (detect (join path rel) gopath : Detecting) d = (.ok ⟨i ++ "/" ++ spelled rel, other⟩, d) ∧
      s.Same other := by
  have hjoin := hpath.join hrel
  have hlocate := hpath.locate_join hrel d
  rcases nearest_or_nowhere d (d.locate path) with ⟨inner, around, e, hloc, hnear⟩ | hnowhere
  · -- the same `go.mod` is nearest to both
    have hshort : ∀ dir ∈ ancestors path, d.locate dir = around → (join dir "go.mod").utf8ByteSize < maxPathSize :=
      fun dir hdir hat => hreach dir hdir inner e (hat ▸ hloc) (hat ▸ hnear)
    obtain ⟨dir, hdir, hat, hrun⟩ := detect_of_nearest h hpath hloc hnear hshort gopath
    obtain ⟨base, rfl, rfl, hverdict⟩ := verdict_eq_ok (Prod.mk.inj (hrun.symm.trans hfound)).1
    rw [hloc, ← List.append_assoc] at hlocate
    have hnear' : Nearest d ((namesOn rel).reverse ++ inner) around e :=
      ⟨hnear.here, bare_append.mpr ⟨hloc ▸ hbare, hnear.bare⟩⟩
    have hshort' : ∀ other ∈ ancestors (join path rel), d.locate other = around →
        (join other "go.mod").utf8ByteSize < maxPathSize := fun other hother hat' =>
      Nat.lt_of_le_of_lt (size_goMod_le hpath hrel hdir hother (hat'.trans hat.symm)) (hshort dir hdir hat)
    obtain ⟨other, hother, hat', hrun'⟩ := detect_of_nearest h hjoin hlocate hnear' hshort' gopath
    have himport : "/".intercalate (base :: ((namesOn rel).reverse ++ inner).reverse) =
        "/".intercalate (base :: inner.reverse) ++ "/" ++ spelled rel := by
      rw [List.reverse_append, List.reverse_reverse, ← List.cons_append,
        intercalate_append (List.cons_ne_nil _ _) (namesOn_ne_nil hrel), spelled]
    have hsame : components (join dir "go.mod") = components (join other "go.mod") := by
      rw [components_goMod, components_goMod, (hpath.ancestor hdir).components_of_locate d,
        (hjoin.ancestor hother).components_of_locate d, hat, hat']
    exact ⟨.goMod (join other "go.mod"), by rw [hrun', hverdict, himport], hsame⟩
  · -- there is none around either, so that both are below the source directory
    obtain ⟨r, hrun, hfallback⟩ := detect_of_nowhere hpath hnowhere gopath
    obtain rfl : r = .ok ⟨i, s⟩ := (Prod.mk.inj (hrun.symm.trans hfound)).1
    obtain ⟨r', hrun', hfallback'⟩ := detect_of_nowhere hjoin (hlocate ▸ nowhere_append.mpr ⟨hbare, hnowhere⟩) gopath
    refine ⟨s, ?_, by cases s <;> rfl⟩
    rw [hrun', hfallback.goes_on hfallback' (components_join_eq hpath hrel) hrel.parts_ne_nil]
    rfl

/-- **The nearest module decides.** Unless its path is too long, the nearest `go.mod` in a directory or around it decides
    on the import path of that, also if it is broken; and `GOPATH` decides only where there is no `go.mod` at all. A path
    of names below the directory, with no `go.mod` on the way, has its names added to an import path that the directory
    has, and the same decides on it. -/
theorem detect_nearest (h : d.Named) (hpath : Upright path) (hreach : InReach d path) (gopath : Option String) :
    (∃ r, (detect path gopath : Detecting) d = (r, d) ∧ Decided d path gopath r) ∧
    ∀ rel, Ordinary rel → Bare d (namesOn rel).reverse (d.locate path) →
      ∀ i s, (detect path gopath : Detecting) d = (.ok ⟨i, s⟩, d) →
        (∃ other, (detect (join path rel) gopath : Detecting) d = (.ok ⟨i ++ "/" ++ spelled rel, other⟩, d) ∧
          s.Same other) ∧
        ((∀ piece ∈ Text.splitOn '/' rel.toList, piece ≠ []) → spelled rel = rel) := by
  refine ⟨?_, fun rel hrel hbare i s hfound => ⟨detect_join h hpath hreach hrel hbare hfound, spelled_eq_self⟩⟩
  rcases nearest_or_nowhere d (d.locate path) with ⟨inner, around, e, hloc, hnear⟩ | hnowhere
  · obtain ⟨dir, hdir, rfl, hrun⟩ := detect_of_nearest h hpath hloc hnear
      (fun dir hdir hat => hreach dir hdir inner e (hat ▸ hloc) (hat ▸ hnear)) gopath
    exact ⟨_, hrun, .nearest hdir hloc hnear⟩
  · obtain ⟨r, hrun, hfallback⟩ := detect_of_nowhere hpath hnowhere gopath
    exact ⟨r, hrun, .nowhere hnowhere hfallback⟩

end

/-- A disk with a module. -/
def moduleDisk : Disk := Output.diskOf [("src/m/go.mod", "module x/\n", false)]

theorem named_moduleDisk : moduleDisk.Named := named_of_entries (by decide +kernel)

/-- In a module that ends in a slash, detection goes on from a directory to one below it. -/
theorem detect_nearest_sample : moduleDisk.Named ∧ Upright "/src/m/a" ∧ InReach moduleDisk "/src/m/a" ∧ Ordinary "b/c" ∧
    Bare moduleDisk (namesOn "b/c").reverse (moduleDisk.locate "/src/m/a") ∧
    (detect "/src/m/a" none : Detecting) moduleDisk = (.ok ⟨"x/a", .goMod "/src/m/go.mod"⟩, moduleDisk) ∧
    ∃ other, (detect (join "/src/m/a" "b/c") none : Detecting) moduleDisk = (.ok ⟨"x/a/b/c", other⟩, moduleDisk) ∧
      (Source.goMod "/src/m/go.mod").Same other := by
  have hpath : Upright "/src/m/a" := by decide +kernel
  have hrel : Ordinary "b/c" := by decide +kernel
  have hreach : InReach moduleDisk "/src/m/a" := by
    have hshort : ∀ dir ∈ ancestors "/src/m/a", (join dir "go.mod").utf8ByteSize < maxPathSize := by decide +kernel
    exact fun dir hdir _ _ _ _ => hshort dir hdir
  have hbare : Bare moduleDisk (namesOn "b/c").reverse (moduleDisk.locate "/src/m/a") := by decide +kernel
  obtain ⟨⟨r, hrun, -⟩, hbelow⟩ := detect_nearest named_moduleDisk hpath hreach none
  have hfirst : ((detect "/src/m/a" none : Detecting) moduleDisk).1 = .ok ⟨"x/a", .goMod "/src/m/go.mod"⟩ := by
    decide +kernel
  have hr : r = .ok ⟨"x/a", .goMod "/src/m/go.mod"⟩ := by rw [← hfirst, hrun]
  rw [hr] at hrun
  exact ⟨named_moduleDisk, hpath, hreach, hrel, hbare, hrun, (hbelow "b/c" hrel hbare _ _ hrun).1⟩

/-- A path to a module with slashes behind it. -/
def padded : Nat → String
  | 0 => "/src/m"
  | n + 1 => padded n ++ "/"

theorem size_padded : ∀ n : Nat, (padded n).utf8ByteSize = n + 6
  | 0 => rfl
  | n + 1 => by
    have hslash : ("/" : String).utf8ByteSize = 1 := rfl
    rw [padded, String.utf8ByteSize_append, size_padded n, hslash]

theorem parts_padded : ∀ n : Nat, parts (padded n).toList = ["src".toList, "m".toList]
  | 0 => by decide +kernel
  | n + 1 => by
    have htext : (padded (n + 1)).toList = (padded n).toList ++ '/' :: [] := String.toList_append ..
    rw [htext, parts_append_cons, parts_padded n, parts_nil, List.append_nil]

theorem upright_padded (n : Nat) : Upright (padded n) where
  absolute := by
    induction n with
    | zero => decide
    | succ n ih =>
      obtain ⟨rest, hrest⟩ := List.head?_eq_some_iff.mp ih
      rw [IsAbsolute, padded, String.toList_append, hrest]
      rfl
  straight := by
    rw [parts_padded]
    decide +kernel

theorem locate_padded (n : Nat) : moduleDisk.locate (padded n) = ["m", "src"] := by
  rw [(upright_padded n).locate_eq, namesOn, parts_padded]
  rfl

theorem nearest_padded (n : Nat) : ∃ f, Nearest moduleDisk [] (moduleDisk.locate (padded n)) (.file f) ∧
    ∃ text, Text.decode? f.bytes = some text ∧ directive? text = some "x/" := by
  refine ⟨⟨"module x/\n".toUTF8, newFileMode⟩, ⟨?_, bare_nil _ _⟩, "module x/\n", by decide +kernel, by decide +kernel⟩
  rw [locate_padded]
  decide +kernel

theorem underGoPath?_padded (n : Nat) : underGoPath? (padded n) "/" = some ⟨"m", .goPath "/src"⟩ := by
  have hcomponents : components (padded n) = components (join "/" "src") ++ [['m']].map .name := by
    rw [(upright_padded n).components_eq, parts_padded]
    decide +kernel
  rcases underGoPath?_cases (upright_padded n) "/" with ⟨names, -, h, hfound⟩ | ⟨houtside, -⟩
  · rw [hcomponents, List.append_cancel_left_eq] at h
    rw [hfound, ← List.map_injective_iff.mpr (fun _ _ heq => Component.name.inj heq) h]
    decide +kernel
  · exact absurd ⟨[['m']], by simp, hcomponents⟩ houtside

theorem detect_padded {n : Nat} (hlong : maxPathSize ≤ n + 7) :
    (detect (padded n) (some "/") : Detecting) moduleDisk = (.ok ⟨"m", .goPath "/src"⟩, moduleDisk) := by
  have hrefused : ¬∃ r, moduleDisk.find (join (padded n) "go.mod") = .ok r := fun ⟨r, hr⟩ => by
    have hshort := (find_eq_ok.mp hr).1.sound.short
    have hsize := size_join fileName_goMod (padded n)
    rw [size_padded] at hsize
    omega
  have hdirs := map_locate_ancestors (upright_padded n) moduleDisk
  rw [locate_padded, ancestors, List.map_cons, List.tails, List.cons.injEq] at hdirs
  have hnone : ∀ dir ∈ parents (padded n), moduleDisk.get? ("go.mod" :: moduleDisk.locate dir) = none := by
    intro dir hdir
    have hmem := List.mem_map_of_mem (f := moduleDisk.locate) hdir
    rw [hdirs.2] at hmem
    have hall : ∀ loc ∈ ["src"].tails, moduleDisk.get? ("go.mod" :: loc) = none := by decide +kernel
    exact hall _ hmem
  unfold detect
  rw [bind_run, ancestors, fromGoMod_of_not_found hrefused, fromGoMod_of_nowhere hnone]
  simp only [Option.bind_some, underGoPath?_padded]
  rfl

theorem Nearest.not_decided {d : Disk} {path i sourceDir : String} {gopath : Option String} {e : Entry}
    (h : Nearest d [] (d.locate path) e) : ¬Decided d path gopath (.ok ⟨i, .goPath sourceDir⟩) := by
  intro hdecided
  generalize hr : (Except.ok ⟨i, .goPath sourceDir⟩ : Except DetectError ModuleRoot) = r at hdecided
  cases hdecided with
  | nearest =>
    obtain ⟨base, -, hsource, -⟩ := verdict_eq_ok hr.symm
    cases hsource
  | nowhere hnowhere =>
    have hnone := hnowhere _ (List.suffix_refl _)
    rw [h.here] at hnone
    cases hnone

/-- A `go.mod` whose path is too long is passed over: `GOPATH` decides on the directory that it stands in. -/
theorem detect_unreached : moduleDisk.Named ∧ Upright (padded 4090) ∧
    (∃ f, Nearest moduleDisk [] (moduleDisk.locate (padded 4090)) (.file f) ∧
      ∃ text, Text.decode? f.bytes = some text ∧ directive? text = some "x/") ∧
    (detect (padded 4090) (some "/") : Detecting) moduleDisk = (.ok ⟨"m", .goPath "/src"⟩, moduleDisk) ∧
    ¬Decided moduleDisk (padded 4090) (some "/") (.ok ⟨"m", .goPath "/src"⟩) := by
  have hnear := nearest_padded 4090
  obtain ⟨f, hf, -⟩ := nearest_padded 4090
  exact ⟨named_moduleDisk, upright_padded _, hnear, detect_padded (by decide), hf.not_decided⟩

end Scaffold.GoModule
