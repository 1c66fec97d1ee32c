import Scaffold.Proofs.Disk.Change

/-! A path on an earlier disk and on a later one, which has all directories of the earlier. What stands at the
    location of a path that leads somewhere on the later disk is found on the earlier one too
    (`Opens.of_isSome`), and where nothing is found on the later disk nothing is found on the earlier one, as long as
    the files on the way are still files (`find_notFound_of_keeps`). In both the path must climb only out of
    directories that are there already. -/

namespace Scaffold.Disk
open Scaffold.Path

/-! ### Arriving -/

theorem Passes.fits {d : Disk} : ∀ {ps : List (List Char)} {loc : Location}, d.Passes loc ps → ∀ p ∈ ps, Fits p
  | [], _, _ => by simp
  | _ :: _, _, ⟨hfits, _, hrest⟩ => List.forall_mem_cons.mpr ⟨hfits, hrest.fits⟩

theorem passes_of_directories {d : Disk} : ∀ {ps : List (List Char)} {loc : Location}, (∀ p ∈ ps, Fits p) →
    (∀ front, front <+: ps → d.get? (walk loc front) = some .directory) → d.Passes loc ps
  | [], _, _, _ => trivial
  | p :: ps, loc, hfits, hdirs => by
    obtain ⟨hfirst, hrest⟩ := List.forall_mem_cons.mp hfits
    refine ⟨hfirst, hdirs [p] (by simp), passes_of_directories hrest fun front hfront => ?_⟩
    exact hdirs (p :: front) (List.cons_prefix_cons.mpr ⟨rfl, hfront⟩)

theorem passes_of_climbs {d : Disk} {ps : List (List Char)} {loc : Location} (hclimb : d.Climbs loc ps)
    (hdir : d.get? (walk loc ps) = some .directory) (hfits : ∀ p ∈ ps, Fits p) :
    d.get? loc = some .directory ∧ d.Passes loc ps := by
  have hdirs : ∀ front, front <+: ps → d.get? (walk loc front) = some .directory := by
    rintro front ⟨back, rfl⟩
    exact Decidable.byContradiction fun hmissing => not_isDirectory_walk hclimb hmissing hdir
  exact ⟨hdirs [] (List.nil_prefix ..), passes_of_directories hfits hdirs⟩

theorem Opens.of_isSome {d d' : Disk} {path name : String} (h : d'.Opens path) (hcurrent : d'.current = d.current)
    (hclimb : d.Climbable path) (hname : (aim path).2.1 = some name) (hthere : (d.get? (d.locate path)).isSome) :
    d.Opens path := by
  have hstart : d'.start path = d.start path := by simp only [start, hcurrent]
  obtain ⟨e, he⟩ := Option.isSome_iff_exists.mp hthere
  rw [locate_eq_aim, hname, Option.toList_some, List.singleton_append] at he
  have hclimb' : d.Climbs (d.start path) (aim path).1 := by
    rcases List.eq_nil_or_concat (parts path.toList) with hnil | ⟨dir, last, hlast⟩
    · rw [aim_of_parts_nil hnil]
      intro front back heq
      simp at heq
    · rw [List.concat_eq_append] at hlast
      have hdots : ¬IsDots last := fun hdots => by simp [aim_of_dots hlast hdots] at hname
      rw [aim_of_name hlast hdots]
      exact Climbs.of_append (hlast ▸ hclimb : d.Climbs (d.start path) (dir ++ [last]))
  obtain ⟨hstarted, hpasses⟩ := passes_of_climbs hclimb' (d.parent_isDirectory he) h.passes.fits
  exact ⟨h.sound, hstarted, hpasses⟩

/-! ### Missing -/

theorem enter_eq_notFound {d : Disk} {dir : d.Directory} {p : List Char} :
    d.enter dir p = .error .notFound ↔ Fits p ∧ d.get? (follow dir.1 p) = none := by
  refine ⟨fun h => ⟨?_, enter_notFound h⟩, fun ⟨hfits, hnone⟩ => ?_⟩
  · unfold enter at h
    split at h
    · cases h
    split at h
    · cases h
    dsimp only at h
    split at h
    · cases h
    · rename_i hshort
      exact Nat.not_lt.mp hshort
  · cases henter : d.enter dir p with
    | ok next =>
      obtain ⟨⟨-, hdir⟩, -⟩ := enter_eq_ok.mp henter
      rw [hnone] at hdir
      cases hdir
    | error e =>
      -- what is missing has a name, and its length is not at fault
      unfold enter at henter
      split at henter
      · cases henter
      rename_i hhere
      split at henter
      · cases henter
      rename_i hup
      simp only [Bool.or_eq_true, decide_eq_true_eq, not_or] at hhere
      rw [follow_of_name hhere.1 (not_or.mpr ⟨hhere.2, hup⟩)] at hnone
      dsimp only at henter
      split at henter
      · rename_i hlong
        exact absurd hfits (Nat.not_le.mpr hlong)
      · split at henter
        · cases henter
        · rename_i hfile
          rw [hnone] at hfile
          cases hfile
        · rw [henter]

/-- One gets somewhere, or misses something on the way. -/
def Reaches {α : Type} (x : Except Failure α) : Prop := x = .error .notFound ∨ ∃ a, x = .ok a

section Keeps
variable {d d' : Disk}

/-- Files at a location are files on a later disk. -/
def StaysFile (d d' : Disk) (loc : Location) : Prop :=
  ∀ f, d.get? loc = some (.file f) → ∃ g, d'.get? loc = some (.file g)

theorem Keeps.enter_ok (hk : Keeps d d') {dir next : d.Directory} {dir' : d'.Directory} (hdir : dir'.1 = dir.1)
    {p : List Char} (h : d.enter dir p = .ok next) : ∃ next', d'.enter dir' p = .ok next' ∧ next'.1 = next.1 := by
  obtain ⟨⟨hfits, hthere⟩, hnext⟩ := enter_eq_ok.mp h
  have hthere' := hk.directory _ hthere
  rw [← hdir] at hthere'
  refine ⟨⟨_, hthere'⟩, enter_eq_ok.mpr ⟨⟨hfits, hthere'⟩, rfl⟩, ?_⟩
  change follow dir'.1 p = next.1
  rw [hnext, hdir]

theorem enter_reaches {dir : d.Directory} {dir' : d'.Directory} (hdir : dir'.1 = dir.1)
    {p : List Char} (hfile : StaysFile d d' (follow dir.1 p)) (h : Reaches (d'.enter dir' p)) : Reaches (d.enter dir p) := by
  have hfits : Fits p := by
    rcases h with h | ⟨next, h⟩
    · exact (enter_eq_notFound.mp h).1
    · exact (enter_eq_ok.mp h).1.1
  cases hthere : d.get? (follow dir.1 p) with
  | none => exact Or.inl (enter_eq_notFound.mpr ⟨hfits, hthere⟩)
  | some e =>
    cases e with
    | directory => exact Or.inr ⟨⟨_, hthere⟩, enter_eq_ok.mpr ⟨⟨hfits, hthere⟩, rfl⟩⟩
    | file f =>
      -- a file stops one on the later disk too, and not for want of anything
      obtain ⟨g, hg⟩ := hfile f hthere
      rw [← hdir] at hg
      rcases h with h | ⟨next, h⟩
      · rw [(enter_eq_notFound.mp h).2] at hg
        cases hg
      · rw [(enter_eq_ok.mp h).1.2] at hg
        cases hg

theorem Keeps.enterAll_ok (hk : Keeps d d') {ps : List (List Char)} {dir last : d.Directory} {dir' : d'.Directory}
    (hdir : dir'.1 = dir.1) (h : d.enterAll dir ps = .ok last) : ∃ last', d'.enterAll dir' ps = .ok last' := by
  obtain ⟨hpasses, hlast⟩ := enterAll_eq_ok.mp h
  have hpasses' := hk.passes hpasses
  rw [← hdir] at hpasses'
  exact ⟨⟨_, hpasses'.isDirectory dir'.2⟩, enterAll_eq_ok.mpr ⟨hpasses', rfl⟩⟩

theorem Keeps.enterAll_reaches (hk : Keeps d d') : ∀ {ps : List (List Char)} {dir : d.Directory} {dir' : d'.Directory},
    dir'.1 = dir.1 → (∀ front, front <+: ps → StaysFile d d' (walk dir.1 front)) →
      Reaches (d'.enterAll dir' ps) → Reaches (d.enterAll dir ps)
  | [], dir, _, _, _, _ => Or.inr ⟨dir, rfl⟩
  | p :: ps, dir, dir', hdir, hfiles, h => by
    have hfirst : Reaches (d'.enter dir' p) := by
      cases henter : d'.enter dir' p with
      | ok next => exact Or.inr ⟨next, rfl⟩
      | error e =>
        simp only [enterAll, henter, bind, Except.bind, Reaches, reduceCtorEq, exists_false, or_false] at h
        exact Or.inl h
    rcases enter_reaches hdir (hfiles [p] (by simp)) hfirst with hmissing | ⟨next, hnext⟩
    · simp only [enterAll, hmissing, bind, Except.bind]
      exact Or.inl rfl
    · obtain ⟨next', hnext', hsame⟩ := hk.enter_ok hdir hnext
      simp only [enterAll, hnext', hnext, bind, Except.bind] at h ⊢
      refine hk.enterAll_reaches hsame (fun front hfront => ?_) h
      rw [(enter_eq_ok.mp hnext).2]
      exact hfiles (p :: front) (List.cons_prefix_cons.mpr ⟨rfl, hfront⟩)

theorem startOf_reaches (d : Disk) (absolute : Bool) : Reaches (d.startOf absolute) := by
  unfold startOf
  split
  · exact Or.inr ⟨_, rfl⟩
  · split
    · exact Or.inr ⟨_, rfl⟩
    · exact Or.inl rfl

theorem onWay_of_prefix_aim {path : String} {front : List (List Char)} (h : front <+: (aim path).1) :
    d.OnWay path (walk (d.start path) front) := by
  refine ⟨front, h.trans ?_, rfl⟩
  rcases List.eq_nil_or_concat (parts path.toList) with hnil | ⟨dir, last, hlast⟩
  · rw [aim_of_parts_nil hnil]
    exact List.nil_prefix ..
  · rw [List.concat_eq_append] at hlast
    by_cases hdots : IsDots last
    · have haim := aim_of_dots hlast hdots
      simp only [haim, hlast, List.prefix_refl]
    · rw [aim_of_name hlast hdots, hlast]
      exact List.prefix_append ..

theorem Keeps.place_reaches (hk : Keeps d d') {path name : String} (hname : (aim path).2.1 = some name)
    (hfiles : ∀ l, d.OnWay path l → StaysFile d d' l) (h : Reaches (d'.place path)) : Reaches (d.place path) := by
  by_cases htaken : Taken path
  · rw [place_of_taken htaken] at h ⊢
    rcases startOf_reaches d (path.toList.head? = some '/') with hstart | ⟨first, hstart⟩
    · rw [hstart]
      exact Or.inl rfl
    obtain ⟨hdir, hfirst⟩ := startOf_eq_ok.mp hstart
    have hdir' : d'.get? (d'.start path) = some .directory := hk.start path ▸ hk.directory _ hdir
    have hstart' : d'.startOf (path.toList.head? = some '/') = .ok ⟨_, hdir'⟩ := startOf_eq_ok.mpr ⟨hdir', rfl⟩
    have hsame : (⟨_, hdir'⟩ : d'.Directory).1 = first.1 := by rw [hfirst, ← hk.start]
    rw [hstart'] at h
    rw [hstart]
    simp only [Except.bind] at h ⊢
    have henter' : Reaches (d'.enterAll ⟨_, hdir'⟩ (aim path).1) := by
      cases henter : d'.enterAll ⟨_, hdir'⟩ (aim path).1 with
      | ok last => exact Or.inr ⟨last, rfl⟩
      | error e =>
        simp only [henter, Reaches, reduceCtorEq, exists_false, or_false, Except.error.injEq] at h
        exact Or.inl (congrArg _ h)
    have hfiles' : ∀ front, front <+: (aim path).1 → StaysFile d d' (walk first.1 front) := fun front hfront => by
      rw [hfirst]
      exact hfiles _ (onWay_of_prefix_aim hfront)
    -- directories on the way may be new on the later disk, but none has gone
    rcases hk.enterAll_reaches hsame hfiles' henter' with henter | ⟨last, henter⟩
    · rw [henter]
      exact Or.inl rfl
    · obtain ⟨last', henter'⟩ := hk.enterAll_ok hsame henter
      rw [henter'] at h
      rw [henter]
      cases hlong : endsTooLong path with
      | true => simp [hlong, Reaches] at h
      | false => exact Or.inr ⟨_, rfl⟩
  · obtain ⟨e, he, hempty⟩ := place_of_not_taken (d := d') htaken
    rw [he] at h
    have hmissing : e = .notFound := by simpa [Reaches] using h
    rw [aim_of_parts_nil (by rw [hempty hmissing, parts_nil])] at hname
    cases hname

/-- Where nothing is found on a later disk nothing is found on an earlier one. -/
theorem find_notFound_of_keeps (hk : Keeps d d') {path name : String} (hname : (aim path).2.1 = some name)
    (hfiles : ∀ l, d.OnWay path l → StaysFile d d' l) (hnone : d.get? (d.locate path) = none)
    (h : d'.find path = .error .notFound) : d.find path = .error .notFound := by
  have hplace : Reaches (d'.place path) := by
    cases hplace' : d'.place path with
    | ok p => exact Or.inr ⟨p, rfl⟩
    | error e =>
      rw [find_of_place_error hplace', Except.error.injEq] at h
      exact Or.inl (congrArg _ h)
  rcases hk.place_reaches hname hfiles hplace with hmissing | ⟨p, hp⟩
  · exact find_of_place_error hmissing
  · rcases find_of_place hp with ⟨-, hfind⟩ | ⟨e, here, -⟩
    · exact hfind
    · rw [place_location hp, hnone] at here
      cases here

/-! ### What stands at the end -/

theorem exists_find_iff {path : String} {e : Entry} : (∃ r, d.find path = .ok r ∧ r.entry = e) ↔
    d.Opens path ∧ d.get? (d.locate path) = some e ∧ ((aim path).2.2 = true → e = .directory) := by
  constructor
  · rintro ⟨r, hfind, rfl⟩
    obtain ⟨hopens, hloc, hslash⟩ := find_eq_ok.mp hfind
    exact ⟨hopens, hloc ▸ r.here, hslash⟩
  · rintro ⟨hopens, hthere, hslash⟩
    exact ⟨⟨_, e, hthere⟩, find_eq_ok.mpr ⟨hopens, rfl, hslash⟩, rfl⟩

/-- What stands at the end of a path on both disks is found on both or on none. -/
theorem Keeps.exists_find_iff (hk : Keeps d d') {path name : String} (hname : (aim path).2.1 = some name)
    (hclimb : d.Climbable path) (hsame : d'.get? (d.locate path) = d.get? (d.locate path)) {e : Entry} :
    (∃ r, d'.find path = .ok r ∧ r.entry = e) ↔ ∃ r, d.find path = .ok r ∧ r.entry = e := by
  rw [Disk.exists_find_iff, Disk.exists_find_iff, hk.locate, hsame]
  refine and_congr_left fun ⟨hthere, _⟩ => ⟨fun h => ?_, hk.opens⟩
  exact h.of_isSome hk.current hclimb hname (by simp [hthere])

end Keeps

end Scaffold.Disk
