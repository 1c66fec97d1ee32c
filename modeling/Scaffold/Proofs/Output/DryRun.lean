import Mathlib.Data.List.Pairwise
import Scaffold.Proofs.Disk.Earlier
import Scaffold.Proofs.Output.Again
import Scaffold.Proofs.Output.Interrupted

/-! Dry runs. A dry run looks at every file on the disk that it was started on, a real one looks at it after the files
    before it were written. The disk of a real run is ahead of the one it was started on (`Ahead`), but not at the
    places of the files that are still to come, so that each step of a real run that succeeds is foretold by a step on
    the old disk (`StepCase.foretold`), and the whole run by a dry one (`Run.foretold`). -/

namespace Scaffold.Output
open Disk Scaffold.Path

/-- What a dry run says of what a real one does. -/
def foretold : Outcome → Outcome
  | .written => .wouldWrite
  | o => o

/-- No file that may be kept goes to a missing place around the place of another file, and no stale draft lies there. -/
structure Clear (d : Disk) (ts : List Target) : Prop where
  kept : ∀ t ∈ ts, t.file.skipIfExists = true → d.get? (d.locate t.path) = none →
    ∀ u ∈ ts, d.locate t.path <:+ d.locate u.path → d.locate t.path = d.locate u.path
  drafts : ∀ t ∈ ts, (d.file? (d.locate (draftPath t.path))).isSome →
    ∀ u ∈ ts, ¬d.locate (draftPath t.path) <:+ d.locate u.path

/-! ### The disk of a run -/

/-- A disk after some files of a run: files are still files, but for drafts, and beside the files and their drafts
    there are new directories around the files. -/
structure Ahead (d₀ d : Disk) (done : List Target) : Prop where
  keeps : Keeps d₀ d
  files : ∀ l, (∀ u ∈ done, l ≠ d₀.locate (draftPath u.path)) → StaysFile d₀ d l
  beside : ∀ l, (∀ u ∈ done, l ≠ d₀.locate u.path ∧ l ≠ d₀.locate (draftPath u.path)) → d.get? l = d₀.get? l ∨
    (d₀.get? l = none ∧ d.get? l = some .directory ∧ ∃ u ∈ done, l <:+ d₀.locate u.path)

theorem Ahead.refl (d : Disk) : Ahead d d [] := ⟨Keeps.refl d, fun _ _ f hf => ⟨f, hf⟩, fun _ _ => Or.inl rfl⟩

section Step
variable {d₀ d d' : Disk} {t : Target} {done : List Target} {ledger ledger' : Ledger} {ws : List String} {o : Outcome}

theorem StepCase.staysFile (h : StepCase t false ledger d d' ⟨ws, .ok (o, ledger')⟩) {l : Location}
    (hl : l ≠ d.locate (draftPath t.path)) : StaysFile d d' l := by
  intro f hf
  by_cases hpath : l = d.locate t.path
  · subst hpath
    have hleft := h.leftAs
    cases o with
    | skipped => exact ⟨f, file?_eq_some.mp (hleft.2.2.trans (file?_eq_some.mpr hf))⟩
    | unchanged =>
      obtain ⟨g, -, -, hg⟩ := hleft
      exact ⟨_, hg⟩
    | written =>
      obtain ⟨mode, -, hg⟩ := hleft
      exact ⟨_, hg⟩
    | wouldWrite => exact hleft.elim
  · exact ⟨f, file?_eq_some.mp ((h.file?_eq hpath hl).trans (file?_eq_some.mpr hf))⟩

theorem Ahead.step (h : Ahead d₀ d done) (hstep : StepCase t false ledger d d' ⟨ws, .ok (o, ledger')⟩)
    (hclimb : d.Climbable t.path) : Ahead d₀ d' (done ++ [t]) := by
  have hlocate := h.keeps.locate
  refine ⟨h.keeps.trans hstep.keeps, fun l hl f hf => ?_, fun l hl => ?_⟩
  · obtain ⟨hdone, hlast⟩ := List.forall_mem_append.mp hl
    obtain ⟨g, hg⟩ := h.files l hdone f hf
    exact hstep.staysFile (by rw [hlocate]; exact hlast t (List.mem_singleton_self t)) g hg
  · obtain ⟨hdone, hlast⟩ := List.forall_mem_append.mp hl
    obtain ⟨hpath, hdraft⟩ := hlast t (List.mem_singleton_self t)
    rw [← hlocate] at hpath hdraft
    rcases hstep.beside hpath with hsame | ⟨heq, -⟩
    · rcases hsame.of_climbable hclimb with heq | ⟨haround, hnone, hdir⟩
      · rw [heq]
        refine (h.beside l hdone).imp id fun ⟨hnone, hdir, u, hu, haround⟩ => ⟨hnone, hdir, u, ?_, haround⟩
        exact List.mem_append_left _ hu
      · rcases h.beside l hdone with heq | ⟨-, hthere, -⟩
        · refine Or.inr ⟨heq ▸ hnone, hdir, t, by simp, ?_⟩
          rwa [← hlocate]
        · rw [hnone] at hthere
          cases hthere
    · exact absurd heq hdraft

/-- A file that is not kept is not written over a directory. -/
theorem StepCase.not_directory (h : StepCase t false ledger d d' ⟨ws, .ok (o, ledger')⟩) (hnot : ¬Kept d t)
    (hclimb : d.Climbable t.path) {name : String} (hname : (aim t.path).2.1 = some name) :
    d.get? (d.locate t.path) ≠ some .directory := by
  have absent : ∀ f? : Option File, Present d t.path f? → d.get? (d.locate t.path) ≠ some .directory := by
    intro f? hpresent
    rw [get?_of_present hpresent hname hclimb]
    cases f? <;> simp
  cases h with
  | kept hkept => exact absurd hkept hnot
  | matched _ hpresent => exact absent _ hpresent
  | pending _ hpresent => exact absent _ hpresent
  | placed _ hpresent => exact absent _ hpresent

/-! ### A step on the old disk -/

/-- A file that is still to come, after the files `done` of a run on the disk `d₀`. -/
structure Coming (d₀ : Disk) (done : List Target) (t : Target) : Prop where
  climbable : d₀.Climbable t.path
  named : (aim t.path).2.1.isSome
  other : ∀ u ∈ done, d₀.locate t.path ≠ d₀.locate u.path ∧ d₀.locate t.path ≠ d₀.locate (draftPath u.path)
  kept : t.file.skipIfExists = true → d₀.get? (d₀.locate t.path) = none →
    ∀ u ∈ done, d₀.locate t.path <:+ d₀.locate u.path → d₀.locate t.path = d₀.locate u.path
  drafts : ∀ u ∈ done, (d₀.file? (d₀.locate (draftPath u.path))).isSome →
    ¬d₀.locate (draftPath u.path) <:+ d₀.locate t.path

/-- What stands in the place of a file that is still to come has stood there all along. -/
theorem Ahead.get?_eq (h : Ahead d₀ d done) (hcoming : Coming d₀ done t)
    (hstep : StepCase t false ledger d d' ⟨ws, .ok (o, ledger')⟩) :
    d.get? (d₀.locate t.path) = d₀.get? (d₀.locate t.path) := by
  rcases h.beside _ hcoming.other with hsame | ⟨hnone, hdir, u, hu, haround⟩
  · exact hsame
  · by_cases hskip : t.file.skipIfExists = true
    · exact absurd (hcoming.kept hskip hnone u hu haround) (hcoming.other u hu).1
    · obtain ⟨name, hname⟩ := Option.isSome_iff_exists.mp hcoming.named
      rw [← h.keeps.locate] at hdir
      exact absurd hdir (hstep.not_directory (fun hkept => hskip hkept.1) (h.keeps.climbable hcoming.climbable) hname)

theorem Ahead.kept_iff (h : Ahead d₀ d done) (hcoming : Coming d₀ done t)
    (hsame : d.get? (d₀.locate t.path) = d₀.get? (d₀.locate t.path)) : Kept d t ↔ Kept d₀ t := by
  obtain ⟨name, hname⟩ := Option.isSome_iff_exists.mp hcoming.named
  refine and_congr_right fun _ => ⟨fun ⟨r, hfind⟩ => ?_, fun ⟨r, hfind⟩ => ?_⟩
  · obtain ⟨r', hfind', -⟩ := (h.keeps.exists_find_iff hname hcoming.climbable hsame).mp ⟨r, hfind, rfl⟩
    exact ⟨r', hfind'⟩
  · obtain ⟨r', hfind', -⟩ := (h.keeps.exists_find_iff hname hcoming.climbable hsame).mpr ⟨r, hfind, rfl⟩
    exact ⟨r', hfind'⟩

theorem Ahead.present (h : Ahead d₀ d done) (hcoming : Coming d₀ done t)
    (hsame : d.get? (d₀.locate t.path) = d₀.get? (d₀.locate t.path)) {f? : Option File} (hpresent : Present d t.path f?) :
    Present d₀ t.path f? := by
  obtain ⟨name, hname⟩ := Option.isSome_iff_exists.mp hcoming.named
  cases f? with
  | some f =>
    obtain ⟨hholds, hfile⟩ := hpresent
    rw [h.keeps.locate, hsame] at hfile
    refine ⟨⟨?_, hholds.named, hholds.noSlash⟩, hfile⟩
    exact hholds.opens.of_isSome h.keeps.current hcoming.climbable hname (by simp [hfile])
  | none =>
    have hnone := get?_locate_of_notFound hname (h.keeps.climbable hcoming.climbable) hpresent
    rw [h.keeps.locate, hsame] at hnone
    refine find_notFound_of_keeps h.keeps hname (fun l hway f hf => ?_) hnone hpresent
    -- a file on the way is not a draft, so it is still a file
    have haround := hway.suffix_of_not_directory hcoming.climbable (by simp [hf])
    refine h.files l (fun u hu heq => hcoming.drafts u hu ?_ (heq ▸ haround)) f hf
    rw [← heq, file?_eq_some.mpr hf]
    rfl

/-- A step of a real run is foretold by a step on the disk of the start. -/
theorem StepCase.foretold {l₀ : Ledger} (h : StepCase t false ledger d d' ⟨ws, .ok (o, ledger')⟩)
    (hahead : Ahead d₀ d done) (hcoming : Coming d₀ done t) (hdigest : l₀.digest? t.rel = ledger.digest? t.rel) :
    ∃ l₁, (writeUnlessKept t true l₀ : StateM Disk _) d₀ = (⟨ws, .ok (Output.foretold o, l₁)⟩, d₀) := by
  have hsame := hahead.get?_eq hcoming h
  have hkept := hahead.kept_iff hcoming hsame
  have hpresent : ∀ {f? : Option File}, Present d t.path f? → Present d₀ t.path f? := hahead.present hcoming hsame
  obtain ⟨log, d₁, hrun, hdry⟩ := writeUnlessKept_run t true l₀ d₀
  rw [hrun]
  cases h with
  | kept hkept₁ =>
    cases hdry with
    | kept => exact ⟨_, rfl⟩
    | _ => exact absurd (hkept.mp hkept₁) ‹¬Kept d₀ t›
  | matched hnot hpresent₁ hmatches =>
    cases hdry with
    | kept hkept₀ => exact absurd (hkept.mpr hkept₀) hnot
    | unread _ hread => exact absurd (hpresent hpresent₁) (hread _)
    | matched _ _ _ _ hnothing => exact ⟨_, by rw [hnothing rfl]; rfl⟩
    | pending _ hpresent₀ hdiffers => exact absurd ((hpresent hpresent₁).eq hpresent₀ ▸ hmatches) hdiffers
    | placed _ _ _ hreal | broken _ _ _ hreal => cases hreal
  | pending _ _ _ hdry => cases hdry
  | placed hnot hpresent₁ hdiffers =>
    cases hdry with
    | kept hkept₀ => exact absurd (hkept.mpr hkept₀) hnot
    | unread _ hread => exact absurd (hpresent hpresent₁) (hread _)
    | matched _ hpresent₀ hmatches => exact absurd ((hpresent hpresent₁).eq hpresent₀ ▸ hmatches) hdiffers
    | pending _ hpresent₀ =>
      obtain rfl := (hpresent hpresent₁).eq hpresent₀
      exact ⟨_, by rw [warningsFor, warningsFor, hdigest]; rfl⟩
    | placed _ _ _ hreal | broken _ _ _ hreal => cases hreal

end Step

/-! ### Runs -/

section Run
variable {d₀ d d' : Disk} {root : String} {t : Target} {done ts : List Target} {ledger ledger' : Ledger}
  {ws : List String} {os : List (Outcome × String)}

/-- Files under a root that climbs only out of directories that are there, none in the way of another. -/
structure Independent (d : Disk) (root : String) (ts : List Target) : Prop where
  climbable : d.Climbable root
  under : ∀ t ∈ ts, t.Under root
  named : ∀ t ∈ ts, (aim t.path).2.1.isSome
  separate : Separate d ts
  clear : Clear d ts

theorem Independent.coming (h : Independent d root (done ++ t :: ts)) : Coming d done t := by
  have ht : t ∈ done ++ t :: ts := by simp
  have hdone : ∀ u ∈ done, u ∈ done ++ t :: ts := fun u hu => List.mem_append_left _ hu
  have hother := (List.pairwise_append.mp h.separate.paths).2.2
  refine ⟨(h.under t ht).climbable_iff.mpr h.climbable, h.named t ht, fun u hu => ⟨?_, ?_⟩, fun hskip hnone u hu => ?_,
    fun u hu hstale => ?_⟩
  · exact (hother u hu t (List.mem_cons_self ..)).symm
  · exact h.separate.drafts t ht u (hdone u hu)
  · exact h.clear.kept t ht hskip hnone u (hdone u hu)
  · exact h.clear.drafts u (hdone u hu) hstale t ht

theorem Independent.rel_ne (h : Independent d root (done ++ t :: ts)) : ∀ u ∈ ts, u.rel ≠ t.rel := by
  intro u hu heq
  have hmem : u ∈ done ++ t :: ts := by simp [hu]
  refine (List.pairwise_cons.mp (List.pairwise_append.mp h.separate.paths).2.1).1 u hu ?_
  rw [(h.under t (by simp)).path_eq (h.under u hmem) heq.symm]

/-- A real run that succeeds is foretold by a dry run on the disk of the start. -/
theorem Run.foretold (h : Run false ts ledger d ws os ledger' d') {l₀ : Ledger} (hahead : Ahead d₀ d done)
    (hindependent : Independent d₀ root (done ++ ts)) (hdigests : ∀ t ∈ ts, l₀.digest? t.rel = ledger.digest? t.rel) :
    ∃ l₀', Run true ts l₀ d₀ ws (os.map fun r => (Output.foretold r.1, r.2)) l₀' d₀ := by
  induction h generalizing done l₀ with
  | nil => exact ⟨l₀, .nil ..⟩
  | @cons t ts l₁ l₂ l₃ d₁ d₂ d₃ ws ws' o os first rest ih =>
    have hstep := stepCase_of_run first
    have hcoming := hindependent.coming
    obtain ⟨hhead, htail⟩ := List.forall_mem_cons.mp hdigests
    obtain ⟨l₀₁, hdry⟩ := hstep.foretold hahead hcoming hhead
    have hrels := hindependent.rel_ne
    have hlater : ∀ u ∈ ts, l₀₁.digest? u.rel = l₂.digest? u.rel := fun u hu => by
      rw [(stepCase_of_run hdry).digest?_of_ne (hrels u hu), hstep.digest?_of_ne (hrels u hu), htail u hu]
    obtain ⟨l₀', hrest⟩ := ih (hahead.step hstep (hahead.keeps.climbable hcoming.climbable))
      (by rwa [List.append_assoc, List.singleton_append]) hlater
    exact ⟨l₀', .cons hdry hrest⟩

end Run

/-! ### The whole write -/

section Write
variable {p : Project} {d d' : Disk} {root moduleRoot : String} {ts : List Target} {files : List GeneratedFile}

theorem loadLedger_at {now : Instant} {ledger : Ledger}
    (h : (loadLedger root now : StateM Disk (Except Failure Ledger)) d = (.ok ledger, d)) (now' : Instant) :
    ∃ ledger', (loadLedger root now' : StateM Disk (Except Failure Ledger)) d = (.ok ledger', d) ∧
      ∀ path, ledger'.digest? path = ledger.digest? path := by
  obtain ⟨b, hthere, -⟩ := isThere_run (ledgerPath root) d
  unfold loadLedger at h ⊢
  simp only [bind_run, hthere] at h ⊢
  cases b with
  | false =>
    cases h
    exact ⟨_, rfl, fun _ => rfl⟩
  | true => exact ⟨ledger, h, fun _ => rfl⟩

theorem Laid.apart_of_ne (h : Laid d root ts) {t u : Target} (ht : t ∈ ts) (hu : u ∈ ts) (hne : t ≠ u) :
    ∀ l ∈ footprint d t, ∀ m ∈ footprint d u, Apart l m := by
  have hsymm : Std.Symm fun t u : Target => ∀ l ∈ footprint d t, ∀ m ∈ footprint d u, Apart l m :=
    ⟨fun t u hapart l hl m hm => (hapart m hm l hl).symm⟩
  exact h.apart.forall ht hu hne

theorem Target.Planned.not_draft_suffix {t : Target} (h : t.Planned root) (d : Disk) :
    ¬d.locate (draftPath t.path) <:+ d.locate t.path := by
  obtain ⟨dir, name, hends, hname⟩ := h.name
  have hlength : (d.locate (draftPath t.path)).length = (d.locate t.path).length := by
    rw [h.under.locate_path hends (notDots_of_mem_plannedNames hname), h.under.locate_draft hends]
    simp [placeAt]
  exact fun haround => h.ne_draft d h (haround.eq_of_length hlength).symm

theorem Laid.clear (hlaid : Laid d root ts) (hplanned : ∀ t ∈ ts, t.Planned root) : Clear d ts := by
  refine ⟨fun t ht _ _ u hu haround => ?_, fun t ht _ u hu => ?_⟩
  · by_cases heq : t = u
    · rw [heq]
    · exact absurd haround (hlaid.apart_of_ne ht hu heq _ (by simp [footprint]) _ (by simp [footprint])).1
  · by_cases heq : t = u
    · exact heq ▸ (hplanned t ht).not_draft_suffix d
    · exact (hlaid.apart_of_ne ht hu heq _ (by simp [footprint]) _ (by simp [footprint])).1

theorem independent_of_generates (hloaded : p.Loaded) (hfiles : p.Generates files)
    (htargets : files.mapM (target root moduleRoot) = .ok ts) (hclimb : d.Climbable root)
    (hclear : moduleRoot = p.moduleRoot ∨ Clear d ts) : Independent d root ts := by
  have hplanned := planned_of_generates hfiles htargets
  refine ⟨hclimb, fun t ht => (hplanned t ht).under, fun t ht => ?_, separate_of_generates hloaded hfiles htargets d, ?_⟩
  · obtain ⟨dir, name, hends, hname⟩ := (hplanned t ht).name
    have hunder := (hplanned t ht).under
    have hjoined : Ends t.path.toList (parts root.toList ++ dir) name.toList := hunder.path ▸ hends.join hunder.relative
    rw [aim_of_ends hjoined (notDots_of_mem_plannedNames hname)]
    rfl
  · rcases hclear with rfl | hclear
    · exact (laid_of_generates hloaded hfiles htargets d).clear hplanned
    · exact hclear

end Write

/-- A dry run leaves the disk as it is, whatever it answers. And a real run of the generated files of a project that
    succeeds is foretold by a dry one with the same warnings, under a root that climbs only out of directories that are
    there, if the files are not in each other's way; under the module root of the project they never are. -/
theorem write_foretold (files : List GeneratedFile) (root moduleRoot : String) (now : Instant) (d : Disk) :
    ((write files root moduleRoot true now : StateM Disk _) d).2 = d ∧
    ∀ (bytes : ByteArray) (resolved : Except RootError String) (p : Project), Project.load bytes resolved = .ok p →
      p.Generates files → d.Climbable root →
      (moduleRoot = p.moduleRoot ∨ Clear d (files.map (targetOf root moduleRoot))) →
      ∀ ws results now' d', (write files root moduleRoot false now' : StateM Disk _) d = (⟨ws, .ok results⟩, d') →
        (write files root moduleRoot true now : StateM Disk _) d =
          (⟨ws, .ok (results.map fun r => (foretold r.1, r.2))⟩, d) := by
  constructor
  · exact (writeCase_of_run (Prod.eta _).symm).dry
  intro bytes resolved p hload hfiles hclimb hclear ws results now' d' hrun
  cases writeCase_of_run hrun with
  | previewed _ _ _ hdry => cases hdry
  | saved hledger htargets hwrites _ _ =>
    obtain ⟨rfl, -⟩ := mapM_target_eq_ok htargets
    have hindependent := independent_of_generates (Project.loaded_of_load hload) hfiles htargets hclimb hclear
    obtain ⟨ledger, hloaded, hdigests⟩ := loadLedger_at hledger now
    obtain ⟨ledger', hdry⟩ := hwrites.foretold (Ahead.refl d) hindependent fun t _ => hdigests t.rel
    unfold write
    simp only [bind_run, hloaded, htargets, hdry.writeTargets_eq, ↓reduceIte, pure_run]

theorem exists_dry_of_not_ok {files : List GeneratedFile} {root moduleRoot : String} {now : Instant} {d : Disk}
    (h : ((write files root moduleRoot true now : StateM Disk _) d).1.result.toOption.isNone = true) :
    ∃ ws e, (write files root moduleRoot true now : StateM Disk _) d = (⟨ws, .error e⟩, d) := by
  cases hrun : (write files root moduleRoot true now : StateM Disk _) d with
  | mk log d' =>
    rw [hrun] at h
    obtain ⟨ws, r⟩ := log
    cases r with
    | ok results => cases h
    | error e => exact ⟨ws, e, by rw [(writeCase_of_run hrun).dry]⟩

/-- The files of the sample project are foretold on the sample disk. -/
theorem write_foretold_sample : ∃ ws results d',
    (write (Project.sampleFiles "x\r\r\ny") "" Project.sample.moduleRoot false .epoch : StateM Disk _) sampleDisk =
      (⟨ws, .ok results⟩, d') ∧
    (write (Project.sampleFiles "x\r\r\ny") "" Project.sample.moduleRoot true .epoch : StateM Disk _) sampleDisk =
      (⟨ws, .ok (results.map fun r => (foretold r.1, r.2))⟩, sampleDisk) ∧
    (results.map fun r => (foretold r.1, r.2)).head? = some (.wouldWrite, "main.go") := by
  obtain ⟨ws, results, d', hrun, hhead⟩ := sample_write
  have hdry := (write_foretold (Project.sampleFiles "x\r\r\ny") "" Project.sample.moduleRoot .epoch sampleDisk).2 _ _ _
    Project.load_sample (Project.generates_sampleFiles _ (by simp)) (fun front back h => by simp [parts_nil] at h)
    (Or.inl rfl) ws results .epoch d' hrun
  exact ⟨ws, results, d', hrun, hdry, by rw [List.head?_map, hhead]; rfl⟩

/-- The sample project at another module root, with another version. -/
def sampleAt (root version : String) : Project where
  descriptor := ⟨"a/" ++ version, "K", none, []⟩
  moduleRoot := root
  group := "a"
  version := version
  typesImportPath := root ++ "/pkg/apis/ks/" ++ version
  schedulerImportPath := root ++ "/pkg/scheduler"
  configImportPath := root ++ "/pkg/config"
  kindLowerCamel := "k"
  operatorName := root

/-- Its files, all with the same content. -/
def sampleFilesAt (root version : String) : List GeneratedFile := (sampleAt root version).plan.map fun f => ⟨f, "x"⟩

theorem generates_sampleFilesAt (root version : String) :
    (sampleAt root version).Generates (sampleFilesAt root version) :=
  Project.generates_of_plain _ fun _ _ => by with_unfolding_all rfl

theorem load_sampleAt :
    Project.load (Text.encode "apiVersion: a/v1\nkind: K\n") (.ok "m") = .ok (sampleAt "m" "v1") ∧
    Project.load (Text.encode "apiVersion: a/v1\nkind: K\n") (.ok "config.go") = .ok (sampleAt "config.go" "v1") ∧
    Project.load (Text.encode "apiVersion: a/main.go.pilot.tmp\nkind: K\n") (.ok "ks") =
      .ok (sampleAt "ks" "main.go.pilot.tmp") := by
  refine ⟨eq_ok_of_toOption ?_, eq_ok_of_toOption ?_, eq_ok_of_toOption ?_⟩
  all_goals decide +kernel

/-- A disk with an own configuration. -/
def ownDisk : Disk := diskOf [("b/pkg/config/config.go", "mine", false)]

theorem climbing_real :
    ((write (sampleFilesAt "m" "v1") "a/../b" "m" false .epoch : StateM Disk _) ownDisk).1.result.toOption.bind (·[2]?) =
      some (.skipped, "a/../b/pkg/config/config.go") := by decide +kernel

theorem climbing_dry :
    ((write (sampleFilesAt "m" "v1") "a/../b" "m" true .epoch : StateM Disk _) ownDisk).1.result.toOption.bind (·[2]?) =
      some (.wouldWrite, "a/../b/pkg/config/config.go") := by decide +kernel

theorem around_real : ((write (sampleFilesAt "config.go" "v1") "" "config.go/pkg/config" false .epoch : StateM Disk _)
    Disk.empty).1.result.toOption.bind (·[2]?) = some (.skipped, "config.go") := by decide +kernel

theorem around_dry : ((write (sampleFilesAt "config.go" "v1") "" "config.go/pkg/config" true .epoch : StateM Disk _)
    Disk.empty).1.result.toOption.bind (·[2]?) = some (.wouldWrite, "config.go") := by decide +kernel

/-- A disk with a stale draft of `main.go`. -/
def staleDisk : Disk := diskOf [("ks/main.go.pilot.tmp", "", false)]

theorem stale_real : ((write (sampleFilesAt "ks" "main.go.pilot.tmp") "" "ks/pkg/apis" false .epoch : StateM Disk _)
    staleDisk).1.result.toOption.bind (·[0]?) = some (.written, "ks/main.go") := by decide +kernel

theorem stale_dry : ((write (sampleFilesAt "ks" "main.go.pilot.tmp") "" "ks/pkg/apis" true .epoch : StateM Disk _)
    staleDisk).1.result.toOption.isNone = true := by decide +kernel

/-- What a dry run foretells may not come true under a root that climbs out of a missing directory, and under a module
    root that is not the project's own: a file that may be kept can have become a directory, and a stale draft can have
    gone that stood in the way. -/
theorem write_not_foretold :
    (Project.load (Text.encode "apiVersion: a/v1\nkind: K\n") (.ok "m") = .ok (sampleAt "m" "v1") ∧
      (sampleAt "m" "v1").Generates (sampleFilesAt "m" "v1") ∧ ∃ ws results d' ws' results',
      (write (sampleFilesAt "m" "v1") "a/../b" "m" false .epoch : StateM Disk _) ownDisk = (⟨ws, .ok results⟩, d') ∧
      (write (sampleFilesAt "m" "v1") "a/../b" "m" true .epoch : StateM Disk _) ownDisk = (⟨ws', .ok results'⟩, ownDisk) ∧
      results[2]? = some (.skipped, "a/../b/pkg/config/config.go") ∧
      results'[2]? = some (.wouldWrite, "a/../b/pkg/config/config.go")) ∧
    (Project.load (Text.encode "apiVersion: a/v1\nkind: K\n") (.ok "config.go") = .ok (sampleAt "config.go" "v1") ∧
      (sampleAt "config.go" "v1").Generates (sampleFilesAt "config.go" "v1") ∧ ∃ ws results d' ws' results',
      (write (sampleFilesAt "config.go" "v1") "" "config.go/pkg/config" false .epoch : StateM Disk _) Disk.empty =
        (⟨ws, .ok results⟩, d') ∧
      (write (sampleFilesAt "config.go" "v1") "" "config.go/pkg/config" true .epoch : StateM Disk _) Disk.empty =
        (⟨ws', .ok results'⟩, Disk.empty) ∧
      results[2]? = some (.skipped, "config.go") ∧ results'[2]? = some (.wouldWrite, "config.go")) ∧
    (Project.load (Text.encode "apiVersion: a/main.go.pilot.tmp\nkind: K\n") (.ok "ks") =
        .ok (sampleAt "ks" "main.go.pilot.tmp") ∧
      (sampleAt "ks" "main.go.pilot.tmp").Generates (sampleFilesAt "ks" "main.go.pilot.tmp") ∧ ∃ ws results d' ws' e,
      (write (sampleFilesAt "ks" "main.go.pilot.tmp") "" "ks/pkg/apis" false .epoch : StateM Disk _) staleDisk =
        (⟨ws, .ok results⟩, d') ∧
      (write (sampleFilesAt "ks" "main.go.pilot.tmp") "" "ks/pkg/apis" true .epoch : StateM Disk _) staleDisk =
        (⟨ws', .error e⟩, staleDisk)) := by
  -- each part compares two runs on one sample disk
  obtain ⟨hload, hloadAround, hloadStale⟩ := load_sampleAt
  refine ⟨⟨hload, generates_sampleFilesAt .., ?_⟩, ⟨hloadAround, generates_sampleFilesAt .., ?_⟩,
    hloadStale, generates_sampleFilesAt .., ?_⟩
  · obtain ⟨ws, results, d', hreal, hskipped⟩ := exists_of_ok climbing_real
    obtain ⟨ws', results', hdry, hpending⟩ := exists_dry_of_ok climbing_dry
    exact ⟨ws, results, d', ws', results', hreal, hdry, hskipped, hpending⟩
  · obtain ⟨ws, results, d', hreal, hskipped⟩ := exists_of_ok around_real
    obtain ⟨ws', results', hdry, hpending⟩ := exists_dry_of_ok around_dry
    exact ⟨ws, results, d', ws', results', hreal, hdry, hskipped, hpending⟩
  · obtain ⟨ws, results, d', hreal, -⟩ := exists_of_ok stale_real
    obtain ⟨ws', e, hdry⟩ := exists_dry_of_not_ok stale_dry
    exact ⟨ws, results, d', ws', e, hreal, hdry⟩

end Scaffold.Output
