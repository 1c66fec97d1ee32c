import Scaffold.Proofs.Output.Chronicle

/-! Changes from outside and the next write. A write warns of a file whose text is neither the new one nor the one
    that was recorded (`Run.warns`). Since what is recorded stays recorded, no change to a generated file is
    overwritten silently, whatever happens in between (`overwrites_not_silently`). -/

namespace Scaffold.Output
open Disk Scaffold.Path

variable {d d' : Disk} {t u : Target} {ts : List Target} {dryRun : Bool} {ledger ledger' : Ledger} {ws : List String}
  {o : Outcome} {os : List (Outcome × String)} {root rel digest text : String} {f : File}

/-! ### Warnings -/

/-- A step warns of a file that is neither as recorded nor as it is to be, even if it then fails. -/
theorem StepCase.warns {log : Logged (Outcome × Ledger)} (h : StepCase t dryRun ledger d d' log)
    (hskip : t.file.skipIfExists = false) (hpresent : Present d t.path (some f))
    (hrecorded : ledger.digest? t.rel = some digest) (hold : Sha256.ofText (textOf f) ≠ digest)
    (hnew : Sha256.ofText (textOf f) ≠ Sha256.ofText t.text) :
    log.warnings = [lostChanges t.path] := by
  have hwarned : warningsFor t (some f) ledger = [lostChanges t.path] := by
    simp [warningsFor, wasModified, hrecorded, hold]
  cases h with
  | kept hkept =>
    rw [hkept.1] at hskip
    cases hskip
  | unread _ hread => exact absurd hpresent (hread _)
  | matched _ hpresent' hsame =>
    obtain rfl := Option.some.inj (hpresent.eq hpresent')
    exact absurd (Option.some.inj hsame) hnew
  | pending _ hpresent' | placed _ hpresent' | broken _ hpresent' => rw [hpresent.eq hpresent', hwarned]

/-- The file is the one of that name, with that text, or is not in its place, nor is its draft. -/
def Target.Leaves (t : Target) (d : Disk) (root rel text : String) : Prop :=
  (t.rel = rel ∧ t.file.skipIfExists = false ∧ t.text = text) ∨
    (d.locate t.path ≠ d.locate (join root rel) ∧ d.locate (draftPath t.path) ≠ d.locate (join root rel))

theorem Run.warns (h : Run dryRun ts ledger d ws os ledger' d') (hunder : ∀ t ∈ ts, t.Under root)
    (hrel : ∃ t ∈ ts, t.rel = rel) (hleaves : ∀ t ∈ ts, t.Leaves d root rel text)
    (hpresent : Present d (join root rel) (some f)) (hrecorded : ledger.digest? rel = some digest)
    (hold : Sha256.ofText (textOf f) ≠ digest) (hnew : Sha256.ofText (textOf f) ≠ Sha256.ofText text) :
    lostChanges (join root rel) ∈ ws := by
  induction h with
  | nil => simp at hrel
  | @cons t ts l₀ l₁ l₂ d₀ d₁ d₂ ws ws' o os first rest ih =>
    have hstep := stepCase_of_run first
    have hkeeps := hstep.keeps
    obtain ⟨hhead, htail⟩ := List.forall_mem_cons.mp hleaves
    obtain ⟨hroot, hroots⟩ := List.forall_mem_cons.mp hunder
    have hpath : t.rel = rel → t.path = join root rel := fun heq => by rw [hroot.path, heq]
    rcases hhead with ⟨heq, hskip, rfl⟩ | ⟨haway, hdraft⟩
    · rw [← hpath heq] at hpresent ⊢
      rw [← heq] at hrecorded
      have hwarned : ws = [lostChanges _] := hstep.warns hskip hpresent hrecorded hold hnew
      simp [hwarned]
    · -- the file is still to come
      have hne : rel ≠ t.rel := fun heq => haway (by rw [hpath heq.symm])
      have hlater : ∃ u ∈ ts, u.rel = rel := by
        obtain ⟨u, hu, heq⟩ := hrel
        rcases List.mem_cons.mp hu with rfl | hu
        · exact absurd heq.symm hne
        · exact ⟨u, hu, heq⟩
      have hsame := hstep.get?_of_isSome (by simp [hpresent.2]) haway.symm hdraft.symm
      refine List.mem_append_right _ (ih hroots hlater ?_ (hpresent.keep hkeeps hsame) ?_)
      · simpa only [Target.Leaves, hkeeps.locate] using htail
      · rw [hstep.digest?_of_ne hne, hrecorded]

/-- A write warns of its first file if that is neither as recorded nor as it is to be, whatever becomes of the rest. -/
theorem Remembers.warns {r : Request} {file : GeneratedFile} {rest : List GeneratedFile}
    (h : Remembers d root (file.relativePath r.moduleRoot) digest) (hfiles : r.files = file :: rest)
    (htargets : ∃ ts, r.files.mapM (target root r.moduleRoot) = .ok ts) (hskip : file.skipIfExists = false)
    (hpresent : Present d (pathFor root r.moduleRoot file) (some f)) (hold : Sha256.ofText (textOf f) ≠ digest)
    (hnew : Sha256.ofText (textOf f) ≠ Sha256.ofText (uniform file.content)) :
    lostChanges (pathFor root r.moduleRoot file) ∈ (r.run root d).1.warnings := by
  obtain ⟨ts, htargets⟩ := htargets
  obtain ⟨ledger, hloaded, hrecorded⟩ := h.loadLedger r.now
  have hts := (mapM_target_eq_ok htargets).1
  rw [hfiles, List.map_cons] at hts
  subst hts
  -- the warning comes from the first step
  have first : ∀ {ws : List String} {x : Except Failure (Outcome × Ledger)} {d' : Disk},
      (writeUnlessKept (targetOf root r.moduleRoot file) r.dryRun ledger : StateM Disk _) d = (⟨ws, x⟩, d') →
      lostChanges (pathFor root r.moduleRoot file) ∈ ws := fun {ws x d'} hstep => by
    have hwarned : ws = [lostChanges (pathFor root r.moduleRoot file)] :=
      (stepCase_of_run hstep).warns hskip hpresent hrecorded hold hnew
    simp [hwarned]
  have hcase := r.writeCase root d
  generalize (r.run root d).2 = d', (r.run root d).1 = log at hcase
  cases hcase with
  | unloaded hload =>
    rw [hload] at hloaded
    cases hloaded
  | refused _ herror =>
    rw [htargets] at herror
    cases herror
  | stopped hload htargets' hstops =>
    rw [htargets] at htargets'
    rw [hload] at hloaded
    cases htargets'
    cases hloaded
    cases hstops with
    | here hstep => exact first hstep
    | later hstep _ => exact List.mem_append_left _ (first hstep)
  | previewed hload htargets' hrun | unsaved hload htargets' hrun | saved hload htargets' hrun =>
    rw [htargets] at htargets'
    rw [hload] at hloaded
    cases htargets'
    cases hloaded
    cases hrun with
    | cons hstep _ => exact List.mem_append_left _ (first hstep)

/-! ### Files that are generated together -/

theorem Separate.leaves (h : Separate d ts) (hunder : ∀ t ∈ ts, t.Under root) (ht : t ∈ ts)
    (hskip : t.file.skipIfExists = false) : ∀ u ∈ ts, u.Leaves d root t.rel t.text := by
  intro u hu
  by_cases heq : u = t
  · exact Or.inl ⟨by rw [heq], by rw [heq, hskip], by rw [heq]⟩
  · rw [Target.Leaves, ← (hunder t ht).path]
    exact Or.inr ⟨h.locate_ne hu ht heq, (h.drafts t ht u hu).symm⟩

/-! ### The next write -/

/-- All files of a request that have a relative path have one text; those of a loaded project do. -/
def Request.OneText (r : Request) (file : GeneratedFile) : Prop :=
  r.Generated ∨ ∀ g ∈ r.files, g.relativePath r.moduleRoot = file.relativePath r.moduleRoot →
    uniform g.content = uniform file.content

/-- The other files of a request leave the place of one alone; those of a loaded project do. -/
def Request.LeavesOthers (r : Request) (root : String) (d : Disk) (file : GeneratedFile) : Prop :=
  r.Generated ∨ ∀ g ∈ r.files, (targetOf root r.moduleRoot g).Leaves d root (file.relativePath r.moduleRoot)
    (uniform file.content)

theorem Request.OneText.targets {r : Request} {file : GeneratedFile} (h : r.OneText file) (hmem : file ∈ r.files)
    (htargets : r.files.mapM (target root r.moduleRoot) = .ok ts) :
    ∀ u ∈ ts, u.rel = file.relativePath r.moduleRoot → u.text = uniform file.content := by
  have hts := mapM_target_eq_ok htargets
  rcases h with ⟨_, _, p, hload, hfiles⟩ | hone
  · intro u hu hrel
    have hseparate := separate_of_generates (Project.loaded_of_load hload) hfiles htargets Disk.empty
    obtain ⟨rfl, hunder⟩ := hts
    rw [hseparate.eq_of_rel hunder hu (List.mem_map_of_mem hmem) hrel]
    rfl
  · obtain ⟨rfl, -⟩ := hts
    exact List.forall_mem_map.mpr hone

theorem Request.LeavesOthers.targets {r : Request} {file : GeneratedFile} (h : r.LeavesOthers root d file)
    (hmem : file ∈ r.files) (hskip : file.skipIfExists = false)
    (htargets : r.files.mapM (target root r.moduleRoot) = .ok ts) :
    ∀ u ∈ ts, u.Leaves d root (file.relativePath r.moduleRoot) (uniform file.content) := by
  have hts := mapM_target_eq_ok htargets
  rcases h with ⟨_, _, p, hload, hfiles⟩ | hleaves
  · have hseparate := separate_of_generates (Project.loaded_of_load hload) hfiles htargets d
    obtain ⟨rfl, hunder⟩ := hts
    exact hseparate.leaves hunder (List.mem_map_of_mem (f := targetOf root r.moduleRoot) hmem) hskip
  · obtain ⟨rfl, -⟩ := hts
    exact List.forall_mem_map.mpr hleaves

theorem remembers_of_run {r : Request} {results : List (Outcome × String)} {file : GeneratedFile} {o : Outcome × String}
    (hreal : r.dryRun = false) (hrun : r.run root d = (⟨ws, .ok results⟩, d')) (hmem : (file, o) ∈ r.files.zip results)
    (hwrote : o.1 = .written ∨ o.1 = .unchanged) (hone : r.OneText file) :
    Remembers d' root (file.relativePath r.moduleRoot) (Sha256.ofText (uniform file.content)) := by
  cases writeCase_of_run hrun with
  | previewed _ _ _ hdry => simp [hreal] at hdry
  | saved _ htargets hwrites _ hsave =>
    rw [hreal] at hwrites
    have htext := hone.targets (List.of_mem_zip hmem).1 htargets
    obtain ⟨rfl, -⟩ := mapM_target_eq_ok htargets
    have hkept : o.1 ≠ .skipped := by rcases hwrote with h | h <;> simp [h]
    exact hsave.remembers (hwrites.recorded (mem_zip_targets hmem) hkept fun u hu hrel => congrArg _ (htext u hu hrel))

/-- A write that succeeds warns of a file that has the text neither of the last write of it nor of this one. In between
    there may be writes of other files and changes from outside that leave the ledger in place. -/
theorem overwrites_not_silently {d₀ d₁ d₂ d₃ : Disk} {first last : Request} {ms : List Moment}
    {ws' : List String} {results results' : List (Outcome × String)} {file file' : GeneratedFile} {r : Outcome × String}
    (hreal : first.dryRun = false) (hfirst : first.run root d₀ = (⟨ws, .ok results⟩, d₁))
    (hmem : (file, r) ∈ first.files.zip results) (hwrote : r.1 = .written ∨ r.1 = .unchanged) (hone : first.OneText file)
    (hmiddle : Chronicle root d₁ ms d₂) (hspares : ∀ m ∈ ms, m.Spares root (file.relativePath first.moduleRoot))
    (hlast : last.run root d₂ = (⟨ws', .ok results'⟩, d₃)) (hmem' : file' ∈ last.files)
    (hrel : file'.relativePath last.moduleRoot = file.relativePath first.moduleRoot)
    (hskip : file'.skipIfExists = false) (hleaves : last.LeavesOthers root d₂ file')
    (hthere : Present d₂ (pathFor root last.moduleRoot file') (some f))
    (hold : textOf f ≠ uniform file.content) (hnew : textOf f ≠ uniform file'.content)
    (htold : ∀ text ∈ [uniform file.content, uniform file'.content],
      Sha256.ofText (textOf f) = Sha256.ofText text → textOf f = text) :
    lostChanges (pathFor root last.moduleRoot file') ∈ ws' := by
  obtain ⟨htoldOld, htoldNew⟩ := List.forall_mem_cons.mp htold
  rw [List.forall_mem_singleton] at htoldNew
  have hrecorded := remembers_of_run hreal hfirst hmem hwrote hone
  have hremembered := hmiddle.remembers hrecorded hspares
  -- so the last write finds it recorded
  have hwarns : ∀ {ledger ledger' : Ledger} {ts : List Target} {os : List (Outcome × String)} {d : Disk} {dryRun : Bool},
      (loadLedger root last.now : StateM Disk (Except Failure Ledger)) d₂ = (.ok ledger, d₂) →
      last.files.mapM (target root last.moduleRoot) = .ok ts → Run dryRun ts ledger d₂ ws' os ledger' d →
      lostChanges (pathFor root last.moduleRoot file') ∈ ws' := fun hload htargets hrun => by
    obtain ⟨ledger, hloaded, hdigest⟩ := hremembered.loadLedger last.now
    rw [hload] at hloaded
    cases hloaded
    have hfiles := hleaves.targets hmem' hskip htargets
    obtain ⟨rfl, hunder⟩ := mapM_target_eq_ok htargets
    refine hrun.warns hunder ⟨_, List.mem_map_of_mem hmem', rfl⟩ hfiles hthere (by rw [hrel, hdigest])
      (fun heq => hold (htoldOld heq)) (fun heq => hnew (htoldNew heq))
  cases writeCase_of_run hlast with
  | previewed hload htargets hrun => exact hwarns hload htargets hrun
  | saved hload htargets hrun => exact hwarns hload htargets hrun

/-! ### Samples -/

theorem run_of_answer {α : Type} {x : Logged α × Disk} {a : α}
    (h : (x.1.warnings, x.1.result.toOption) = (ws, some a)) : x = (⟨ws, .ok a⟩, x.2) := by
  obtain ⟨⟨ws', r⟩, d⟩ := x
  obtain ⟨rfl, hr⟩ := Prod.mk.inj h
  obtain rfl := eq_ok_of_toOption hr
  rfl

/-- A file that is always generated. -/
def plainFile (path text : String) : GeneratedFile := ⟨⟨path, "code/main.go.tera", false, false, .project⟩, text⟩

/-- A real write of files with these paths and texts. -/
def request (files : List (String × String)) : Request where
  files := files.map fun (path, text) => plainFile path text
  moduleRoot := "m"
  dryRun := false
  now := .epoch

/-- A file with a text that somebody wrote. -/
def mine : File := ⟨Text.encode "mine", 0o644⟩

/-- The disk after that text is written over a file. -/
def overwritten (d : Disk) (path : String) : Disk := (d.write path mine.bytes).toOption.getD d

theorem becomes_overwritten (d : Disk) (path : String) : overwritten d path = d ∨
    (d.get? (d.locate path) ≠ some .directory ∧
      Becomes d (overwritten d path) (d.locate path) (some (.file ⟨mine.bytes, modeOf (d.get? (d.locate path))⟩))) := by
  unfold overwritten
  cases hwrite : d.write path mine.bytes with
  | error e => exact Or.inl rfl
  | ok d' =>
    obtain ⟨-, hfree, hwritten⟩ := write_ok hwrite
    exact Or.inr ⟨hfree, hwritten⟩

theorem get?_overwritten {d : Disk} {path : String} {l : Location} (hl : l ≠ d.locate path) :
    (overwritten d path).get? l = d.get? l := by
  rcases becomes_overwritten d path with heq | ⟨-, hwritten⟩
  · rw [heq]
  · exact hwritten.get?_of_ne hl

theorem keeps_overwritten (d : Disk) (path : String) : Keeps d (overwritten d path) := by
  rcases becomes_overwritten d path with heq | ⟨hfree, hwritten⟩
  · exact heq.symm ▸ Keeps.refl d
  · exact hwritten.keeps hfree

theorem mine_differs : textOf mine ≠ uniform "x" ∧ textOf mine ≠ uniform "y" ∧
    ∀ text ∈ [uniform "x", uniform "y"], Sha256.ofText (textOf mine) = Sha256.ofText text → textOf mine = text := by
  decide +kernel

/-- What a run answers, to be computed. -/
def answer (x : Logged (List (Outcome × String)) × Disk) : List String × Option (List (Outcome × String)) :=
  (x.1.warnings, x.1.result.toOption)

theorem locate_after (r : Request) (root path : String) (d : Disk) : (r.run root d).2.locate path = d.locate path :=
  (r.keeps root d).locate path

/-- A write of one file. -/
def alone : Logged (List (Outcome × String)) × Disk := (request [("p/m", "x")]).run "" Disk.empty

theorem alone_answers : answer alone = ([], some [(.written, "p/m")]) ∧
    ((overwritten alone.2 "p/m").find "p/m").toOption.map (·.entry) = some (.file mine) ∧
    answer ((request [("p/m", "y")]).run "" (overwritten alone.2 "p/m")) =
      ([lostChanges "p/m"], some [(.written, "p/m")]) ∧
    answer ((request [("p//m", "x"), ("p/m", "y")]).run "" (overwritten alone.2 "p/m")) =
      ([], some [(.written, "p//m"), (.written, "p/m")]) := by decide +kernel

theorem alone_runs : ∃ d₁ d₂ d₃ d₄, (request [("p/m", "x")]).run "" Disk.empty = (⟨[], .ok [(.written, "p/m")]⟩, d₁) ∧
    overwritten d₁ "p/m" = d₂ ∧ Present d₂ "p/m" (some mine) ∧
    (request [("p/m", "y")]).run "" d₂ = (⟨[lostChanges "p/m"], .ok [(.written, "p/m")]⟩, d₃) ∧
    (request [("p//m", "x"), ("p/m", "y")]).run "" d₂ = (⟨[], .ok [(.written, "p//m"), (.written, "p/m")]⟩, d₄) := by
  have hanswers := alone_answers
  unfold alone at hanswers
  obtain ⟨hfirst, hentry, hlast, halias⟩ := hanswers
  exact ⟨_, _, _, _, run_of_answer hfirst, rfl, present_of_entry hentry, run_of_answer hlast, run_of_answer halias⟩

theorem locate_of_run {r : Request} {log : Logged (List (Outcome × String))} (h : r.run root d = (log, d'))
    (path : String) : d'.locate path = d.locate path := by
  have hkeeps := r.keeps root d
  rw [h] at hkeeps
  exact hkeeps.locate path

/-- A file that is changed after it was written is warned of. -/
theorem overwrites_not_silently_sample : ∃ d₁ d₂ d₃ ws results,
    (request [("p/m", "x")]).run "" Disk.empty = (⟨[], .ok [(.written, "p/m")]⟩, d₁) ∧
    Chronicle "" d₁ [⟨d₁, .edit, d₂⟩] d₂ ∧ Present d₂ "p/m" (some mine) ∧
    (request [("p/m", "y")]).run "" d₂ = (⟨ws, .ok results⟩, d₃) ∧ lostChanges "p/m" ∈ ws := by
  obtain ⟨d₁, d₂, d₃, -, hfirst, rfl, hpresent, hlast, -⟩ := alone_runs
  have hmiddle : Chronicle "" d₁ [⟨d₁, .edit, overwritten d₁ "p/m"⟩] (overwritten d₁ "p/m") := .edit .start _
  have hledger : d₁.locate (ledgerPath "") ≠ d₁.locate "p/m" := by
    rw [locate_of_run hfirst, locate_of_run hfirst]
    decide +kernel
  refine ⟨d₁, _, d₃, _, _, hfirst, hmiddle, hpresent, hlast, ?_⟩
  have hmem : (plainFile "p/m" "x", (Outcome.written, "p/m")) ∈
      (request [("p/m", "x")]).files.zip [(.written, "p/m")] := by simp [request]
  have hmem' : plainFile "p/m" "y" ∈ (request [("p/m", "y")]).files := by simp [request]
  have hone : (request [("p/m", "x")]).OneText (plainFile "p/m" "x") := Or.inr (by simp [request])
  have hleaves : (request [("p/m", "y")]).LeavesOthers "" (overwritten d₁ "p/m") (plainFile "p/m" "y") := by
    refine Or.inr fun g hg => Or.inl ?_
    obtain rfl : g = plainFile "p/m" "y" := by simpa [request] using hg
    exact ⟨rfl, rfl, rfl⟩
  have hspares : ∀ m ∈ [⟨d₁, .edit, overwritten d₁ "p/m"⟩],
      Moment.Spares "" ((plainFile "p/m" "x").relativePath "m") m := by
    rw [List.forall_mem_singleton]
    exact fun f hf => hf.keep (keeps_overwritten d₁ "p/m") (get?_overwritten hledger)
  have hpath : pathFor "" (request [("p/m", "y")]).moduleRoot (plainFile "p/m" "y") = "p/m" := by decide +kernel
  obtain ⟨hold, hnew, htold⟩ := mine_differs
  have hwarned := overwrites_not_silently rfl hfirst hmem (Or.inl rfl) hone hmiddle hspares hlast hmem' rfl rfl hleaves
    (hpath ▸ hpresent) hold hnew htold
  rwa [hpath] at hwarned

/-! ### Changes that are lost -/

/-- Nothing that the ledger has for a file is touched: a write is of other files, and a change from outside leaves what
    stands in the place of the ledger. -/
def Moment.Aside (root rel : String) (m : Moment) : Prop :=
  match m.event with
  | .write r => ∀ file ∈ r.files, file.relativePath r.moduleRoot ≠ rel
  | .edit => m.after.get? (m.before.locate (ledgerPath root)) = m.before.get? (m.before.locate (ledgerPath root))

theorem aside_overwritten {rel path : String} (h : d.locate (ledgerPath root) ≠ d.locate path) :
    Moment.Aside root rel ⟨d, .edit, overwritten d path⟩ := get?_overwritten h

example : (overwritten (diskOf [("main.go", "x", false), (".pilot/hashes.json", "y", false)]) "main.go").file?
    ["hashes.json", ".pilot"] = some ⟨Text.encode "y", 0o644⟩ := by decide +kernel

/-- A file that a first write has written is changed and then written again, without a warning. -/
def SilentlyOverwritten (root rel : String) (first last : Request) : Prop :=
  ∃ ms d₁ d₂ d₃ results results', first.run root Disk.empty = (⟨[], .ok results⟩, d₁) ∧
    (.written, join root rel) ∈ results ∧ Chronicle root d₁ ms d₂ ∧ (∀ m ∈ ms, m.Aside root rel) ∧
    Present d₂ (join root rel) (some mine) ∧ last.run root d₂ = (⟨[], .ok results'⟩, d₃) ∧
    (.written, join root rel) ∈ results'

/-- A write of `main.go`. -/
def mainRun (root : String) : Logged (List (Outcome × String)) × Disk := (request [("main.go", "x")]).run root Disk.empty

/-- After it the directory is removed that the root climbs out of, and another file is written. -/
def strayed : Disk := ((request [("other.go", "x")]).run "a/../b" ((mainRun "a/../b").2.removeInside ["a"])).2

theorem strayed_answers : answer (mainRun "a/../b") = ([], some [(.written, "a/../b/main.go")]) ∧
    ((overwritten strayed "b/main.go").find "a/../b/main.go").toOption.map (·.entry) = some (.file mine) ∧
    answer ((request [("main.go", "y")]).run "a/../b" (overwritten strayed "b/main.go")) =
      ([], some [(.written, "a/../b/main.go")]) := by decide +kernel

theorem strayed_runs : ∃ d₁ d₂ d₃ d₄,
    (request [("main.go", "x")]).run "a/../b" Disk.empty = (⟨[], .ok [(.written, "a/../b/main.go")]⟩, d₁) ∧
    ((request [("other.go", "x")]).run "a/../b" (d₁.removeInside ["a"])).2 = d₂ ∧ overwritten d₂ "b/main.go" = d₃ ∧
    Present d₃ "a/../b/main.go" (some mine) ∧
    (request [("main.go", "y")]).run "a/../b" d₃ = (⟨[], .ok [(.written, "a/../b/main.go")]⟩, d₄) := by
  have hanswers := strayed_answers
  unfold strayed mainRun at hanswers
  obtain ⟨hfirst, hentry, hlast⟩ := hanswers
  exact ⟨_, _, _, _, run_of_answer hfirst, rfl, rfl, present_of_entry hentry, run_of_answer hlast⟩

/-- A write that puts a file in the place of the ledger, and fails. -/
def displacing : Request :=
  request [(".pilot/hashes.json", "[\"1970-01-01T00:00:00Z\",\x7b\x7d]"), ("main.go/other.go", "x")]

theorem displacing_answers : answer (mainRun "") = ([], some [(.written, "main.go")]) ∧
    ((overwritten (displacing.run "" (mainRun "").2).2 "main.go").find "main.go").toOption.map (·.entry) =
      some (.file mine) ∧
    answer ((request [("main.go", "y")]).run "" (overwritten (displacing.run "" (mainRun "").2).2 "main.go")) =
      ([], some [(.written, "main.go")]) := by decide +kernel

theorem displacing_runs : ∃ d₁ d₂ d₃ d₄,
    (request [("main.go", "x")]).run "" Disk.empty = (⟨[], .ok [(.written, "main.go")]⟩, d₁) ∧
    (displacing.run "" d₁).2 = d₂ ∧ overwritten d₂ "main.go" = d₃ ∧ Present d₃ "main.go" (some mine) ∧
    (request [("main.go", "y")]).run "" d₃ = (⟨[], .ok [(.written, "main.go")]⟩, d₄) := by
  have hanswers := displacing_answers
  unfold mainRun at hanswers
  obtain ⟨hfirst, hentry, hlast⟩ := hanswers
  exact ⟨_, _, _, _, run_of_answer hfirst, rfl, rfl, present_of_entry hentry, run_of_answer hlast⟩

/-- Changes are lost without a warning if a directory is removed that the root climbs out of, so that the next write
    begins a new ledger; if a file is put in the place of the ledger; and if another file of the last write goes to the
    same place. -/
theorem overwrites_silently :
    SilentlyOverwritten "a/../b" "main.go" (request [("main.go", "x")]) (request [("main.go", "y")]) ∧
    SilentlyOverwritten "" "main.go" (request [("main.go", "x")]) (request [("main.go", "y")]) ∧
    SilentlyOverwritten "" "p/m" (request [("p/m", "x")]) (request [("p//m", "x"), ("p/m", "y")]) ∧
    textOf mine ≠ uniform "x" ∧ textOf mine ≠ uniform "y" := by
  have hjoin : join "a/../b" "main.go" = "a/../b/main.go" ∧ join "" "main.go" = "main.go" ∧ join "" "p/m" = "p/m" := by
    decide +kernel
  obtain ⟨hjoin, hjoin', hjoin''⟩ := hjoin
  refine ⟨?_, ?_, ?_, mine_differs.1, mine_differs.2.1⟩
  · obtain ⟨d₁, d₂, d₃, d₄, hfirst, hsecond, rfl, hpresent, hlast⟩ := strayed_runs
    have hledger : d₁.locate (ledgerPath "a/../b") = ["hashes.json", ".pilot", "b"] := by
      rw [locate_of_run hfirst]
      decide +kernel
    have hafter : ∀ path, d₂.locate path = d₁.locate path := fun path => by
      rw [← hsecond]
      exact locate_after _ _ _ _
    have hmiddle : Chronicle "a/../b" d₁ [⟨d₁, .edit, d₁.removeInside ["a"]⟩,
        ⟨d₁.removeInside ["a"], .write (request [("other.go", "x")]), d₂⟩, ⟨d₂, .edit, overwritten d₂ "b/main.go"⟩]
        (overwritten d₂ "b/main.go") := by
      rw [← hsecond]
      exact ((Chronicle.start.edit _).write _).edit _
    have hfile : d₂.locate (ledgerPath "a/../b") ≠ d₂.locate "b/main.go" := by
      rw [hafter, hafter, locate_of_run hfirst, locate_of_run hfirst]
      decide +kernel
    rw [SilentlyOverwritten, hjoin]
    refine ⟨_, d₁, _, d₄, _, _, hfirst, by simp, hmiddle, ?_, hpresent, hlast, by simp⟩
    rw [List.forall_mem_cons, List.forall_mem_cons, List.forall_mem_singleton]
    refine ⟨?_, ?_, aside_overwritten hfile⟩
    · change (d₁.removeInside ["a"]).get? _ = _
      rw [hledger, get?_removeInside, if_neg (by decide)]
    · have hrel : (plainFile "other.go" "x").relativePath "m" ≠ "main.go" := by decide +kernel
      simpa [Moment.Aside, request] using hrel
  · obtain ⟨d₁, d₂, d₃, d₄, hfirst, rfl, rfl, hpresent, hlast⟩ := displacing_runs
    have hledger : (displacing.run "" d₁).2.locate (ledgerPath "") ≠ (displacing.run "" d₁).2.locate "main.go" := by
      rw [locate_after, locate_after, locate_of_run hfirst, locate_of_run hfirst]
      decide +kernel
    rw [SilentlyOverwritten, hjoin']
    refine ⟨_, d₁, _, d₄, _, _, hfirst, by simp, (Chronicle.start.write displacing).edit _, ?_, hpresent, hlast, by simp⟩
    rw [List.nil_append, List.singleton_append, List.forall_mem_cons, List.forall_mem_singleton]
    refine ⟨?_, aside_overwritten hledger⟩
    have hrels : ∀ file ∈ displacing.files, file.relativePath displacing.moduleRoot ≠ "main.go" := by decide +kernel
    exact hrels
  · obtain ⟨d₁, d₂, -, d₄, hfirst, rfl, hpresent, -, hlast⟩ := alone_runs
    have hledger : d₁.locate (ledgerPath "") ≠ d₁.locate "p/m" := by
      rw [locate_of_run hfirst, locate_of_run hfirst]
      decide +kernel
    rw [SilentlyOverwritten, hjoin'']
    refine ⟨_, d₁, _, d₄, _, _, hfirst, by simp, Chronicle.start.edit _, ?_, hpresent, hlast, by simp⟩
    rw [List.nil_append, List.forall_mem_singleton]
    exact aside_overwritten hledger

end Scaffold.Output
