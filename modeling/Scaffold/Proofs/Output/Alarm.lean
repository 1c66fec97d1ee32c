import Scaffold.Proofs.Output.Overwritten
import Scaffold.Proofs.Output.Traced

/-! Warnings and what has been changed. A write that records the digest of a file leaves the file with a text of that
    digest (`Moment.Records.text`). So if a write warns of a file, the bytes of the file have been changed since they
    were recorded. The last change was made from outside, or by a write that did not record it: one that failed, since
    the ledger is recorded when all files are written, or one that has the place under another relative path
    (`warns_of_changed`). -/

namespace Scaffold.Output
open Disk Scaffold.Path

/-! ### What a write leaves -/

theorem LeftAs.exists_file {d d' : Disk} {t : Target} {o : Outcome} (h : LeftAs d d' t o)
    (hskip : t.file.skipIfExists = false) : ∃ f, d'.get? (d.locate t.path) = some (.file f) := by
  cases o with
  | skipped =>
    have hskipped : t.file.skipIfExists = true := h.1
    rw [hskip] at hskipped
    cases hskipped
  | unchanged =>
    obtain ⟨f, -, -, hafter⟩ := h
    exact ⟨_, hafter⟩
  | written =>
    obtain ⟨mode, -, hafter⟩ := h
    exact ⟨_, hafter⟩
  | wouldWrite => exact h.elim

section Write
variable {d d' : Disk} {root rel digest : String} {r : Request} {u : Target} {ws : List String} {m : Moment}

theorem exists_mem_zip {α β : Type} {as : List α} {bs : List β} (h : as.length = bs.length) {a : α} (ha : a ∈ as) :
    ∃ b, (a, b) ∈ as.zip bs := by
  rw [← List.map_fst_zip (Nat.le_of_eq h), List.mem_map] at ha
  obtain ⟨⟨_, b⟩, hmem, rfl⟩ := ha
  exact ⟨b, hmem⟩

theorem leftAs_of_run {results : List (Outcome × String)} (hr : r.Generated) (hdry : r.dryRun = false)
    (hrun : r.run root d = (⟨ws, .ok results⟩, d')) : r.files.length = results.length ∧ ∀ x ∈ r.files.zip results,
      (targetOf root r.moduleRoot x.1).Planned root ∧ LeftAs d d' (targetOf root r.moduleRoot x.1) x.2.1 := by
  obtain ⟨bytes, resolved, p, hload, hfiles⟩ := hr
  cases writeCase_of_run hrun with
  | previewed _ _ _ htrue => simp [hdry] at htrue
  | @saved _ _ _ _ _ _ _ _ htargets hwrites _ hsave =>
    rw [hdry] at hwrites
    have hplanned := planned_of_generates hfiles htargets
    have hleft := hwrites.leftAs (separate_of_generates (Project.loaded_of_load hload) hfiles htargets d) (Keeps.refl d)
      fun _ _ => rfl
    obtain ⟨rfl, -⟩ := mapM_target_eq_ok htargets
    refine ⟨by simpa using hleft.length_eq, fun x hx => ?_⟩
    have hmem : (targetOf root r.moduleRoot x.1, x.2) ∈ (r.files.map (targetOf root r.moduleRoot)).zip results :=
      mem_zip_targets hx
    have hown := hplanned _ (List.of_mem_zip hmem).1
    obtain ⟨-, hstands⟩ := List.forall₂_zip hleft hmem
    have hne := hown.ne_ledger d root
    rw [← hwrites.keeps.locate (ledgerPath root), ← hwrites.keeps.locate (ledgerDraftPath root)] at hne
    refine ⟨hown, hstands.congr (Keeps.refl d) rfl ?_⟩
    -- the ledger is recorded beside what stands there
    rcases hsave.other _ hne.1 hne.2 with hsame | ⟨-, hnone, -⟩
    · exact hsame
    · have hthere := hstands.isSome
      rw [hnone] at hthere
      cases hthere

/-- After a digest has been recorded the file has a text of that digest. -/
theorem Moment.Records.text (h : m.Records root rel digest) (hlawful : m.Lawful root) (hcalm : m.Calm rel) :
    ∃ f, m.after.file? (m.after.locate (join root rel)) = some f ∧ Sha256.ofText (textOf f) = digest := by
  obtain ⟨r, ws, results, hevent, hdry, hrun, ⟨file, outcome, path⟩, hx, rfl, hkept, rfl⟩ := h
  have hkeeps := (writeCase_of_run hrun).keeps
  rw [hkeeps.locate]
  obtain ⟨-, hleft⟩ := (leftAs_of_run (hlawful.generated hevent) hdry hrun).2 _ hx
  cases outcome with
  | skipped => exact absurd rfl hkept
  | unchanged =>
    obtain ⟨f, -, hsame, hafter⟩ := hleft
    exact ⟨_, file?_eq_some.mpr hafter, hsame⟩
  | written =>
    obtain ⟨mode, -, hafter⟩ := hleft
    have htext : uniform (uniform file.content) = uniform file.content :=
      (uniform_uniform _).mpr (hcalm r hevent file (List.of_mem_zip hx).1 rfl)
    exact ⟨_, file?_eq_some.mpr hafter, congrArg Sha256.ofText ((textOf_of_bytes rfl).trans htext)⟩
  | wouldWrite => exact hleft.elim

theorem file?_of_run_elsewhere (hr : r.Generated) (hu : u.Planned root)
    (haway : ∀ file ∈ r.files, d.locate u.path ≠ d.locate (pathFor root r.moduleRoot file)) :
    (r.run root d).2.file? (d.locate u.path) = d.file? (d.locate u.path) := by
  obtain ⟨_, _, p, -, hfiles⟩ := hr
  have hapart : ∀ {ts : List Target}, r.files.mapM (target root r.moduleRoot) = .ok ts →
      ∀ t ∈ ts, d.locate u.path ≠ d.locate t.path ∧ d.locate u.path ≠ d.locate (draftPath t.path) := by
    intro ts htargets t ht
    refine ⟨?_, hu.ne_draft d (planned_of_generates hfiles htargets t ht)⟩
    obtain ⟨rfl, -⟩ := mapM_target_eq_ok htargets
    obtain ⟨file, hfile, rfl⟩ := List.mem_map.mp ht
    exact haway file hfile
  obtain ⟨hledger, hledgerDraft⟩ := hu.ne_ledger d root
  have hcase := r.writeCase root d
  generalize (r.run root d).2 = d', (r.run root d).1 = log at hcase
  cases hcase with
  | unloaded | refused | previewed => rfl
  | stopped _ htargets hstops => exact hstops.file?_eq (hapart htargets)
  | unsaved _ htargets hrun _ hsave =>
    rw [(hsave.other _ (by rwa [hrun.keeps.locate])).file?_eq, hrun.file?_eq (hapart htargets)]
  | saved _ htargets hrun _ hsave =>
    rw [(hsave.other _ (by rwa [hrun.keeps.locate]) (by rwa [hrun.keeps.locate])).file?_eq,
      hrun.file?_eq (hapart htargets)]

/-- What a write changes it has a file for, which it does not skip if it succeeds. -/
theorem changed_of_run (hr : r.Generated) (hu : u.Planned root)
    (hchanges : Moment.Changes (d.locate u.path) ⟨d, .write r, (r.run root d).2⟩) :
    r.dryRun = false ∧ ∃ file ∈ r.files, d.locate (pathFor root r.moduleRoot file) = d.locate u.path ∧
      ∀ ws results d', r.run root d = (⟨ws, .ok results⟩, d') →
        ∃ o, (file, o) ∈ r.files.zip results ∧ o.1 ≠ .skipped := by
  have hreal : r.dryRun = false := by
    rw [← Bool.not_eq_true]
    intro hdry
    have hcase := r.writeCase root d
    rw [hdry] at hcase
    exact hchanges (by rw [hcase.dry])
  refine ⟨hreal, ?_⟩
  obtain ⟨file, hfile, heq⟩ : ∃ file ∈ r.files, d.locate u.path = d.locate (pathFor root r.moduleRoot file) := by
    by_contra hnone
    push Not at hnone
    exact hchanges (by rw [file?_of_run_elsewhere hr hu hnone])
  refine ⟨file, hfile, heq.symm, fun ws results d' hrun => ?_⟩
  obtain ⟨hlength, hleft⟩ := leftAs_of_run hr hreal hrun
  obtain ⟨o, ho⟩ := exists_mem_zip hlength hfile
  refine ⟨o, ho, fun hskipped => hchanges ?_⟩
  have hstands := (hleft _ ho).2
  rw [hskipped] at hstands
  rw [hrun, heq]
  exact congrArg (Option.map File.bytes) hstands.2.2

end Write

/-! ### Warnings -/

section Warnings
variable {d d' d₁ : Disk} {root : String} {r : Request} {ts : List Target} {t u : Target} {dryRun : Bool}
  {ledger ledger' l₁ : Ledger} {ws : List String} {os : List (Outcome × String)} {o : Outcome} {w : String}

theorem lostChanges_injective : Function.Injective lostChanges := fun path path' h => by
  rw [← String.toList_inj] at h ⊢
  simpa [lostChanges] using h

/-- What stands in the place of a file is not what is recorded for it. -/
def Alarming (d : Disk) (ledger : Ledger) (t : Target) : Prop :=
  ∃ f digest, d.file? (d.locate t.path) = some f ∧ ledger.digest? t.rel = some digest ∧ Sha256.ofText (textOf f) ≠ digest

theorem alarming_of_warning {f? : Option File} (hpresent : Present d t.path f?) (h : w ∈ warningsFor t f? ledger) :
    w = lostChanges t.path ∧ Alarming d ledger t := by
  unfold warningsFor at h
  split at h
  · rename_i hmodified
    refine ⟨List.mem_singleton.mp h, ?_⟩
    cases f? with
    | none => simp [wasModified] at hmodified
    | some f =>
      cases hdigest : ledger.digest? t.rel with
      | none => simp [wasModified, hdigest] at hmodified
      | some digest =>
        exact ⟨f, digest, file?_eq_some.mpr hpresent.2, hdigest, by simpa [wasModified, hdigest] using hmodified⟩
  · cases h

theorem StepCase.alarming {log : Logged (Outcome × Ledger)} (h : StepCase t dryRun ledger d d' log)
    (hw : w ∈ log.warnings) : w = lostChanges t.path ∧ Alarming d ledger t := by
  cases h with
  | kept | unread | matched => cases hw
  | pending _ hpresent | placed _ hpresent | broken _ hpresent => exact alarming_of_warning hpresent hw

/-- What is alarming after the step on another file was so before it. -/
theorem Alarming.before (h : Alarming d₁ l₁ u) (hstep : StepCase t dryRun ledger d d₁ ⟨ws, .ok (o, l₁)⟩)
    (hsep : Separate d (t :: ts)) (hunder : ∀ t' ∈ t :: ts, t'.Under root) (hu : u ∈ ts) : Alarming d ledger u := by
  obtain ⟨f, digest, hfile, hdigest, hne⟩ := h
  obtain ⟨hroot, hroots⟩ := List.forall_mem_cons.mp hunder
  have hplace : d.locate t.path ≠ d.locate u.path := (List.pairwise_cons.mp hsep.paths).1 u hu
  have hrel : u.rel ≠ t.rel := fun heq => hplace (by rw [hroot.path_eq (hroots u hu) heq.symm])
  rw [hstep.keeps.locate, hstep.file?_eq hplace.symm
    (hsep.drafts u (List.mem_cons_of_mem _ hu) t (List.mem_cons_self ..))] at hfile
  rw [hstep.digest?_of_ne hrel] at hdigest
  exact ⟨f, digest, hfile, hdigest, hne⟩

/-- A run warns only of files that were alarming when it began. -/
theorem Run.alarming (h : Run dryRun ts ledger d ws os ledger' d') (hsep : Separate d ts)
    (hunder : ∀ t ∈ ts, t.Under root) (hw : w ∈ ws) : ∃ t ∈ ts, w = lostChanges t.path ∧ Alarming d ledger t := by
  induction h with
  | nil => cases hw
  | cons first _ ih =>
    have hstep := stepCase_of_run first
    rcases List.mem_append.mp hw with hw | hw
    · exact ⟨_, List.mem_cons_self .., hstep.alarming hw⟩
    · obtain ⟨t, ht, heq, halarming⟩ := ih (hsep.tail.keep hstep.keeps) (List.forall_mem_cons.mp hunder).2 hw
      exact ⟨t, List.mem_cons_of_mem _ ht, heq, halarming.before hstep hsep hunder ht⟩

theorem Stops.alarming {e : Failure} (h : Stops dryRun ts ledger d ws e d') (hsep : Separate d ts)
    (hunder : ∀ t ∈ ts, t.Under root) (hw : w ∈ ws) : ∃ t ∈ ts, w = lostChanges t.path ∧ Alarming d ledger t := by
  induction h with
  | here step => exact ⟨_, List.mem_cons_self .., (stepCase_of_run step).alarming hw⟩
  | later first _ ih =>
    have hstep := stepCase_of_run first
    rcases List.mem_append.mp hw with hw | hw
    · exact ⟨_, List.mem_cons_self .., hstep.alarming hw⟩
    · obtain ⟨t, ht, heq, halarming⟩ := ih (hsep.tail.keep hstep.keeps) (List.forall_mem_cons.mp hunder).2 hw
      exact ⟨t, List.mem_cons_of_mem _ ht, heq, halarming.before hstep hsep hunder ht⟩

/-- A write warns only of files that are not as the ledger has them. -/
theorem Request.alarming (hr : r.Generated) {file : GeneratedFile} (hfile : file ∈ r.files)
    (hw : lostChanges (pathFor root r.moduleRoot file) ∈ (r.run root d).1.warnings) :
    ∃ ledger, (loadLedger root r.now : StateM Disk (Except Failure Ledger)) d = (.ok ledger, d) ∧
      (targetOf root r.moduleRoot file).Planned root ∧ Alarming d ledger (targetOf root r.moduleRoot file) := by
  obtain ⟨_, _, p, hload, hfiles⟩ := hr
  -- the file that the warning is about is this one
  have found : ∀ {ledger : Ledger} {ts : List Target}, r.files.mapM (target root r.moduleRoot) = .ok ts →
      (Separate d ts → (∀ t ∈ ts, t.Under root) →
        ∃ t ∈ ts, lostChanges (pathFor root r.moduleRoot file) = lostChanges t.path ∧ Alarming d ledger t) →
      (targetOf root r.moduleRoot file).Planned root ∧ Alarming d ledger (targetOf root r.moduleRoot file) :=
    fun htargets halarms => by
      have hsep := separate_of_generates (Project.loaded_of_load hload) hfiles htargets d
      have hplanned := planned_of_generates hfiles htargets
      obtain ⟨rfl, hunder⟩ := mapM_target_eq_ok htargets
      have hmem := List.mem_map_of_mem (f := targetOf root r.moduleRoot) hfile
      obtain ⟨t, ht, heq, halarming⟩ := halarms hsep hunder
      have hpath : (targetOf root r.moduleRoot file).path = t.path := lostChanges_injective heq
      have hsame : targetOf root r.moduleRoot file = t := by
        by_contra hne
        exact hsep.locate_ne hmem ht hne (by rw [hpath])
      exact ⟨hplanned _ hmem, hsame ▸ halarming⟩
  have hcase := r.writeCase root d
  generalize (r.run root d).2 = d', (r.run root d).1 = log at hcase hw
  cases hcase with
  | unloaded | refused => cases hw
  | stopped hledger htargets hstops =>
    exact ⟨_, hledger, found htargets fun hsep hunder => hstops.alarming hsep hunder hw⟩
  | previewed hledger htargets hrun | unsaved hledger htargets hrun | saved hledger htargets hrun =>
    exact ⟨_, hledger, found htargets fun hsep hunder => hrun.alarming hsep hunder hw⟩

end Warnings

/-! ### No false alarms -/

/-- A change from outside, or a write that has a file in a place and did not record it under a relative path, since it
    failed or has the place under another one. -/
def Moment.Unnoticed (root rel : String) (l : Location) (m : Moment) : Prop :=
  m.event = .edit ∨ ∃ r, m.event = .write r ∧ r.dryRun = false ∧ ∃ file ∈ r.files,
    m.before.locate (pathFor root r.moduleRoot file) = l ∧
    ((∃ e, (r.run root m.before).1.result = .error e) ∨ file.relativePath r.moduleRoot ≠ rel)

/-- In a history of writes of generated files and of changes from outside that leave the ledger alone, a write warns of
    a file only if the bytes of it have been changed since the last write that wrote it or found it unchanged and
    succeeded, and the last change was made from outside, or by a write that failed, or by a write that has the place
    under another relative path. -/
theorem warns_of_changed {root : String} {d₀ d : Disk} {ms : List Moment} {r : Request} {file : GeneratedFile}
    (h : Chronicle root d₀ ms d) (hfresh : d₀.file? (d₀.locate (ledgerPath root)) = none)
    (hlawful : ∀ m ∈ ms, m.Lawful root) (hcalm : ∀ m ∈ ms, m.Calm (file.relativePath r.moduleRoot))
    (hr : r.Generated) (hfile : file ∈ r.files)
    (hw : lostChanges (pathFor root r.moduleRoot file) ∈ (r.run root d).1.warnings) :
    ∃ recording since, IsLast (·.Recording root (file.relativePath r.moduleRoot)) ms recording since ∧
      ∃ change after, IsLast (·.Changes (d.locate (pathFor root r.moduleRoot file))) since change after ∧
        change.Unnoticed root (file.relativePath r.moduleRoot) (d.locate (pathFor root r.moduleRoot file)) := by
  obtain ⟨ledger, hload, hplanned, f, digest, hf, hdigest, hdiffers⟩ := Request.alarming hr hfile hw
  obtain ⟨recording, since, hrecords, hrecording⟩ := (h.traced hfresh hlawful).loadLedger hload _ _ hdigest
  refine ⟨recording, since, hrecording, ?_⟩
  have hsince := hrecording.subset
  obtain ⟨before, rfl⟩ := hrecording.split
  obtain ⟨-, hafter⟩ := h.split
  have hlawfulSince : ∀ m ∈ since, m.Lawful root := fun m hm => hlawful m (hsince m (List.mem_cons_of_mem _ hm))
  -- the file had the text that was recorded, so it has been changed
  obtain ⟨f₁, hf₁, htext⟩ := hrecords.text (hlawful _ (hsince _ (List.mem_cons_self ..)))
    (hcalm _ (hsince _ (List.mem_cons_self ..)))
  rw [← hafter.locate hlawfulSince] at hf₁
  have hbytes : (d.file? (d.locate (pathFor root r.moduleRoot file))).map File.bytes ≠
      (recording.after.file? (d.locate (pathFor root r.moduleRoot file))).map File.bytes := fun heq => hdiffers <| by
    have hsame : f.bytes = f₁.bytes := Option.some.inj ((congrArg _ hf).symm.trans (heq.trans (congrArg _ hf₁)))
    rw [← htext, textOf, hsame, textOf]
  obtain ⟨change, after, hchange⟩ := hafter.exists_change hbytes
  refine ⟨change, after, hchange, ?_⟩
  have hmem := hchange.subset _ (List.mem_cons_self ..)
  cases hevent : change.event with
  | edit => exact Or.inl hevent
  | write r' =>
    have hvalid := hafter.valid change hmem r' hevent
    have hlocate : d.locate (pathFor root r.moduleRoot file) = change.before.locate (pathFor root r.moduleRoot file) := by
      obtain ⟨between, rfl⟩ := hchange.split
      rw [hafter.locate hlawfulSince, hafter.split.1.locate fun m hm => hlawfulSince m (List.mem_append_left _ hm)]
    have hchanges := hchange.here
    rw [hlocate, Moment.Changes, hvalid] at hchanges
    obtain ⟨hreal, other, hother, heq, hkept⟩ := changed_of_run ((hlawfulSince _ hmem).generated hevent) hplanned hchanges
    refine Or.inr ⟨r', hevent, hreal, other, hother, heq.trans hlocate.symm, ?_⟩
    generalize hrun : r'.run root change.before = run at hvalid ⊢
    obtain ⟨⟨ws, result⟩, d'⟩ := run
    cases result with
    | error e => exact Or.inl ⟨e, rfl⟩
    | ok results =>
      -- otherwise it would have been recorded
      refine Or.inr fun hrel => hrecording.later change hmem ?_
      obtain ⟨o, ho, hnotSkipped⟩ := hkept _ _ _ hrun
      exact ⟨_, r', ws, results, hevent, hreal, by rw [hrun, hvalid], (other, o), ho, hrel, hnotSkipped, rfl⟩

/-! ### Files that are replaced -/

section Replaced
variable {d d' : Disk} {root : String} {r : Request} {file : GeneratedFile} {rest : List GeneratedFile} {t : Target}
  {ledger ledger' : Ledger} {ws : List String}

/-- A file that is there and can be replaced. -/
structure Replaceable (d : Disk) (path : String) : Prop where
  present : ∃ f, Present d path (some f)
  draft : d.get? (d.locate (draftPath path)) = none
  holdsDraft : d.Holds (draftPath path)
  parent : parentOf path = "" ∨ d.IsDirectoryAt (parentOf path)

theorem Standing.replaceable (h : Standing d t .written) : Replaceable d t.path := by
  cases h with
  | written hpresent _ hdraft hholds hparent => exact ⟨⟨_, hpresent⟩, hdraft, hholds, hparent⟩

theorem Replaceable.not_error {e : Failure} (h : Replaceable d t.path) :
    ¬StepCase t false ledger d d' ⟨ws, .error e⟩ := by
  obtain ⟨f, hpresent⟩ := h.present
  intro hstep
  cases hstep with
  | unread _ hread => exact hread _ hpresent
  | broken _ _ _ _ hplace _ =>
    obtain ⟨d'', hplaced⟩ := place_succeeds t.text t.file.executable hpresent.1 (by simp [hpresent.2]) h.holdsDraft
      h.draft h.parent
    rw [hplaced] at hplace
    cases hplace

theorem StepCase.placed_of_differs {o : Outcome} (h : StepCase t false ledger d d' ⟨ws, .ok (o, ledger')⟩)
    (hskip : t.file.skipIfExists = false) (hdiffers : ∀ f?, Present d t.path f? → ¬Matches t f?) :
    Placed d d' t.path t.text t.file.executable := by
  cases h with
  | kept hkept =>
    rw [hkept.1] at hskip
    cases hskip
  | matched _ hpresent hsame => exact absurd hsame (hdiffers _ hpresent)
  | pending _ _ _ hdry => cases hdry
  | placed _ _ _ _ hplaced => exact hplaced

/-- A real write replaces its first file if that can be replaced, even if it then fails. -/
theorem file_of_run {log : Logged (List (Outcome × String))} (hr : r.Generated) (hreal : r.dryRun = false)
    (hfiles : r.files = file :: rest)
    (hload : ∃ ledger, (loadLedger root r.now : StateM Disk (Except Failure Ledger)) d = (.ok ledger, d))
    (htargets : ∃ ts, r.files.mapM (target root r.moduleRoot) = .ok ts) (hskip : file.skipIfExists = false)
    (hreplaceable : Replaceable d (pathFor root r.moduleRoot file))
    (hdiffers : ∀ f?, Present d (pathFor root r.moduleRoot file) f? → ¬Matches (targetOf root r.moduleRoot file) f?)
    (hrun : r.run root d = (log, d')) :
    ∃ mode, d'.get? (d.locate (pathFor root r.moduleRoot file)) =
      some (.file ⟨Text.encode (uniform file.content), mode⟩) := by
  obtain ⟨_, _, p, hloadP, hgenerates⟩ := hr
  obtain ⟨ledger, hledger⟩ := hload
  obtain ⟨ts, htargets⟩ := htargets
  have hsep := separate_of_generates (Project.loaded_of_load hloadP) hgenerates htargets d
  have hhead := planned_of_generates hgenerates htargets (targetOf root r.moduleRoot file)
  obtain ⟨rfl, -⟩ := mapM_target_eq_ok htargets
  have hcase := writeCase_of_run hrun
  rw [hreal] at hcase
  rw [hfiles, List.map_cons] at hsep hhead
  obtain ⟨hledger', hdraft⟩ := (hhead (List.mem_cons_self ..)).ne_ledger d root
  -- the steps on the rest leave it alone
  have hapart : ∀ {d₁ : Disk}, Keeps d d₁ → ∀ t ∈ rest.map (targetOf root r.moduleRoot),
      d.locate (pathFor root r.moduleRoot file) ≠ d₁.locate t.path ∧
      d.locate (pathFor root r.moduleRoot file) ≠ d₁.locate (draftPath t.path) := fun hkeeps t ht => by
    rw [hkeeps.locate, hkeeps.locate]
    exact ⟨(List.pairwise_cons.mp hsep.paths).1 t ht, hsep.drafts _ (List.mem_cons_self ..) t (List.mem_cons_of_mem _ ht)⟩
  have replaced : ∀ {ledger ledger' : Ledger} {ws : List String} {os : List (Outcome × String)} {mid : Disk},
      Run false (r.files.map (targetOf root r.moduleRoot)) ledger d ws os ledger' mid →
      ∃ mode, mid.get? (d.locate (pathFor root r.moduleRoot file)) =
        some (.file ⟨Text.encode (uniform file.content), mode⟩) := fun hwrites => by
    rw [hfiles, List.map_cons] at hwrites
    cases hwrites with
    | cons hfirst hlater =>
      have hplaced := (stepCase_of_run hfirst).placed_of_differs hskip hdiffers
      have hsame := hlater.get?_of_isSome (Option.isSome_of_eq_some hplaced.file) (hapart hplaced.keeps)
      exact ⟨_, hsame.trans hplaced.file⟩
  cases hcase with
  | unloaded herror =>
    rw [hledger] at herror
    cases herror
  | refused _ herror =>
    rw [htargets] at herror
    cases herror
  | stopped _ htargets' hstops =>
    rw [htargets] at htargets'
    cases htargets'
    rw [hfiles, List.map_cons] at hstops
    cases hstops with
    | here hstep => exact absurd (stepCase_of_run hstep) hreplaceable.not_error
    | later hfirst hlater =>
      have hplaced := (stepCase_of_run hfirst).placed_of_differs hskip hdiffers
      have hsame := hlater.get?_of_isSome (Option.isSome_of_eq_some hplaced.file) (hapart hplaced.keeps)
      exact ⟨_, hsame.trans hplaced.file⟩
  | previewed _ _ _ hdry => cases hdry
  | unsaved _ htargets' hwrites _ hsave =>
    rw [htargets] at htargets'
    cases htargets'
    obtain ⟨mode, hfile⟩ := replaced hwrites
    exact ⟨mode, (hsave.other _ (by rwa [hwrites.keeps.locate])).get?_file hfile⟩
  | saved _ htargets' hwrites _ hsave =>
    rw [htargets] at htargets'
    cases htargets'
    obtain ⟨mode, hfile⟩ := replaced hwrites
    exact ⟨mode, (hsave.other _ (by rwa [hwrites.keeps.locate]) (by rwa [hwrites.keeps.locate])).get?_file hfile⟩

theorem exists_error_of_directory (hr : r.Generated) (hreal : r.dryRun = false) (hfile : file ∈ r.files)
    (hskip : file.skipIfExists = false) (hdir : d.get? (d.locate (pathFor root r.moduleRoot file)) = some .directory) :
    ∃ ws e d', r.run root d = (⟨ws, .error e⟩, d') := by
  have hkeeps := r.keeps root d
  generalize hrun : r.run root d = run at hkeeps ⊢
  obtain ⟨⟨ws, result⟩, d'⟩ := run
  cases result with
  | error e => exact ⟨ws, e, d', rfl⟩
  | ok results =>
    obtain ⟨hlength, hleft⟩ := leftAs_of_run hr hreal hrun
    obtain ⟨o, ho⟩ := exists_mem_zip hlength hfile
    obtain ⟨f, hf⟩ := (hleft _ ho).2.exists_file hskip
    cases (hkeeps.directory _ hdir).symm.trans hf

end Replaced

/-! ### Samples -/

/-- A request for the files of the sample project, all with the same text. -/
def sampleRequest (text : String) (dryRun : Bool) : Request := ⟨Project.sampleFiles text, "m", dryRun, .epoch⟩

theorem generated_sampleRequest (dryRun : Bool) : ∀ text ∈ ["x", "y"], (sampleRequest text dryRun).Generated := by
  have hsamples : ["x", "y"] ⊆ ["", "x", "y", "x\r\r\ny"] := by decide
  exact fun text htext =>
    ⟨_, _, Project.sample, Project.load_sample, Project.generates_sampleFiles text (hsamples htext)⟩

/-- The first files of the sample project. -/
def mainFile (text : String) : GeneratedFile := ⟨⟨"m/main.go", "code/main.go.tera", false, false, .project⟩, text⟩

def schedulerFile (text : String) : GeneratedFile :=
  ⟨⟨"m/pkg/scheduler/scheduler.go", "code/scheduler.go.tera", false, false, .project⟩, text⟩

theorem sampleFiles_eq (text : String) : ∃ rest, Project.sampleFiles text = mainFile text :: schedulerFile text :: rest :=
  ⟨_, rfl⟩

theorem mem_sampleFiles (text : String) :
    mainFile text ∈ Project.sampleFiles text ∧ schedulerFile text ∈ Project.sampleFiles text := by
  obtain ⟨rest, hfiles⟩ := sampleFiles_eq text
  simp [hfiles]

theorem sample_first : ∃ ws results d', (sampleRequest "x" false).run "" Disk.empty = (⟨ws, .ok results⟩, d') ∧
    results.head? = some (.written, "main.go") := exists_of_head (by decide +kernel)

/-- The place of the second file. -/
def schedulerPlace : Location := ["scheduler.go", "scheduler", "pkg"]

theorem sample_places : (∀ text ∈ ["x", "y"], Disk.empty.locate (pathFor "" "m" (mainFile text)) = ["main.go"] ∧
    Disk.empty.locate (draftPath (pathFor "" "m" (mainFile text))) = ["main.go.pilot.tmp"] ∧
    Disk.empty.locate (pathFor "" "m" (schedulerFile text)) = schedulerPlace) ∧
    Disk.empty.locate (ledgerPath "") = ["hashes.json", ".pilot"] := by decide +kernel

theorem sample_digests {f : File} :
    (f.bytes = Text.encode (uniform "x") → Sha256.ofText (textOf f) ≠ Sha256.ofText (uniform "y")) ∧
    (f.bytes = Text.encode (uniform "y") → Sha256.ofText (textOf f) ≠ Sha256.ofText (uniform "x")) := by
  have hdigests : Sha256.ofText (uniform (uniform "x")) ≠ Sha256.ofText (uniform "y") ∧
      Sha256.ofText (uniform (uniform "y")) ≠ Sha256.ofText (uniform "x") := by decide +kernel
  exact ⟨fun hbytes => textOf_of_bytes hbytes ▸ hdigests.1, fun hbytes => textOf_of_bytes hbytes ▸ hdigests.2⟩

theorem exists_targets {files : List GeneratedFile} {root moduleRoot : String}
    (h : (files.mapM (target root moduleRoot)).toOption.isSome = true) :
    ∃ ts, files.mapM (target root moduleRoot) = .ok ts := by
  obtain ⟨ts, hts⟩ := Option.isSome_iff_exists.mp h
  exact ⟨ts, eq_ok_of_toOption hts⟩

theorem sample_targets : ∀ text ∈ ["x", "y"], ∃ ts, (Project.sampleFiles text).mapM (target "" "m") = .ok ts := by
  have hsome : ∀ text ∈ ["x", "y"], ((Project.sampleFiles text).mapM (target "" "m")).toOption.isSome = true := by
    decide +kernel
  exact fun text htext => exists_targets (hsome text htext)

theorem exists_directory_for_file {d : Disk} {f : File} : ∀ {l : Location}, d.get? l = some (.file f) →
    ∃ d', Becomes d d' l (some .directory)
  | [], hfile => by
    rw [d.get?_root] at hfile
    cases hfile
  | name :: dir, hfile =>
    have hfree : d.get? (name :: dir) ≠ some .directory := by simp [hfile]
    ⟨d.put name ⟨dir, d.parent_isDirectory hfile⟩ .directory hfree, becomes_put _⟩

theorem calm_sampleRequest : ∀ text ∈ ["x", "y"], ∀ (d d' : Disk) (rel : String),
    Moment.Calm rel ⟨d, .write (sampleRequest text false), d'⟩ := by
  intro text htext d d' rel r hevent file hfile _
  cases hevent
  obtain ⟨f, -, rfl⟩ := List.mem_map.mp hfile
  have hnone : ∀ text ∈ ["x", "y"], ¬Text.doubledReturn <:+: text.toList := by decide
  exact hnone text htext

/-- Where the first file stands as the first texts left it, and a directory in the place of the second file, a write of
    the second texts changes the first file, fails, and leaves the ledger. -/
theorem exists_failure (hlocate : ∀ path, d.locate path = Disk.empty.locate path)
    (hdir : d.get? schedulerPlace = some .directory)
    (hremembered : Remembers d "" "main.go" (Sha256.ofText (uniform "x")))
    (hstanding : Standing d (targetOf "" "m" (mainFile "x")) .written) :
    ∃ ws e d' mode, (sampleRequest "y" false).run "" d = (⟨ws, .error e⟩, d') ∧
      Remembers d' "" "main.go" (Sha256.ofText (uniform "x")) ∧
      Present d' (pathFor "" "m" (mainFile "x")) (some ⟨Text.encode (uniform "y"), mode⟩) := by
  have hgenerated := generated_sampleRequest false "y" (by simp)
  have hdiffers : ∀ f?, Present d (pathFor "" "m" (mainFile "y")) f? → ¬Matches (targetOf "" "m" (mainFile "y")) f? := by
    intro f? hpresent hsame
    cases hstanding with
    | written hthere hbytes =>
      rw [hthere.eq hpresent] at hsame
      exact sample_digests.1 hbytes (Option.some.inj hsame)
  obtain ⟨ws, e, d', hrun⟩ := exists_error_of_directory hgenerated rfl (mem_sampleFiles "y").2 rfl
    (by rw [hlocate]; exact (sample_places.1 "y" (by simp)).2.2.symm ▸ hdir)
  have hkeeps : Keeps d d' := (writeCase_of_run hrun).keeps
  obtain ⟨mode, hfile⟩ := file_of_run hgenerated rfl (sampleFiles_eq "y").choose_spec
    ((hremembered.loadLedger .epoch).imp fun _ h => h.1) (sample_targets "y" (by simp)) rfl
    hstanding.replaceable hdiffers hrun
  refine ⟨ws, e, d', mode, hrun, ?_, ?_⟩
  · obtain ⟨_, _, -, hcut⟩ := write_cutOff (Project.loaded_of_load Project.load_sample)
      (Project.generates_sampleFiles "y" (by simp)) hrun
    exact hremembered.keep hkeeps fun f hf => file?_eq_some.mp (hcut.ledger.trans (file?_eq_some.mpr hf))
  · obtain ⟨f, hpresent⟩ := hstanding.replaceable.present
    exact ⟨hpresent.1.keep hkeeps, by rw [hkeeps.locate]; exact hfile⟩

/-- A first write succeeds. Then a directory is put in the place of the second file. A write of other texts changes the
    first file, fails at the second, and leaves the ledger. So a third write warns of the first file, though it has not
    been changed from outside. -/
theorem exists_interrupted : ∃ ms d, Chronicle "" Disk.empty ms d ∧
    ms.map Moment.event = [.write (sampleRequest "x" false), .edit, .write (sampleRequest "y" false)] ∧
    (∀ m ∈ ms, m.Lawful "") ∧ (∀ m ∈ ms, ∀ rel, m.Calm rel) ∧
    (∀ m ∈ ms, m.event = .edit → ∀ l, l ≠ schedulerPlace → m.after.get? l = m.before.get? l) ∧
    lostChanges (pathFor "" "m" (mainFile "x")) ∈ ((sampleRequest "x" true).run "" d).1.warnings := by
  obtain ⟨ws, results, d₁, hfirst, hhead⟩ := sample_first
  obtain ⟨restResults, rfl⟩ := List.head?_eq_some_iff.mp hhead
  obtain ⟨hplaces, hledger⟩ := sample_places
  have hgeneratedX := generated_sampleRequest false "x" (by simp)
  have hgeneratedY := generated_sampleRequest false "y" (by simp)
  have hmain : (mainFile "x", (Outcome.written, "main.go")) ∈
      (sampleRequest "x" false).files.zip ((.written, "main.go") :: restResults) := by
    obtain ⟨rest, hfiles⟩ := sampleFiles_eq "x"
    rw [sampleRequest, hfiles, List.zip_cons_cons]
    exact List.mem_cons_self ..
  -- the change from outside
  obtain ⟨f, hf⟩ : ∃ f, d₁.get? schedulerPlace = some (.file f) := by
    obtain ⟨hlength, hleft⟩ := leftAs_of_run hgeneratedX rfl hfirst
    obtain ⟨o, ho⟩ := exists_mem_zip hlength (mem_sampleFiles "x").2
    rw [← (hplaces "x" (by simp)).2.2]
    exact (hleft _ ho).2.exists_file rfl
  obtain ⟨d₂, hedit⟩ := exists_directory_for_file hf
  have hkeeps := hedit.keeps (by simp [hf])
  have hlocate : ∀ path, d₂.locate path = Disk.empty.locate path := fun path => by
    rw [hkeeps.locate, locate_of_run hfirst]
  -- the ledger has the first text of the first file
  have hremembered : Remembers d₂ "" "main.go" (Sha256.ofText (uniform "x")) := by
    refine (remembers_of_run rfl hfirst hmain (Or.inl rfl) (Or.inl hgeneratedX)).keep hkeeps fun f hf => ?_
    rw [hedit.get?_of_ne, hf]
    rw [locate_of_run hfirst, hledger]
    decide
  have hstanding : Standing d₂ (targetOf "" "m" (mainFile "x")) .written := by
    obtain ⟨ledger, -, hready, -⟩ := write_again (Project.loaded_of_load Project.load_sample)
      (Project.generates_sampleFiles "x" (by simp)) hfirst .epoch
    refine (List.forall₂_zip hready (mem_zip_targets hmain)).standing.keep hkeeps fun l hl => hedit.get?_of_ne ?_
    obtain ⟨hpath, hdraft, -⟩ := hplaces "x" (by simp)
    simp only [footprint, locate_of_run hfirst, List.mem_cons, List.not_mem_nil, or_false] at hl
    rcases hl with rfl | rfl
    · exact hpath ▸ (by decide)
    · exact hdraft ▸ (by decide)
  -- the write that fails
  obtain ⟨ws₂, e, d₃, mode, hsecond, hremembered₃, hpresent₃⟩ :=
    exists_failure hlocate (hedit.get?_self) hremembered hstanding
  -- the history
  have hstart : Chronicle "" Disk.empty [] Disk.empty := .start
  have hchronicle := ((hstart.write (sampleRequest "x" false)).edit d₂).write (sampleRequest "y" false)
  rw [hsecond, hfirst] at hchronicle
  rw [List.nil_append, List.singleton_append, List.cons_append, List.singleton_append] at hchronicle
  refine ⟨_, d₃, hchronicle, rfl, ?_, ?_, ?_, ?_⟩
  · simp only [List.forall_mem_cons, List.not_mem_nil, false_implies, implies_true, and_true]
    refine ⟨hgeneratedX, ⟨hkeeps.current, file?_eq_of_get? (hedit.get?_of_ne ?_)⟩, hgeneratedY⟩
    rw [locate_of_run hfirst, hledger]
    decide
  · have hedited : ∀ rel, Moment.Calm rel ⟨d₁, .edit, d₂⟩ := fun rel r hevent => by cases hevent
    simp only [List.forall_mem_cons, List.not_mem_nil, false_implies, implies_true, and_true]
    exact ⟨calm_sampleRequest "x" (by simp) _ _, hedited, calm_sampleRequest "y" (by simp) _ _⟩
  · simp only [List.forall_mem_cons, List.not_mem_nil, false_implies, implies_true, and_true]
    refine ⟨fun hevent => ?_, fun _ l hl => hedit.get?_of_ne hl, fun hevent => ?_⟩
    all_goals cases hevent
  · obtain ⟨rest, hfiles⟩ := sampleFiles_eq "x"
    exact hremembered₃.warns hfiles (sample_targets "x" (by simp)) rfl hpresent₃
      (sample_digests.2 rfl) (sample_digests.2 rfl)

/-- The last change of the file that the third write warns of was not made from outside. -/
theorem warns_of_changed_sample : ∃ ms d,
    lostChanges (pathFor "" "m" (mainFile "x")) ∈ ((sampleRequest "x" true).run "" d).1.warnings ∧
    ∃ recording since, IsLast (·.Recording "" ((mainFile "x").relativePath "m")) ms recording since ∧
      ∃ change after, IsLast (·.Changes (d.locate (pathFor "" "m" (mainFile "x")))) since change after ∧
        change.Unnoticed "" ((mainFile "x").relativePath "m") (d.locate (pathFor "" "m" (mainFile "x"))) := by
  obtain ⟨ms, d, hchronicle, -, hlawful, hcalm, -, hwarned⟩ := exists_interrupted
  have hfresh : Disk.empty.file? (Disk.empty.locate (ledgerPath "")) = none := by
    rw [sample_places.2]
    decide
  have hgenerated := generated_sampleRequest true "x" (by simp)
  have hmem : mainFile "x" ∈ (sampleRequest "x" true).files := (mem_sampleFiles "x").1
  exact ⟨ms, d, hwarned, warns_of_changed hchronicle hfresh hlawful (fun m hm => hcalm m hm _) hgenerated hmem hwarned⟩

/-- The sample project at another module root, whose last name is `b`. -/
def sampleUnder (root : String) : Project where
  descriptor := ⟨"a/v1", "K", none, []⟩
  moduleRoot := root
  group := "a"
  version := "v1"
  typesImportPath := root ++ "/pkg/apis/ks/v1"
  schedulerImportPath := root ++ "/pkg/scheduler"
  configImportPath := root ++ "/pkg/config"
  kindLowerCamel := "k"
  operatorName := "b"

/-- A request for its files, all with the same text, relative to the module root `m`. -/
def requestUnder (root text : String) (dryRun : Bool) : Request :=
  ⟨(sampleUnder root).plan.map fun f => ⟨f, text⟩, "m", dryRun, .epoch⟩

def mainFileUnder (root text : String) : GeneratedFile :=
  ⟨⟨root ++ "/main.go", "code/main.go.tera", false, false, .project⟩, text⟩

theorem load_sampleUnder : ∀ root ∈ ["a//b", "a/b"],
    Project.load (Text.encode "apiVersion: a/v1\nkind: K\n") (.ok root) = .ok (sampleUnder root) := by
  have hload : ∀ root ∈ ["a//b", "a/b"],
      (Project.load (Text.encode "apiVersion: a/v1\nkind: K\n") (.ok root)).toOption = some (sampleUnder root) := by
    decide +kernel
  exact fun root hroot => eq_ok_of_toOption (hload root hroot)

theorem generated_requestUnder (dryRun : Bool) :
    (requestUnder "a//b" "x" dryRun).Generated ∧ (requestUnder "a/b" "y" dryRun).Generated :=
  ⟨⟨_, _, _, load_sampleUnder "a//b" (by simp), Project.generates_of_plain _ fun _ _ => by with_unfolding_all rfl⟩,
    ⟨_, _, _, load_sampleUnder "a/b" (by simp), Project.generates_of_plain _ fun _ _ => by with_unfolding_all rfl⟩⟩

/-- A disk on which two paths lead to one file, which can be replaced by way of the second. -/
structure Doubled (d : Disk) : Prop where
  first : Present d "a//b/main.go" (some ⟨Text.encode "x", 0o644⟩)
  second : Present d "a/b/main.go" (some ⟨Text.encode "x", 0o644⟩)
  replaceable : Replaceable d "a/b/main.go"

/-- A write under a module root with a doubled slash. -/
def doubled : Logged (List (Outcome × String)) × Disk := (requestUnder "a//b" "x" false).run "" Disk.empty

theorem doubled_answers : doubled.1.result.toOption.map List.head? = some (some (.written, "a//b/main.go")) ∧
    (doubled.2.find "a//b/main.go").toOption.map (·.entry) = some (.file ⟨Text.encode "x", 0o644⟩) ∧
    (doubled.2.find "a/b/main.go").toOption.map (·.entry) = some (.file ⟨Text.encode "x", 0o644⟩) ∧
    doubled.2.get? (doubled.2.locate (draftPath "a/b/main.go")) = none ∧
    (doubled.2.place (draftPath "a/b/main.go")).toOption.map (fun p => (p.name.isSome, p.slash)) = some (true, false) ∧
    (doubled.2.find "a/b").toOption.map (·.entry) = some .directory := by decide +kernel

theorem doubled_run : ∃ ws results d, (requestUnder "a//b" "x" false).run "" Disk.empty = (⟨ws, .ok results⟩, d) ∧
    results.head? = some (.written, "a//b/main.go") ∧ Doubled d := by
  have hanswers := doubled_answers
  unfold doubled at hanswers
  obtain ⟨hhead, hentry, hentry', hdraft, hplace, hparent⟩ := hanswers
  have hpresent := present_of_entry hentry'
  obtain ⟨ws, results, d, hrun, hfirst⟩ := exists_of_head hhead
  rw [hrun] at hentry hdraft hplace hparent hpresent
  refine ⟨ws, results, d, hrun, hfirst, present_of_entry hentry, hpresent, ⟨_, hpresent⟩, hdraft, ?_, Or.inr ?_⟩
  · obtain ⟨⟨dir, name, slash⟩, hat, hends⟩ := Option.map_eq_some_iff.mp hplace
    obtain ⟨hname, rfl⟩ := Prod.mk.inj hends
    obtain ⟨name, rfl⟩ := Option.isSome_iff_exists.mp hname
    exact holds_of_place (eq_ok_of_toOption hat) rfl rfl
  · obtain ⟨r, hfind, hentry⟩ := Option.map_eq_some_iff.mp hparent
    obtain ⟨hopens, hlocation, -⟩ := find_eq_ok.mp (eq_ok_of_toOption hfind)
    exact ⟨hopens, hlocation ▸ hentry ▸ r.here⟩

theorem requestUnder_files (root text : String) (dryRun : Bool) :
    ∃ rest, (requestUnder root text dryRun).files = mainFileUnder root text :: rest := ⟨_, rfl⟩

theorem doubled_paths : pathFor "" "m" (mainFileUnder "a//b" "x") = "a//b/main.go" ∧
    pathFor "" "m" (mainFileUnder "a/b" "y") = "a/b/main.go" ∧
    Disk.empty.locate "a//b/main.go" = Disk.empty.locate "a/b/main.go" ∧
    (∀ file ∈ (requestUnder "a/b" "y" false).files, file.relativePath "m" ≠ (mainFileUnder "a//b" "x").relativePath "m") ∧
    ((requestUnder "a//b" "x" true).files.mapM (target "" "m")).toOption.isSome = true ∧
    ((requestUnder "a/b" "y" false).files.mapM (target "" "m")).toOption.isSome = true := by decide +kernel

/-- Two writes go to the same places, the second with other texts and under other relative paths. So a third write
    warns of a file, though nothing at all has been changed from outside. -/
theorem exists_doubled : ∃ ms d, Chronicle "" Disk.empty ms d ∧
    ms.map Moment.event = [.write (requestUnder "a//b" "x" false), .write (requestUnder "a/b" "y" false)] ∧
    (∀ m ∈ ms, m.Lawful "") ∧
    lostChanges (pathFor "" "m" (mainFileUnder "a//b" "x")) ∈ ((requestUnder "a//b" "x" true).run "" d).1.warnings := by
  obtain ⟨ws, results, d₁, hfirst, hhead, hpresent, hpresent', hreplaceable⟩ := doubled_run
  obtain ⟨restResults, rfl⟩ := List.head?_eq_some_iff.mp hhead
  obtain ⟨hpath, hpath', hlocate, hrels, htargetsX, htargetsY⟩ := doubled_paths
  obtain ⟨hgeneratedX, hgeneratedY⟩ := generated_requestUnder false
  have hmain : (mainFileUnder "a//b" "x", (Outcome.written, "a//b/main.go")) ∈
      (requestUnder "a//b" "x" false).files.zip ((.written, "a//b/main.go") :: restResults) := by
    obtain ⟨rest, hfiles⟩ := requestUnder_files "a//b" "x" false
    rw [hfiles, List.zip_cons_cons]
    exact List.mem_cons_self ..
  have hremembered : Remembers d₁ "" ((mainFileUnder "a//b" "x").relativePath "m") (Sha256.ofText (uniform "x")) :=
    remembers_of_run rfl hfirst hmain (Or.inl rfl) (Or.inl hgeneratedX)
  -- the second write does not touch what is recorded, but replaces the file
  obtain ⟨log, d₂, hsecond⟩ : ∃ log d₂, (requestUnder "a/b" "y" false).run "" d₁ = (log, d₂) := ⟨_, _, rfl⟩
  have hremembered₂ := hremembered.write (r := requestUnder "a/b" "y" false) (Or.inl hgeneratedY) hrels
  have hkeeps := (requestUnder "a/b" "y" false).keeps "" d₁
  rw [hsecond] at hremembered₂ hkeeps
  have hdiffers : ∀ f?, Present d₁ (pathFor "" "m" (mainFileUnder "a/b" "y")) f? →
      ¬Matches (targetOf "" "m" (mainFileUnder "a/b" "y")) f? := by
    intro f? hthere hsame
    rw [hpath'] at hthere
    rw [hpresent'.eq hthere] at hsame
    exact sample_digests.1 rfl (Option.some.inj hsame)
  obtain ⟨mode, hmainY⟩ := file_of_run hgeneratedY rfl (requestUnder_files "a/b" "y" false).choose_spec
    ((hremembered.loadLedger .epoch).imp fun _ h => h.1) (exists_targets htargetsY) rfl
    (hpath'.symm ▸ hreplaceable) hdiffers hsecond
  have hpresent₂ : Present d₂ (pathFor "" "m" (mainFileUnder "a//b" "x")) (some ⟨Text.encode (uniform "y"), mode⟩) := by
    rw [hpath]
    refine ⟨hpresent.1.keep hkeeps, ?_⟩
    rw [hkeeps.locate, locate_of_run hfirst, hlocate, ← locate_of_run hfirst, ← hpath']
    exact hmainY
  have hstart : Chronicle "" Disk.empty [] Disk.empty := .start
  have hchronicle := (hstart.write (requestUnder "a//b" "x" false)).write (requestUnder "a/b" "y" false)
  rw [hfirst, hsecond, List.nil_append, List.singleton_append] at hchronicle
  refine ⟨_, d₂, hchronicle, rfl, ?_, ?_⟩
  · simp only [List.forall_mem_cons, List.not_mem_nil, false_implies, implies_true, and_true]
    exact ⟨hgeneratedX, hgeneratedY⟩
  · obtain ⟨rest, hfiles⟩ := requestUnder_files "a//b" "x" true
    exact hremembered₂.warns (r := requestUnder "a//b" "x" true) hfiles (exists_targets htargetsX) rfl hpresent₂
      (sample_digests.2 rfl) (sample_digests.2 rfl)

/-- After these events a write warns of a file, and all changes from outside were in the place of another one. -/
def FalseAlarm (events : List Event) (last : Request) (file : GeneratedFile) : Prop :=
  ∃ ms d, Chronicle "" Disk.empty ms d ∧ ms.map Moment.event = events ∧ (∀ m ∈ ms, m.Lawful "") ∧
    (∀ m ∈ ms, m.event = .edit → ∀ l, l ≠ schedulerPlace → m.after.get? l = m.before.get? l) ∧
    d.locate (pathFor "" last.moduleRoot file) ≠ schedulerPlace ∧ last.Generated ∧ file ∈ last.files ∧
    lostChanges (pathFor "" last.moduleRoot file) ∈ (last.run "" d).1.warnings

/-- A file is warned of that has not been changed from outside, after a write that failed and after one that goes to
    the same place under another relative path. -/
theorem warns_of_unchanged :
    FalseAlarm [.write (sampleRequest "x" false), .edit, .write (sampleRequest "y" false)] (sampleRequest "x" true)
      (mainFile "x") ∧
    FalseAlarm [.write (requestUnder "a//b" "x" false), .write (requestUnder "a/b" "y" false)]
      (requestUnder "a//b" "x" true) (mainFileUnder "a//b" "x") := by
  constructor
  · obtain ⟨ms, d, hchronicle, hevents, hlawful, -, hedits, hwarned⟩ := exists_interrupted
    refine ⟨ms, d, hchronicle, hevents, hlawful, hedits, ?_, generated_sampleRequest true "x" (by simp),
      (mem_sampleFiles "x").1, hwarned⟩
    rw [hchronicle.locate hlawful]
    exact (sample_places.1 "x" (by simp)).1 ▸ (by decide)
  · obtain ⟨ms, d, hchronicle, hevents, hlawful, hwarned⟩ := exists_doubled
    obtain ⟨rest, hfiles⟩ := requestUnder_files "a//b" "x" true
    refine ⟨ms, d, hchronicle, hevents, hlawful, fun m hm hedit => ?_, ?_, (generated_requestUnder true).1,
      by rw [hfiles]; exact List.mem_cons_self .., hwarned⟩
    · have hmem := List.mem_map_of_mem (f := Moment.event) hm
      rw [hevents, hedit] at hmem
      simp at hmem
    · rw [hchronicle.locate hlawful]
      exact doubled_paths.1.symm ▸ (by decide +kernel)

end Scaffold.Output
