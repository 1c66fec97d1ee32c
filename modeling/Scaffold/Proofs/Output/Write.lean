import Scaffold.Proofs.Output.Run

/-! Whole writes. Reading the ledger changes nothing; recording it leaves it complete (`Recorded`) or leaves the
    old one alone (`Unrecorded`). A write stops at one of six points (`WriteCase`). -/

namespace Scaffold.Output
open Disk Scaffold.Path

/-! ### The ledger -/

theorem ends_ledgerPath (root : String) :
    Ends (ledgerPath root).toList (parts (ledgerDir root).toList) "hashes.json".toList :=
  ends_join (by decide) (by decide)

theorem locate_ledgerDir (d : Disk) (root : String) : d.locate (ledgerDir root) = ".pilot" :: d.locate root :=
  locate_join (by decide) (by decide) (by unfold IsDots; decide)

theorem locate_ledgerPath (d : Disk) (root : String) :
    d.locate (ledgerPath root) = "hashes.json" :: d.locate (ledgerDir root) :=
  locate_join (by decide) (by decide) (by unfold IsDots; decide)

theorem locate_ledgerDraftPath (d : Disk) (root : String) :
    d.locate (ledgerDraftPath root) = "hashes.json.tmp" :: d.locate (ledgerDir root) :=
  locate_join (by decide) (by decide) (by unfold IsDots; decide)

theorem ledgerPath_ne_ledgerDraftPath (d : Disk) (root : String) :
    d.locate (ledgerPath root) ≠ d.locate (ledgerDraftPath root) := by
  rw [locate_ledgerPath, locate_ledgerDraftPath]
  intro heq
  exact absurd (List.cons.inj heq).1 (by decide)

theorem readText_run (path : String) (d : Disk) :
    (readText path : StateM Disk (Except Disk.Failure String)) d =
      ((d.read path).bind fun bytes => (Text.decode? bytes).elim (.error .notText) .ok, d) := by
  unfold readText
  rw [bind_run]
  simp only [Access.read, ask]
  cases d.read path with
  | error e => rfl
  | ok bytes =>
    simp only [Except.bind]
    cases Text.decode? bytes <;> rfl

/-- The ledger of a root is there and cannot be read. -/
def Unreadable (d : Disk) (root : String) : Prop :=
  ∃ r, d.find (ledgerPath root) = .ok r ∧
    ∀ f text, r.entry = .file f → Text.decode? f.bytes = some text → Ledger.parse? text = none

theorem loadLedger_cases (d : Disk) (root : String) (now : Instant) :
    (Unreadable d root ∧ ∃ e, (loadLedger root now : StateM Disk (Except Failure Ledger)) d = (.error e, d) ∧
      (e = .badLedger ∨ ∃ cause, e = .io (ledgerPath root) cause)) ∨
    (¬Unreadable d root ∧ ∃ ledger, (loadLedger root now : StateM Disk (Except Failure Ledger)) d = (.ok ledger, d)) := by
  obtain ⟨b, hthere, hb⟩ := isThere_run (ledgerPath root) d
  unfold loadLedger
  simp only [bind_run, hthere]
  cases b with
  | false =>
    refine Or.inr ⟨fun ⟨r, hfind, _⟩ => ?_, _, rfl⟩
    exact absurd (hb.mpr ⟨r, hfind⟩) (by simp)
  | true =>
    obtain ⟨r, hfind⟩ := hb.mp rfl
    simp only [Bool.not_true, Bool.false_eq_true, ↓reduceIte, bind_run, readText_run]
    have unreadable : (∀ f text, r.entry = .file f → Text.decode? f.bytes = some text → Ledger.parse? text = none) →
        Unreadable d root := fun h => ⟨r, hfind, h⟩
    -- what is there may be a directory, not be text, or be no ledger
    cases hentry : r.entry with
    | directory =>
      rw [read_of_directory hfind hentry]
      exact Or.inl ⟨unreadable (by simp [hentry]), _, rfl, Or.inr ⟨_, rfl⟩⟩
    | file f =>
      rw [read_of_file hfind hentry]
      simp only [Except.bind]
      cases hdecode : Text.decode? f.bytes with
      | none =>
        refine Or.inl ⟨unreadable fun g text hfile htext => ?_, _, rfl, Or.inr ⟨_, rfl⟩⟩
        rw [hentry, Entry.file.injEq] at hfile
        rw [← hfile, hdecode] at htext
        cases htext
      | some text =>
        simp only [Option.elim_some]
        cases hparse : Ledger.parse? text with
        | none =>
          refine Or.inl ⟨unreadable fun g text' hfile htext => ?_, _, rfl, Or.inl rfl⟩
          rw [hentry, Entry.file.injEq] at hfile
          rw [← hfile, hdecode, Option.some.injEq] at htext
          rwa [← htext]
        | some ledger =>
          refine Or.inr ⟨fun ⟨r', hfind', hnone⟩ => ?_, ledger, rfl⟩
          rw [hfind, Except.ok.injEq] at hfind'
          rw [hnone f text (hfind' ▸ hentry) hdecode] at hparse
          cases hparse

theorem loadLedger_run (root : String) (now : Instant) (d : Disk) :
    ∃ r, (loadLedger root now : StateM Disk (Except Failure Ledger)) d = (r, d) := by
  rcases loadLedger_cases d root now with ⟨-, e, hload, -⟩ | ⟨-, ledger, hload⟩
  · exact ⟨_, hload⟩
  · exact ⟨_, hload⟩

theorem loadLedger_of_file {root : String} {d : Disk} {f : File} (hholds : d.Holds (ledgerPath root))
    (hfile : d.get? (d.locate (ledgerPath root)) = some (.file f)) {text : String} {ledger : Ledger}
    (htext : Text.decode? f.bytes = some text) (hparse : Ledger.parse? text = some ledger) (now : Instant) :
    (loadLedger root now : StateM Disk (Except Failure Ledger)) d = (.ok ledger, d) := by
  obtain ⟨b, hthere, hb⟩ := isThere_run (ledgerPath root) d
  obtain rfl : b = true := hb.mpr ⟨_, find_of_holds hholds hfile⟩
  unfold loadLedger
  simp only [bind_run, hthere, Bool.not_true, Bool.false_eq_true, ↓reduceIte, readText_run, read_of_holds hholds hfile,
    Except.bind, htext, Option.elim_some, hparse, pure_run]

/-- The ledger has been recorded: it is the file, and there is no draft. -/
structure Recorded (d d' : Disk) (root : String) (ledger : Ledger) : Prop where
  keeps : Keeps d d'
  file : ∃ mode, d'.get? (d.locate (ledgerPath root)) = some (.file ⟨Text.encode ledger.toText, mode⟩)
  draft : d'.get? (d.locate (ledgerDraftPath root)) = none
  other : ∀ l, l ≠ d.locate (ledgerPath root) → l ≠ d.locate (ledgerDraftPath root) →
    SameOrNew d d' (ledgerPath root) l
  holds : d'.Holds (ledgerPath root)
  holdsDraft : d'.Holds (ledgerDraftPath root)
  dir : d'.IsDirectoryAt (ledgerDir root)

/-- The ledger could not be recorded: the old one stands as it did. -/
structure Unrecorded (d d' : Disk) (root : String) : Prop where
  keeps : Keeps d d'
  other : ∀ l, l ≠ d.locate (ledgerDraftPath root) → SameOrNew d d' (ledgerPath root) l

theorem onWay_of_ledgerDir {d : Disk} {root : String} {l : Location} (h : d.OnWay (ledgerDir root) l) :
    d.OnWay (ledgerPath root) l := by
  obtain ⟨front, hfront, rfl⟩ := h
  have hdir : d.start (ledgerPath root) = d.start (ledgerDir root) :=
    start_of_isAbsolute_iff (isAbsolute_join (by unfold IsAbsolute; decide))
  refine ⟨front, hfront.trans ?_, by rw [hdir]⟩
  rw [(ends_ledgerPath root).parts_eq]
  exact List.prefix_append ..

theorem ledgerDir_ne_empty (root : String) : ledgerDir root ≠ "" := fun h => by
  have hends : Ends (ledgerDir root).toList (parts root.toList) ".pilot".toList := ends_join (by decide) (by decide)
  exact hends.ne_nil (by rw [h]; rfl)

theorem saveLedger_run (root : String) (ledger : Ledger) (d : Disk) : ∃ r d',
    (saveLedger root ledger : StateM Disk (Except Failure Unit)) d = (r, d') ∧
      ((r = .ok () ∧ Recorded d d' root ledger) ∨ ((∃ e, r = .error e) ∧ Unrecorded d d' root)) := by
  obtain ⟨r, d₁, hmake, hgrows, hdir⟩ := makeDirs_run (ledgerDir root) d
  have hkeeps := hgrows.keeps
  have hgrown : ∀ l, SameOrNew d d₁ (ledgerPath root) l := fun l =>
    (hgrows.mono fun l hl => onWay_of_ledgerDir hl).get? l
  unfold saveLedger
  rw [bind_run, hmake]
  cases r with
  | error e => exact ⟨_, d₁, rfl, Or.inr ⟨⟨_, rfl⟩, hkeeps, fun l _ => hgrown l⟩⟩
  | ok _ =>
    have hthere := (hdir rfl).resolve_left (ledgerDir_ne_empty root)
    simp only [bind_run, Access.write, change_run]
    -- up to the renaming the ledger stands as it did
    cases hwrite : d₁.write (ledgerDraftPath root) (Text.encode ledger.toText) with
    | error e => exact ⟨_, d₁, rfl, Or.inr ⟨⟨_, rfl⟩, hkeeps, fun l _ => hgrown l⟩⟩
    | ok d₂ =>
      obtain ⟨hdraft, hfree, hdrafted⟩ := write_ok hwrite
      have hkeeps₂ := hdrafted.keeps hfree
      simp only [bind_run, Access.rename, change_run]
      rw [hkeeps.locate] at hdrafted
      cases hrename : d₂.rename (ledgerDraftPath root) (ledgerPath root) with
      | error e =>
        refine ⟨_, d₂, rfl, Or.inr ⟨⟨_, rfl⟩, hkeeps.trans hkeeps₂, fun l hl => ?_⟩⟩
        unfold SameOrNew
        rw [hdrafted.get?_of_ne hl]
        exact hgrown l
      | ok d₃ =>
        obtain ⟨f, mid, hf, hpath, hnodir, hgone, hmoved⟩ := rename_ok hrename
        rw [(hkeeps.trans hkeeps₂).locate] at hf hgone hmoved hnodir
        have hkeepsMid : Keeps d₂ mid := hgone.keeps (by simp [hf])
        have hbeside := ledgerPath_ne_ledgerDraftPath d root
        have hkeeps₃ : Keeps d₂ d₃ := hkeepsMid.trans (hmoved.keeps (by rwa [hgone.get?_of_ne hbeside]))
        rw [hdrafted.get?_self, Option.some.injEq, Entry.file.injEq] at hf
        subst hf
        refine ⟨_, d₃, rfl, Or.inl ⟨rfl, hkeeps.trans (hkeeps₂.trans hkeeps₃), ⟨_, hmoved.get?_self⟩, ?_, fun l hl hl' => ?_,
          hpath.keep hkeeps₃, hdraft.keep (hkeeps₂.trans hkeeps₃), hthere.keep (hkeeps₂.trans hkeeps₃)⟩⟩
        · rw [hmoved.get?_of_ne hbeside.symm, hgone.get?_self]
        · unfold SameOrNew
          rw [hmoved.get?_of_ne hl, hgone.get?_of_ne hl', hdrafted.get?_of_ne hl']
          exact hgrown l

/-! ### The whole -/

/-- Where a write ends: the disk and the answer. -/
inductive WriteCase (files : List GeneratedFile) (root moduleRoot : String) (dryRun : Bool) (now : Instant) (d : Disk) :
    Disk → Logged (List (Outcome × String)) → Prop where
  | unloaded {e : Failure} (hload : (loadLedger root now : StateM Disk _) d = (.error e, d)) :
      WriteCase files root moduleRoot dryRun now d d ⟨[], .error e⟩
  | refused {ledger : Ledger} {e : Failure} (hload : (loadLedger root now : StateM Disk _) d = (.ok ledger, d))
      (htargets : files.mapM (target root moduleRoot) = .error e) :
      WriteCase files root moduleRoot dryRun now d d ⟨[], .error e⟩
  | stopped {ledger : Ledger} {ts : List Target} {e : Failure} {ws : List String} {d' : Disk}
      (hload : (loadLedger root now : StateM Disk _) d = (.ok ledger, d))
      (htargets : files.mapM (target root moduleRoot) = .ok ts) (hstops : Stops dryRun ts ledger d ws e d') :
      WriteCase files root moduleRoot dryRun now d d' ⟨ws, .error e⟩
  | previewed {ledger ledger' : Ledger} {ts : List Target} {ws : List String} {os : List (Outcome × String)}
      (hload : (loadLedger root now : StateM Disk _) d = (.ok ledger, d))
      (htargets : files.mapM (target root moduleRoot) = .ok ts) (hrun : Run dryRun ts ledger d ws os ledger' d)
      (hdry : dryRun = true) : WriteCase files root moduleRoot dryRun now d d ⟨ws, .ok os⟩
  | unsaved {ledger ledger' : Ledger} {ts : List Target} {ws : List String} {os : List (Outcome × String)}
      {d₁ d' : Disk} {e : Failure} (hload : (loadLedger root now : StateM Disk _) d = (.ok ledger, d))
      (htargets : files.mapM (target root moduleRoot) = .ok ts) (hrun : Run dryRun ts ledger d ws os ledger' d₁)
      (hreal : dryRun = false) (hsave : Unrecorded d₁ d' root) :
      WriteCase files root moduleRoot dryRun now d d' ⟨ws, .error e⟩
  | saved {ledger ledger' : Ledger} {ts : List Target} {ws : List String} {os : List (Outcome × String)}
      {d₁ d' : Disk} (hload : (loadLedger root now : StateM Disk _) d = (.ok ledger, d))
      (htargets : files.mapM (target root moduleRoot) = .ok ts) (hrun : Run dryRun ts ledger d ws os ledger' d₁)
      (hreal : dryRun = false) (hsave : Recorded d₁ d' root { ledger' with generatedAt := now }) :
      WriteCase files root moduleRoot dryRun now d d' ⟨ws, .ok os⟩

theorem writeCase_of_run {files : List GeneratedFile} {root moduleRoot : String} {dryRun : Bool} {now : Instant}
    {d d' : Disk} {log : Logged (List (Outcome × String))}
    (h : (write files root moduleRoot dryRun now : StateM Disk _) d = (log, d')) :
    WriteCase files root moduleRoot dryRun now d d' log := by
  obtain ⟨r, hload⟩ := loadLedger_run root now d
  unfold write at h
  rw [bind_run, hload] at h
  cases r with
  | error e =>
    cases h
    exact .unloaded hload
  | ok ledger =>
    cases htargets : files.mapM (target root moduleRoot) with
    | error e =>
      simp only [htargets] at h
      cases h
      exact .refused hload htargets
    | ok ts =>
      obtain ⟨ws, r, d₁, hwrite, hcase⟩ := writeTargets_run dryRun ts ledger d
      simp only [htargets, bind_run, hwrite] at h
      rcases hcase with ⟨os, ledger', rfl, hrun⟩ | ⟨e, rfl, hstops⟩
      · cases dryRun with
        | true =>
          cases h
          obtain rfl := hrun.dry
          exact .previewed hload htargets hrun rfl
        | false =>
          obtain ⟨r, d₂, hsave, hcase⟩ := saveLedger_run root { ledger' with generatedAt := now } d₁
          simp only [Bool.false_eq_true, ↓reduceIte, bind_run, hsave] at h
          rcases hcase with ⟨rfl, hrecorded⟩ | ⟨⟨e, rfl⟩, hunrecorded⟩
          · cases h
            exact .saved hload htargets hrun rfl hrecorded
          · cases h
            exact .unsaved hload htargets hrun rfl hunrecorded
      · cases h
        exact .stopped hload htargets hstops

section WriteCase
variable {files : List GeneratedFile} {root moduleRoot : String} {dryRun : Bool} {now : Instant} {d d' : Disk}
  {log : Logged (List (Outcome × String))}

theorem WriteCase.keeps (h : WriteCase files root moduleRoot dryRun now d d' log) : Keeps d d' := by
  cases h with
  | unloaded | refused | previewed => exact Keeps.refl d
  | stopped _ _ hstops => exact hstops.keeps
  | unsaved _ _ hrun _ hsave => exact hrun.keeps.trans hsave.keeps
  | saved _ _ hrun _ hsave => exact hrun.keeps.trans hsave.keeps

theorem WriteCase.dry (h : WriteCase files root moduleRoot true now d d' log) : d' = d := by
  cases h with
  | unloaded | refused | previewed => rfl
  | stopped _ _ hstops => exact hstops.dry
  | unsaved _ _ _ hreal | saved _ _ _ hreal => cases hreal

end WriteCase

theorem exists_of_ok {α β : Type} {x : Logged α × Disk} {f : α → Option β} {b : β}
    (h : x.1.result.toOption.bind f = some b) : ∃ ws a d', x = (⟨ws, .ok a⟩, d') ∧ f a = some b := by
  obtain ⟨⟨ws, r⟩, d'⟩ := x
  cases r with
  | error e => cases h
  | ok a => exact ⟨ws, a, d', rfl, h⟩

theorem exists_dry_of_ok {files : List GeneratedFile} {root moduleRoot : String} {now : Instant} {d : Disk} {β : Type}
    {f : List (Outcome × String) → Option β} {b : β}
    (h : ((write files root moduleRoot true now : StateM Disk _) d).1.result.toOption.bind f = some b) :
    ∃ ws results, (write files root moduleRoot true now : StateM Disk _) d = (⟨ws, .ok results⟩, d) ∧ f results = some b := by
  obtain ⟨ws, results, d', hrun, hresults⟩ := exists_of_ok h
  have hdry := (writeCase_of_run hrun).dry
  exact ⟨ws, results, by rw [hrun, hdry], hresults⟩

end Scaffold.Output
