import Mathlib.Data.List.Forall2
import Scaffold.Proofs.Ledger.RoundTrip
import Scaffold.Proofs.Output.Settled
import Scaffold.Proofs.Text.Newlines

/-! Writing again. A step that succeeds leaves its file in a state (`Standing`) from which the same step succeeds and
    changes no bytes, and the steps on the other files leave that state alone. So a second write succeeds. It finds
    every file as it should be, but for those that were written with a text that their line ends made uniform again
    would change (`Restless`): they are written once more, with a warning. -/

namespace Scaffold.Output
open Disk Scaffold.Path

variable {d d' : Disk} {t : Target} {ledger ledger' : Ledger} {ws : List String} {o : Outcome}

/-! ### What a step leaves -/

/-- A file as a step with an outcome leaves it: the same step can be taken again. -/
inductive Standing (d : Disk) (t : Target) : Outcome → Prop where
  | skipped (hkept : Kept d t) : Standing d t .skipped
  | unchanged {f : File} (hskip : t.file.skipIfExists = false) (hpresent : Present d t.path (some f))
      (hsame : Matches t (some f)) : Standing d t .unchanged
  | written {f : File} (hpresent : Present d t.path (some f)) (hbytes : f.bytes = Text.encode t.text)
      (hdraft : d.get? (d.locate (draftPath t.path)) = none) (hholds : d.Holds (draftPath t.path))
      (hparent : parentOf t.path = "" ∨ d.IsDirectoryAt (parentOf t.path)) : Standing d t .written

theorem kept_of_present {f : File} (hskip : t.file.skipIfExists = true) (h : Present d t.path (some f)) : Kept d t :=
  ⟨hskip, _, find_of_holds h.1 h.2⟩

theorem skip_of_not_kept {f : File} (hkept : ¬Kept d t) (h : Present d t.path (some f)) : t.file.skipIfExists = false := by
  rw [← Bool.not_eq_true]
  exact fun hskip => hkept (kept_of_present hskip h)

theorem Present.unique {path : String} {f : File} {f? : Option File} (h : Present d path (some f))
    (h' : Present d path f?) : f? = some f := by
  cases f? with
  | none =>
    have hnone : d.find path = .error .notFound := h'
    rw [find_of_holds h.1 h.2] at hnone
    cases hnone
  | some g => rw [Entry.file.inj (Option.some.inj (h.2.symm.trans h'.2))]

theorem Present.eq {path : String} {o o' : Option File} (h : Present d path o) (h' : Present d path o') : o' = o := by
  cases o with
  | some f => exact h.unique h'
  | none =>
    cases o' with
    | none => rfl
    | some g => cases h'.unique h

theorem Present.keep {path : String} {f : File} (h : Present d path (some f)) (hk : Keeps d d')
    (hsame : d'.get? (d.locate path) = d.get? (d.locate path)) : Present d' path (some f) :=
  ⟨h.1.keep hk, by rw [hk.locate, hsame, h.2]⟩

theorem StepCase.standing (h : StepCase t false ledger d d' ⟨ws, .ok (o, ledger')⟩) : Standing d' t o := by
  cases h with
  | kept hkept => exact .skipped hkept
  | @matched f _ hkept hpresent hsame hmarked _ =>
    have hkeeps := hmarked.keeps (by simp [hpresent.2])
    have hthere := hmarked.get?_self
    rw [← hkeeps.locate] at hthere
    exact .unchanged (skip_of_not_kept hkept hpresent) ⟨hpresent.1.keep hkeeps, hthere⟩ hsame
  | pending _ _ _ hdry => cases hdry
  | placed _ _ _ _ hplaced =>
    have hthere := hplaced.file
    rw [← hplaced.keeps.locate] at hthere
    exact .written ⟨hplaced.holds, hthere⟩ rfl (by rw [hplaced.keeps.locate, hplaced.draft]) hplaced.holdsDraft
      hplaced.parent

namespace Standing

theorem opens (h : Standing d t o) : d.Opens t.path := by
  cases h with
  | skipped hkept =>
    obtain ⟨-, r, hfind⟩ := hkept
    exact (find_eq_ok.mp hfind).1
  | unchanged _ hpresent _ => exact hpresent.1.opens
  | written hpresent _ _ _ _ => exact hpresent.1.opens

/-- A file stands as it did if what belongs to it is as it was. -/
theorem keep (h : Standing d t o) (hk : Keeps d d') (hsame : ∀ l ∈ footprint d t, d'.get? l = d.get? l) :
    Standing d' t o := by
  have hfile := hsame (d.locate t.path) (by simp [footprint])
  have hdraft := hsame (d.locate (draftPath t.path)) (by simp [footprint])
  cases h with
  | skipped hkept =>
    obtain ⟨hskip, r, hfind⟩ := hkept
    obtain ⟨hopens, hloc, hslash⟩ := find_eq_ok.mp hfind
    have hthere : d'.get? (d'.locate t.path) = some r.entry := by rw [hk.locate, hfile, ← hloc, r.here]
    exact .skipped ⟨hskip, ⟨_, r.entry, hthere⟩, find_eq_ok.mpr ⟨hk.opens hopens, rfl, hslash⟩⟩
  | unchanged hskip hpresent hmatches => exact .unchanged hskip (hpresent.keep hk hfile) hmatches
  | written hpresent hbytes hnone hholds hparent =>
    exact .written (hpresent.keep hk hfile) hbytes (by rw [hk.locate, hdraft, hnone]) (hholds.keep hk)
      (hparent.imp id fun h => h.keep hk)

end Standing

/-! ### The step again -/

/-- What becomes of a file when the step that had an outcome is taken again. -/
def again (t : Target) : Outcome → Outcome
  | .written =>
    if t.file.skipIfExists then .skipped
    else if Sha256.ofText (uniform t.text) = Sha256.ofText t.text then .unchanged
    else .written
  | o => o

/-- The warnings of that step. -/
def warnedAgain (t : Target) (o : Outcome) : List String :=
  if again t o = .written then [lostChanges t.path] else []

/-- No bytes differ. -/
def SameBytes (d d' : Disk) : Prop := ∀ l, (d'.file? l).map File.bytes = (d.file? l).map File.bytes

theorem SameBytes.refl (d : Disk) : SameBytes d d := fun _ => rfl

theorem SameBytes.trans {d'' : Disk} (h : SameBytes d d') (h' : SameBytes d' d'') : SameBytes d d'' :=
  fun l => (h' l).trans (h l)

theorem Becomes.sameBytes {loc : Location} {f g : File} (h : Becomes d d' loc (some (.file g)))
    (hfile : d.get? loc = some (.file f)) (hbytes : g.bytes = f.bytes) : SameBytes d d' := by
  intro l
  by_cases hl : l = loc
  · rw [hl, file?_eq_some.mpr h.get?_self, file?_eq_some.mpr hfile, Option.map_some, Option.map_some, hbytes]
  · rw [file?_eq_of_get? (h.get?_of_ne hl)]

theorem Placed.sameBytes {path text : String} {executable : Bool} {f : File} (h : Placed d d' path text executable)
    (hfile : d.get? (d.locate path) = some (.file f)) (hbytes : f.bytes = Text.encode text)
    (hdraft : d.get? (d.locate (draftPath path)) = none) : SameBytes d d' := by
  intro l
  by_cases hl : l = d.locate path
  · rw [hl, file?_eq_some.mpr h.file, file?_eq_some.mpr hfile, Option.map_some, Option.map_some, hbytes]
  · by_cases hl' : l = d.locate (draftPath path)
    · rw [hl', file?_eq_of_get? (h.draft.trans hdraft.symm)]
    · rw [(h.other l hl hl').file?_eq]

theorem place_succeeds {path : String} (text : String) (executable : Bool) (hholds : d.Holds path)
    (hfree : d.get? (d.locate path) ≠ some .directory) (hdraft : d.Holds (draftPath path))
    (hnone : d.get? (d.locate (draftPath path)) = none) (hparent : parentOf path = "" ∨ d.IsDirectoryAt (parentOf path)) :
    ∃ d', (place path text executable : StateM Disk (Except Failure Unit)) d = (.ok (), d') := by
  have hmake : (makeDirs ((parent? path).getD "") : StateM Disk (Except Disk.Failure Unit)) d = (.ok (), d) :=
    makeDirs_of_isDirectoryAt hparent
  obtain ⟨d₁, hwrite⟩ := write_succeeds (Text.encode text) hdraft (by simp [hnone])
  have hdrafted := (write_ok hwrite).2.2
  have hkeeps₁ := hdrafted.keeps (by simp [hnone])
  have hfile₁ := hdrafted.get?_self
  rw [← hkeeps₁.locate] at hfile₁
  obtain ⟨d₂, hready, hmarked⟩ := readyDraft_run (hdraft.keep hkeeps₁) hfile₁ executable
  have hkeeps₂ := hmarked.keeps (by simp [hfile₁])
  have hfile₂ := hmarked.get?_self
  rw [← hkeeps₂.locate] at hfile₂
  have hkeeps := hkeeps₁.trans hkeeps₂
  have hbeside := locate_ne_locate_draftPath hholds
  have hfree₂ : d₂.get? (d₂.locate path) ≠ some .directory := by
    rw [hkeeps.locate, hmarked.get?_of_ne (by rwa [hkeeps₁.locate]), hdrafted.get?_of_ne hbeside]
    exact hfree
  obtain ⟨d₃, hrename⟩ := rename_succeeds (find_of_holds (hdraft.keep hkeeps) hfile₂) rfl (hholds.keep hkeeps) hfree₂
  refine ⟨d₃, ?_⟩
  unfold place
  rw [bind_run, hmake]
  simp only [bind_run, Access.write, change_run, hwrite]
  rw [finish_of_ready hready, moveDraft, bind_run]
  simp only [Access.rename, change_run, hrename]
  rfl

theorem textOf_of_bytes {f : File} {text : String} (h : f.bytes = Text.encode text) : textOf f = uniform text := by
  rw [textOf, h, Text.decodeRepaired_encode]

theorem digest?_record (ledger : Ledger) (rel other digest : String) :
    (ledger.record rel digest).digest? other = if other = rel then some digest else ledger.digest? other :=
  Keyed.get?_insert ledger.digests rel other digest

theorem digest?_record_of_recorded {rel digest : String} (h : ledger.digest? rel = some digest) (other : String) :
    (ledger.record rel digest).digest? other = ledger.digest? other := by
  rw [digest?_record]
  split
  · rename_i heq
    rw [heq, h]
  · rfl

/-- A step is taken again. -/
structure TakenAgain (t : Target) (o : Outcome) (ledger : Ledger) (d d' : Disk) (log : Logged (Outcome × Ledger)) :
    Prop where
  result : ∃ ledger', log = ⟨warnedAgain t o, .ok (again t o, ledger')⟩ ∧
    ∀ path, ledger'.digest? path = ledger.digest? path
  bytes : SameBytes d d'

theorem Standing.takenAgain {log : Logged (Outcome × Ledger)} (h : Standing d t o)
    (hrecorded : o ≠ .skipped → ledger.digest? t.rel = some (Sha256.ofText t.text))
    (hstep : StepCase t false ledger d d' log) : TakenAgain t o ledger d d' log := by
  -- by what became of the file the first time; the second step reads what that left
  cases h with
  | skipped hkept =>
    cases hstep with
    | kept => exact ⟨⟨_, rfl, fun _ => rfl⟩, SameBytes.refl d⟩
    | _ => exact absurd hkept ‹¬Kept d t›
  | @unchanged f hskip hpresent hsame =>
    have hledger := digest?_record_of_recorded (hrecorded (by simp))
    cases hstep with
    | kept hkept => rw [hkept.1] at hskip; cases hskip
    | unread _ hread => exact absurd hpresent (hread _)
    | matched _ hpresent' _ hmarked _ =>
      obtain rfl := Option.some.inj (hpresent.unique hpresent')
      exact ⟨⟨_, rfl, hledger⟩, Becomes.sameBytes hmarked hpresent.2 rfl⟩
    | pending _ _ _ hdry => cases hdry
    | placed _ hpresent' hdiffers _ _ => exact absurd (hpresent.unique hpresent' ▸ hsame) hdiffers
    | broken _ hpresent' hdiffers _ _ _ => exact absurd (hpresent.unique hpresent' ▸ hsame) hdiffers
  | @written f hpresent hbytes hdraft hholds hparent =>
    have htext := textOf_of_bytes hbytes
    have hledger := digest?_record_of_recorded (hrecorded (by simp))
    cases hstep with
    | kept hkept =>
      have hagain : again t .written = .skipped := if_pos hkept.1
      exact ⟨⟨_, by rw [warnedAgain, hagain]; rfl, fun _ => rfl⟩, SameBytes.refl d⟩
    | unread _ hread => exact absurd hpresent (hread _)
    | matched hkept hpresent' hsame hmarked _ =>
      obtain rfl := Option.some.inj (hpresent.unique hpresent')
      have hskip := skip_of_not_kept hkept hpresent
      have hdigest : Sha256.ofText (uniform t.text) = Sha256.ofText t.text :=
        (congrArg Sha256.ofText htext).symm.trans (Option.some.inj hsame)
      have hagain : again t .written = .unchanged := by simp [again, hskip, hdigest]
      exact ⟨⟨_, by rw [warnedAgain, hagain]; rfl, hledger⟩, Becomes.sameBytes hmarked hpresent.2 rfl⟩
    | pending _ _ _ hdry => cases hdry
    | placed hkept hpresent' hdiffers _ hplaced =>
      obtain rfl := hpresent.unique hpresent'
      have hskip := skip_of_not_kept hkept hpresent
      have hdigest : Sha256.ofText (uniform t.text) ≠ Sha256.ofText t.text := fun heq =>
        hdiffers (congrArg some ((congrArg Sha256.ofText htext).trans heq))
      have hagain : again t .written = .written := by simp [again, hskip, hdigest]
      have hwarned : warningsFor t (some f) ledger = [lostChanges t.path] := by
        simp [warningsFor, wasModified, hrecorded, htext, hdigest]
      exact ⟨⟨_, by rw [warnedAgain, hagain, hwarned]; rfl, hledger⟩, Placed.sameBytes hplaced hpresent.2 hbytes hdraft⟩
    | broken _ _ _ _ hplace _ =>
      obtain ⟨d'', hplaced⟩ := place_succeeds t.text t.file.executable hpresent.1 (by simp [hpresent.2]) hholds hdraft
        hparent
      rw [hplaced] at hplace
      cases hplace

/-! ### Runs -/

/-- What is recorded for a file that is not left to its editor. -/
def RecordedFor (ledger : Ledger) (t : Target) (o : Outcome) : Prop :=
  o ≠ .skipped → ledger.digest? t.rel = some (Sha256.ofText t.text)

theorem StepCase.recordedFor (h : StepCase t false ledger d d' ⟨ws, .ok (o, ledger')⟩) : RecordedFor ledger' t o := by
  have hrecord : (ledger.record t.rel (Sha256.ofText t.text)).digest? t.rel = some (Sha256.ofText t.text) := by
    rw [digest?_record, if_pos rfl]
  cases h with
  | kept => exact fun hne => absurd rfl hne
  | matched => exact fun _ => hrecord
  | pending _ _ _ hdry => cases hdry
  | placed => exact fun _ => hrecord

theorem StepCase.digest?_of_ne {dryRun : Bool} (h : StepCase t dryRun ledger d d' ⟨ws, .ok (o, ledger')⟩) {path : String}
    (hpath : path ≠ t.rel) : ledger'.digest? path = ledger.digest? path := by
  have hother : (ledger.record t.rel (Sha256.ofText t.text)).digest? path = ledger.digest? path := by
    rw [digest?_record, if_neg hpath]
  cases h with
  | kept | pending => rfl
  | matched | placed => exact hother

/-- A file and what a run said about it, before the run is taken again. -/
structure Ready (d : Disk) (ledger : Ledger) (t : Target) (o : Outcome × String) : Prop where
  path : o.2 = t.path
  standing : Standing d t o.1
  recorded : RecordedFor ledger t o.1

section Run
variable {root : String} {ts : List Target} {os : List (Outcome × String)}

theorem Laid.rel_ne (h : Laid d root (t :: ts)) {t' : Target} (ht' : t' ∈ ts) : t.rel ≠ t'.rel := by
  intro heq
  have hpath := (h.under t (List.mem_cons_self ..)).path_eq (h.under t' (List.mem_cons_of_mem _ ht')) heq
  have hapart := h.apart_head (l := d.locate t.path) (by simp [footprint]) t' ht' (d.locate t'.path) (by simp [footprint])
  exact hapart.ne (by rw [hpath])

theorem Run.digest?_of_ne {dryRun : Bool} (h : Run dryRun ts ledger d ws os ledger' d') {path : String}
    (hpath : ∀ t ∈ ts, path ≠ t.rel) :
    ledger'.digest? path = ledger.digest? path := by
  induction h with
  | nil => rfl
  | cons first _ ih =>
    obtain ⟨hhead, htail⟩ := List.forall_mem_cons.mp hpath
    rw [ih htail, (stepCase_of_run first).digest?_of_ne hhead]

theorem Run.ready (h : Run false ts ledger d ws os ledger' d') (hlaid : Laid d root ts) :
    List.Forall₂ (Ready d' ledger') ts os := by
  induction h with
  | nil => exact .nil
  | @cons t ts l₀ l₁ l₂ d₀ d₁ d₂ ws ws' o os first rest ih =>
    have hstep := stepCase_of_run first
    have hkeeps := hstep.keeps
    have hclimb := hstep.climbable (hlaid.under t (List.mem_cons_self ..))
    refine .cons ⟨rfl, hstep.standing.keep rest.keeps fun l hl => ?_, fun hne => ?_⟩ (ih (hlaid.tail.keep hkeeps))
    · rw [footprint_of_keeps hkeeps] at hl
      exact hlaid.get?_of_run hkeeps rest hclimb hl
    · rw [rest.digest?_of_ne fun t' ht' => hlaid.rel_ne ht', hstep.recordedFor hne]

/-- What is said about the files of a run that is taken again. -/
def resultsAgain (ts : List Target) (os : List (Outcome × String)) : List (Outcome × String) :=
  (ts.zip os).map fun (t, o) => (again t o.1, o.2)

/-- The warnings of a run that is taken again. -/
def warningsAgain (ts : List Target) (os : List (Outcome × String)) : List String :=
  (ts.zip os).flatMap fun (t, o) => warnedAgain t o.1

theorem exists_run_again : ∀ {ts : List Target} {os : List (Outcome × String)} {ledger : Ledger} {d : Disk},
    List.Forall₂ (Ready d ledger) ts os → Laid d root ts → ∃ ledger' d',
      Run false ts ledger d (warningsAgain ts os) (resultsAgain ts os) ledger' d' ∧ SameBytes d d'
  | [], os, ledger, d, h, _ => by
    cases h
    exact ⟨ledger, d, .nil .., SameBytes.refl d⟩
  | t :: ts, os, ledger, d, h, hlaid => by
    obtain ⟨o, os, hfirst, hrest, rfl⟩ := List.forall₂_cons_left_iff.mp h
    obtain ⟨log, d₁, hstep, hcase⟩ := writeUnlessKept_run t false ledger d
    obtain ⟨⟨l₁, rfl, hdigests⟩, hbytes⟩ := hfirst.standing.takenAgain hfirst.recorded hcase
    have hkeeps := hcase.keeps
    have hclimb : d.Climbable root :=
      (hlaid.under t (List.mem_cons_self ..)).climbable_iff.mp hfirst.standing.opens.climbable
    have hothers : List.Forall₂ (Ready d₁ l₁) ts os :=
      ((List.forall₂_and_left _ _).mpr ⟨fun t' ht' => hlaid.get?_of_step hcase hclimb ht', hrest⟩).imp
        fun _ _ ⟨hsame, hready⟩ => ⟨hready.path, hready.standing.keep hkeeps hsame, fun hne => by
          rw [hdigests, hready.recorded hne]⟩
    obtain ⟨l₂, d₂, hrun, hbytes₂⟩ := exists_run_again hothers (hlaid.tail.keep hkeeps)
    refine ⟨l₂, d₂, ?_, hbytes.trans hbytes₂⟩
    have hwhole := Run.cons hstep hrun
    rw [← hfirst.path] at hwhole
    exact hwhole

end Run

/-! ### The whole write -/

theorem saveLedger_succeeds {root : String} (ledger : Ledger) (hdir : d.IsDirectoryAt (ledgerDir root))
    (hholds : d.Holds (ledgerPath root)) (hfree : d.get? (d.locate (ledgerPath root)) ≠ some .directory)
    (hdraft : d.Holds (ledgerDraftPath root)) (hnone : d.get? (d.locate (ledgerDraftPath root)) = none) :
    ∃ d', (saveLedger root ledger : StateM Disk (Except Failure Unit)) d = (.ok (), d') ∧ Recorded d d' root ledger := by
  obtain ⟨d₁, hwrite⟩ := write_succeeds (Text.encode ledger.toText) hdraft (by simp [hnone])
  have hdrafted := (write_ok hwrite).2.2
  have hkeeps := hdrafted.keeps (by simp [hnone])
  have hfile := hdrafted.get?_self
  rw [← hkeeps.locate] at hfile
  have hfree₁ : d₁.get? (d₁.locate (ledgerPath root)) ≠ some .directory := by
    rw [hkeeps.locate, hdrafted.get?_of_ne (ledgerPath_ne_ledgerDraftPath d root)]
    exact hfree
  obtain ⟨d₂, hrename⟩ := rename_succeeds (find_of_holds (hdraft.keep hkeeps) hfile) rfl (hholds.keep hkeeps) hfree₁
  have hsave : (saveLedger root ledger : StateM Disk (Except Failure Unit)) d = (.ok (), d₂) := by
    unfold saveLedger
    simp only [bind_run, makeDirs_of_isDirectoryAt (Or.inr hdir), Access.write, change_run, hwrite, Access.rename,
      hrename, pure_run]
  obtain ⟨r, d₃, hrun, hcase⟩ := saveLedger_run root ledger d
  rw [hsave] at hrun
  cases hrun
  rcases hcase with ⟨-, hrecorded⟩ | ⟨⟨e, herror⟩, -⟩
  · exact ⟨d₂, hsave, hrecorded⟩
  · cases herror

theorem Recorded.loadLedger {root : String} (h : Recorded d d' root ledger) (now : Instant) :
    (loadLedger root now : StateM Disk (Except Failure Ledger)) d' = (.ok ledger, d') := by
  obtain ⟨mode, hfile⟩ := h.file
  have hparse := Ledger.parse?_toText ledger
  generalize ledger.toText = text at hfile hparse
  rw [← h.keeps.locate] at hfile
  exact loadLedger_of_file h.holds hfile (Text.decode?_encode text) hparse now

theorem Recorded.sameBytes {root : String} (h : Recorded d d' root ledger)
    (hnone : d.get? (d.locate (ledgerDraftPath root)) = none) {l : Location} (hl : l ≠ d.locate (ledgerPath root)) :
    (d'.file? l).map File.bytes = (d.file? l).map File.bytes := by
  by_cases hdraft : l = d.locate (ledgerDraftPath root)
  · rw [hdraft, file?_eq_of_get? (h.draft.trans hnone.symm)]
  · rw [(h.other l hl hdraft).file?_eq]

theorem Laid.get?_ledger {root : String} {ts : List Target} {os : List (Outcome × String)} (hlaid : Laid d root ts)
    (h : Run false ts ledger d ws os ledger' d') (hclimb : d.Climbable root) :
    d'.get? (d.locate (ledgerPath root)) = d.get? (d.locate (ledgerPath root)) ∧
      d'.get? (d.locate (ledgerDraftPath root)) = d.get? (d.locate (ledgerDraftPath root)) :=
  ⟨h.get?_eq_of_apart hlaid.under hclimb fun t ht m hm => (hlaid.ledger t ht m hm).1.symm,
    h.get?_eq_of_apart hlaid.under hclimb fun t ht m hm => (hlaid.ledger t ht m hm).2.symm⟩

theorem Recorded.ready {root : String} {ts : List Target} {os : List (Outcome × String)} (h : Recorded d d' root ledger)
    (hlaid : Laid d root ts) (hready : List.Forall₂ (Ready d ledger') ts os) (hdigests : ledger.digests = ledger'.digests) :
    List.Forall₂ (Ready d' ledger) ts os := by
  refine ((List.forall₂_and_left ts os).mpr ⟨fun t ht => ht, hready⟩).imp fun t o ⟨ht, hready⟩ => ?_
  have hclimb : d.Climbable root := (hlaid.under t ht).climbable_iff.mp hready.standing.opens.climbable
  refine ⟨hready.path, hready.standing.keep h.keeps fun l hl => h.get?_of_apart hclimb (hlaid.ledger t ht l hl), ?_⟩
  intro hne
  rw [← hready.recorded hne, Ledger.digest?, Ledger.digest?, hdigests]

/-- A write that succeeded is taken again: it succeeds, and no bytes differ but those of the ledger. -/
theorem write_again {p : Project} {files : List GeneratedFile} {root : String} {now : Instant}
    {results : List (Outcome × String)} (hloaded : p.Loaded) (hfiles : p.Generates files)
    (hrun : (write files root p.moduleRoot false now : StateM Disk _) d = (⟨ws, .ok results⟩, d')) (now' : Instant) :
    ∃ ledger d'', List.Forall₂ (Ready d' ledger) (files.map (targetOf root p.moduleRoot)) results ∧
      (write files root p.moduleRoot false now' : StateM Disk _) d' =
        (⟨warningsAgain (files.map (targetOf root p.moduleRoot)) results,
          .ok (resultsAgain (files.map (targetOf root p.moduleRoot)) results)⟩, d'') ∧
      ∀ l, l ≠ d.locate (ledgerPath root) → (d''.file? l).map File.bytes = (d'.file? l).map File.bytes := by
  cases writeCase_of_run hrun with
  | previewed _ _ _ hdry => cases hdry
  | @saved _ ledger ts _ _ d₁ _ _ htargets hwrites _ hsave =>
    have hlaid := laid_of_generates hloaded hfiles htargets d
    obtain ⟨rfl, -⟩ := mapM_target_eq_ok htargets
    have hkeeps := hwrites.keeps.trans hsave.keeps
    have hlaid' := hlaid.keep hkeeps
    have hready := hsave.ready (hlaid.keep hwrites.keeps) (hwrites.ready hlaid) rfl
    obtain ⟨ledger', d₂, hagain, hbytes⟩ := exists_run_again hready hlaid'
    have hkeeps₂ := hagain.keeps
    obtain ⟨hledger, hdraft⟩ := hlaid'.get?_ledger hagain (climbable_ledgerPath.mp hsave.holds.opens.climbable)
    obtain ⟨mode, hfile⟩ := hsave.file
    rw [← hsave.keeps.locate] at hfile
    have hnone : d₂.get? (d₂.locate (ledgerDraftPath root)) = none := by
      rw [hkeeps₂.locate, hdraft, hsave.keeps.locate, hsave.draft]
    obtain ⟨d₃, hsaveAgain, hsaved⟩ := saveLedger_succeeds { ledger' with generatedAt := now' } (hsave.dir.keep hkeeps₂)
      (hsave.holds.keep hkeeps₂) (by rw [hkeeps₂.locate, hledger, hfile]; simp) (hsave.holdsDraft.keep hkeeps₂) hnone
    refine ⟨_, d₃, hready, ?_, fun l hl => ?_⟩
    · unfold write
      simp only [bind_run, hsave.loadLedger now', htargets, hagain.writeTargets_eq, Bool.false_eq_true, ↓reduceIte,
        hsaveAgain, pure_run]
    · rw [← hbytes l]
      exact hsaved.sameBytes hnone (by rwa [hkeeps₂.locate, hkeeps.locate])

/-- A file that is always generated and whose text does not come to rest: its line ends become uniform at the second
    time only. -/
def Restless (file : GeneratedFile) : Prop :=
  file.skipIfExists = false ∧ Text.doubledReturn <:+: file.content.toList

theorem again_of_not_restless (h : Standing d t o) (hcalm : o = .written → ¬Restless t.file) :
    again t o = .unchanged ∨ again t o = .skipped := by
  cases h with
  | skipped => exact Or.inr rfl
  | unchanged => exact Or.inl rfl
  | written =>
    by_cases hskip : t.file.skipIfExists = true
    · exact Or.inr (if_pos hskip)
    · have htext : uniform t.text = t.text :=
        (uniform_uniform t.file.content).mpr fun hdoubled => hcalm rfl ⟨by simpa using hskip, hdoubled⟩
      exact Or.inl (by simp [again, hskip, htext])

theorem again_of_restless (h : Restless t.file)
    (htold : Sha256.ofText (uniform t.text) = Sha256.ofText t.text → uniform t.text = t.text) :
    again t .written = .written := by
  obtain ⟨hskip, hdoubled⟩ := h
  have hdigest : Sha256.ofText (uniform t.text) ≠ Sha256.ofText t.text := fun heq =>
    (uniform_uniform t.file.content).mp (htold heq) hdoubled
  simp [again, hskip, hdigest]

/-- A write of the generated files of a project that succeeded succeeds again, and no bytes differ but those of the
    ledger. Nothing is written and nothing warned of, unless a restless file was written the first time; such a file
    is written again, with a warning that changes to it are lost. -/
theorem write_twice {bytes : ByteArray} {resolved : Except RootError String} {p : Project} {files : List GeneratedFile}
    {root : String} {now : Instant} {results : List (Outcome × String)} (hload : Project.load bytes resolved = .ok p)
    (hfiles : p.Generates files)
    (hrun : (write files root p.moduleRoot false now : StateM Disk _) d = (⟨ws, .ok results⟩, d')) (now' : Instant) :
    ∃ ws' results' d'', (write files root p.moduleRoot false now' : StateM Disk _) d' = (⟨ws', .ok results'⟩, d'') ∧
      results'.map Prod.snd = results.map Prod.snd ∧
      (∀ l, l ≠ d.locate (ledgerPath root) → (d''.file? l).map File.bytes = (d'.file? l).map File.bytes) ∧
      ((∀ r ∈ files.zip results, r.2.1 = .written → ¬Restless r.1) →
        (∀ r ∈ results', r.1 = .unchanged ∨ r.1 = .skipped) ∧ ws' = []) ∧
      ((∀ file ∈ files, Sha256.ofText (uniform (uniform file.content)) = Sha256.ofText (uniform file.content) →
          uniform (uniform file.content) = uniform file.content) →
        ∀ r ∈ files.zip results, r.2.1 = .written → Restless r.1 →
          (.written, pathFor root p.moduleRoot r.1) ∈ results' ∧
          lostChanges (pathFor root p.moduleRoot r.1) ∈ ws') := by
  obtain ⟨ledger, d'', hready, hagain, hbytes⟩ := write_again (Project.loaded_of_load hload) hfiles hrun now'
  have hzip : (files.map (targetOf root p.moduleRoot)).zip results =
      (files.zip results).map fun r => (targetOf root p.moduleRoot r.1, r.2) := List.zip_map_left
  have hpairs : ∀ r ∈ files.zip results, Ready d' ledger (targetOf root p.moduleRoot r.1) r.2 := fun r hr =>
    List.forall₂_zip hready (hzip ▸ List.mem_map_of_mem hr)
  have hcalmed : (∀ r ∈ files.zip results, r.2.1 = .written → ¬Restless r.1) → ∀ r ∈ files.zip results,
      again (targetOf root p.moduleRoot r.1) r.2.1 = .unchanged ∨ again (targetOf root p.moduleRoot r.1) r.2.1 = .skipped :=
    fun hcalm r hr => again_of_not_restless (hpairs r hr).standing (hcalm r hr)
  refine ⟨_, _, d'', hagain, ?_, hbytes, fun hcalm => ⟨?_, ?_⟩, fun htold r hr hwritten hrestless => ?_⟩
  · have hsnd := congrArg (List.map Prod.snd) (List.map_snd_zip (Nat.le_of_eq hready.length_eq.symm))
    rw [List.map_map] at hsnd
    rw [resultsAgain, List.map_map]
    exact hsnd
  · rw [resultsAgain, hzip]
    simpa only [List.forall_mem_map] using hcalmed hcalm
  · rw [warningsAgain, hzip, List.flatMap_eq_nil_iff]
    simp only [List.forall_mem_map, warnedAgain]
    intro r hr
    rcases hcalmed hcalm r hr with h | h
    · simp [h]
    · simp [h]
  · have hfile : r.1 ∈ files := (List.of_mem_zip hr).1
    have hmem : (targetOf root p.moduleRoot r.1, r.2) ∈ (files.map (targetOf root p.moduleRoot)).zip results :=
      hzip ▸ List.mem_map_of_mem hr
    have hwrites : again (targetOf root p.moduleRoot r.1) r.2.1 = .written := by
      rw [hwritten]
      exact again_of_restless hrestless (htold r.1 hfile)
    refine ⟨List.mem_map.mpr ⟨_, hmem, ?_⟩, List.mem_flatMap.mpr ⟨_, hmem, ?_⟩⟩
    · exact Prod.ext hwrites (hpairs r hr).path
    · have hwarned : warnedAgain (targetOf root p.moduleRoot r.1) r.2.1 = [lostChanges (pathFor root p.moduleRoot r.1)] :=
        if_pos hwrites
      change lostChanges (pathFor root p.moduleRoot r.1) ∈ warnedAgain (targetOf root p.moduleRoot r.1) r.2.1
      rw [hwarned]
      exact List.mem_singleton_self _

/-- A file of the sample project whose text is restless is written again, with a warning. -/
theorem write_twice_restless : ∃ ws results d' ws' results' d'',
    (write (Project.sampleFiles "x\r\r\ny") "" Project.sample.moduleRoot false .epoch : StateM Disk _) sampleDisk =
      (⟨ws, .ok results⟩, d') ∧
    (write (Project.sampleFiles "x\r\r\ny") "" Project.sample.moduleRoot false .epoch : StateM Disk _) d' =
      (⟨ws', .ok results'⟩, d'') ∧
    (.written, "main.go") ∈ results' ∧ lostChanges "main.go" ∈ ws' := by
  obtain ⟨ws, results, d', hrun, hhead⟩ := sample_write
  obtain ⟨ws', results', d'', hagain, -, -, -, hrestless⟩ :=
    write_twice Project.load_sample (Project.generates_sampleFiles _ (by simp)) hrun .epoch
  obtain ⟨rest, rfl⟩ := List.head?_eq_some_iff.mp hhead
  have hwritten := hrestless (by decide +kernel) (⟨⟨"m/main.go", "code/main.go.tera", false, false, .project⟩, "x\r\r\ny"⟩,
    .written, "main.go") (List.mem_cons_self ..) rfl ⟨rfl, by decide +kernel⟩
  exact ⟨ws, _, d', ws', results', d'', hrun, hagain, hwritten⟩

end Scaffold.Output
