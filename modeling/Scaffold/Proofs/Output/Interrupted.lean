import Mathlib.Data.List.Forall2
import Scaffold.Proofs.Output.Layout

/-! Writes that fail. Before anything is written a write fails without a trace (`write_of_refused`). Later it leaves
    a prefix: some first files are as a run on them alone leaves them, no file stands in the place of a later one that
    did not stand there before, and there are no drafts and no other ledger (`CutOff`). -/

namespace Scaffold.Output
open Disk Scaffold.Path

/-! ### Before anything is written -/

/-- A path that does not consist of names alone. -/
def Refused (rel : String) : Prop := ¬(rel ≠ "" ∧ allNames (components rel) = true)

instance (rel : String) : Decidable (Refused rel) :=
  inferInstanceAs (Decidable ¬(rel ≠ "" ∧ allNames (components rel) = true))

theorem target_of_refused {root moduleRoot : String} {file : GeneratedFile} (h : Refused (file.relativePath moduleRoot)) :
    target root moduleRoot file = .error (.unsafePath (file.relativePath moduleRoot)) := by
  have hcond : (!(file.relativePath moduleRoot).isEmpty && allNames (components (file.relativePath moduleRoot))) = false := by
    rw [← Bool.not_eq_true, Bool.and_eq_true]
    simpa [Refused] using h
  simp only [target, location, hcond, Bool.false_eq_true, ↓reduceIte, bind, Except.bind]

theorem target_of_not_refused {root moduleRoot : String} {file : GeneratedFile}
    (h : ¬Refused (file.relativePath moduleRoot)) : target root moduleRoot file = .ok (targetOf root moduleRoot file) := by
  obtain ⟨hne, hnames⟩ := Decidable.not_not.mp h
  have hcond : (!(file.relativePath moduleRoot).isEmpty && allNames (components (file.relativePath moduleRoot))) = true := by
    simp [hne, hnames]
  simp only [target, location, hcond, ↓reduceIte, bind, Except.bind]
  rfl

theorem mapM_target_eq_error (root moduleRoot : String) : ∀ {files : List GeneratedFile},
    (∃ file ∈ files, Refused (file.relativePath moduleRoot)) → ∃ before file after, files = before ++ file :: after ∧
      (∀ f ∈ before, ¬Refused (f.relativePath moduleRoot)) ∧ Refused (file.relativePath moduleRoot) ∧
      files.mapM (target root moduleRoot) = .error (.unsafePath (file.relativePath moduleRoot))
  | [], h => by simp at h
  | file :: files, h => by
    by_cases hfirst : Refused (file.relativePath moduleRoot)
    · refine ⟨[], file, files, rfl, by simp, hfirst, ?_⟩
      rw [List.mapM_cons, target_of_refused hfirst]
      rfl
    · have hrest : ∃ file ∈ files, Refused (file.relativePath moduleRoot) := by
        obtain ⟨f, hf, hrefused⟩ := h
        rcases List.mem_cons.mp hf with rfl | hf
        · exact absurd hrefused hfirst
        · exact ⟨f, hf, hrefused⟩
      obtain ⟨before, f, after, rfl, hbefore, hrefused, herror⟩ := mapM_target_eq_error root moduleRoot hrest
      refine ⟨file :: before, f, after, rfl, List.forall_mem_cons.mpr ⟨hfirst, hbefore⟩, hrefused, ?_⟩
      rw [List.mapM_cons, target_of_not_refused hfirst, herror]
      rfl

theorem write_of_refused {files : List GeneratedFile} {root moduleRoot : String} {d : Disk} (dryRun : Bool) (now : Instant)
    (h : Unreadable d root ∨ ∃ file ∈ files, Refused (file.relativePath moduleRoot)) :
    ∃ e, (write files root moduleRoot dryRun now : StateM Disk _) d = (⟨[], .error e⟩, d) ∧
      ((Unreadable d root ∧ (e = .badLedger ∨ ∃ cause, e = .io (ledgerPath root) cause)) ∨
        (¬Unreadable d root ∧ ∃ before file after, files = before ++ file :: after ∧
          (∀ f ∈ before, ¬Refused (f.relativePath moduleRoot)) ∧ Refused (file.relativePath moduleRoot) ∧
          e = .unsafePath (file.relativePath moduleRoot))) := by
  unfold write
  rcases loadLedger_cases d root now with ⟨hledger, e, hload, he⟩ | ⟨hledger, ledger, hload⟩
  · rw [bind_run, hload]
    exact ⟨e, rfl, Or.inl ⟨hledger, he⟩⟩
  · obtain ⟨before, file, after, hsplit, hbefore, hrefused, herror⟩ :=
      mapM_target_eq_error root moduleRoot (h.resolve_left hledger)
    rw [bind_run, hload]
    simp only [herror, pure_run]
    exact ⟨_, rfl, Or.inr ⟨hledger, before, file, after, hsplit, hbefore, hrefused, rfl⟩⟩

/-! ### After the first files -/

section Step
variable {d d' : Disk} {t : Target} {dryRun : Bool} {ledger ledger' : Ledger} {ws : List String} {l : Location}

/-- What a step that came past a file left of it. -/
def LeftAs (d d' : Disk) (t : Target) : Outcome → Prop
  | .skipped => t.file.skipIfExists = true ∧ (d'.get? (d.locate t.path)).isSome ∧
      d'.file? (d.locate t.path) = d.file? (d.locate t.path)
  | .unchanged => ∃ f, d.file? (d.locate t.path) = some f ∧ Sha256.ofText (textOf f) = Sha256.ofText t.text ∧
      d'.get? (d.locate t.path) =
        some (.file { f with mode := if t.file.executable then executableMode else f.mode })
  | .written => ∃ mode, (t.file.executable = true → mode = executableMode) ∧
      d'.get? (d.locate t.path) = some (.file ⟨Text.encode t.text, mode⟩)
  | .wouldWrite => False

theorem StepCase.leftAs {o : Outcome} (h : StepCase t false ledger d d' ⟨ws, .ok (o, ledger')⟩) : LeftAs d d' t o := by
  cases h with
  | kept hkept =>
    obtain ⟨r, hfind⟩ := hkept.2
    refine ⟨hkept.1, ?_, rfl⟩
    rw [← (find_eq_ok.mp hfind).2.1, r.here]
    rfl
  | @matched f _ _ hpresent hsame hmarked _ =>
    refine ⟨f, file?_eq_some.mpr hpresent.2, Option.some.inj hsame, ?_⟩
    rw [hmarked.get?_self]
    simp
  | pending _ _ _ hdry => cases hdry
  | placed _ _ _ _ hplaced => exact ⟨_, fun hexecutable => by rw [if_pos hexecutable], hplaced.file⟩

theorem LeftAs.isSome {o : Outcome} (h : LeftAs d d' t o) : (d'.get? (d.locate t.path)).isSome := by
  cases o with
  | skipped => exact h.2.1
  | unchanged =>
    obtain ⟨f, -, -, hfile⟩ := h
    simp [hfile]
  | written =>
    obtain ⟨mode, -, hfile⟩ := h
    simp [hfile]
  | wouldWrite => exact h.elim

theorem LeftAs.congr {d₀ d₂ : Disk} {o : Outcome} (h : LeftAs d d' t o) (hk : Keeps d₀ d)
    (hbefore : d.file? (d.locate t.path) = d₀.file? (d.locate t.path))
    (hafter : d₂.get? (d.locate t.path) = d'.get? (d.locate t.path)) : LeftAs d₀ d₂ t o := by
  have hfile := file?_eq_of_get? hafter
  unfold LeftAs
  rw [← hk.locate, hafter, hfile, ← hbefore]
  exact h

theorem StepCase.get?_of_isSome {log : Logged (Outcome × Ledger)} (h : StepCase t dryRun ledger d d' log)
    (hthere : (d.get? l).isSome) (hl : l ≠ d.locate t.path) (hdraft : l ≠ d.locate (draftPath t.path)) :
    d'.get? l = d.get? l := by
  rcases h.beside hl with (hsame | ⟨-, hnone, -⟩) | ⟨heq, -⟩
  · exact hsame
  · simp [hnone] at hthere
  · exact absurd heq hdraft

theorem StepCase.file?_of_beside {log : Logged (Outcome × Ledger)} (h : StepCase t dryRun ledger d d' log)
    (hl : l ≠ d.locate t.path) {f : File} (hfile : d'.file? l = some f) : d.file? l = some f := by
  rcases h.beside hl with hsame | ⟨-, hnone⟩
  · rwa [← hsame.file?_eq]
  · simp [file?, hnone] at hfile

end Step

section Run
variable {d d' : Disk} {t : Target} {dryRun : Bool} {ledger ledger' : Ledger} {ws : List String} {l : Location}
  {ts : List Target} {os : List (Outcome × String)}

theorem Run.get?_of_isSome (h : Run dryRun ts ledger d ws os ledger' d') (hthere : (d.get? l).isSome)
    (hapart : ∀ t ∈ ts, l ≠ d.locate t.path ∧ l ≠ d.locate (draftPath t.path)) : d'.get? l = d.get? l := by
  induction h with
  | nil => rfl
  | cons first _ ih =>
    obtain ⟨⟨hpath, hdraft⟩, htail⟩ := List.forall_mem_cons.mp hapart
    have hstep := stepCase_of_run first
    have hsame := hstep.get?_of_isSome hthere hpath hdraft
    rw [ih (by rwa [hsame]) fun t ht => by simpa only [hstep.keeps.locate] using htail t ht, hsame]

theorem Stops.get?_of_isSome {e : Failure} (h : Stops dryRun ts ledger d ws e d') (hthere : (d.get? l).isSome)
    (hapart : ∀ t ∈ ts, l ≠ d.locate t.path ∧ l ≠ d.locate (draftPath t.path)) : d'.get? l = d.get? l := by
  obtain ⟨before, t, after, _, _, _, mid, _, rfl, hrun, hstep, -⟩ := h.after_run
  have hmid := hrun.get?_of_isSome hthere fun u hu => hapart u (List.mem_append_left _ hu)
  obtain ⟨hpath, hdraft⟩ := hapart t (by simp)
  rw [hstep.get?_of_isSome (by rwa [hmid]) (by rwa [hrun.keeps.locate]) (by rwa [hrun.keeps.locate]), hmid]

theorem Run.file?_of_beside (h : Run dryRun ts ledger d ws os ledger' d') (hapart : ∀ t ∈ ts, l ≠ d.locate t.path)
    {f : File} (hfile : d'.file? l = some f) : d.file? l = some f := by
  induction h with
  | nil => exact hfile
  | cons first _ ih =>
    obtain ⟨hpath, htail⟩ := List.forall_mem_cons.mp hapart
    have hstep := stepCase_of_run first
    exact hstep.file?_of_beside hpath (ih (fun t ht => by rw [hstep.keeps.locate]; exact htail t ht) hfile)

/-- Files that go to places of their own, none of which is a draft's. -/
structure Separate (d : Disk) (ts : List Target) : Prop where
  paths : ts.Pairwise fun t t' => d.locate t.path ≠ d.locate t'.path
  drafts : ∀ t ∈ ts, ∀ t' ∈ ts, d.locate t.path ≠ d.locate (draftPath t'.path)

theorem Separate.keep (h : Separate d ts) (hk : Keeps d d') : Separate d' ts := by
  refine ⟨?_, ?_⟩
  · simpa only [hk.locate] using h.paths
  · simpa only [hk.locate] using h.drafts

theorem Separate.tail (h : Separate d (t :: ts)) : Separate d ts :=
  ⟨(List.pairwise_cons.mp h.paths).2, fun t' ht' t'' ht'' =>
    h.drafts t' (List.mem_cons_of_mem _ ht') t'' (List.mem_cons_of_mem _ ht'')⟩

/-- A run leaves each file as its own step did: the steps before it did not touch it, nor do those after it. -/
theorem Run.leftAs {d₀ : Disk} (h : Run false ts ledger d ws os ledger' d') (hsep : Separate d ts) (hk : Keeps d₀ d)
    (hbefore : ∀ t ∈ ts, d.file? (d.locate t.path) = d₀.file? (d.locate t.path)) :
    List.Forall₂ (fun t o => o.2 = t.path ∧ LeftAs d₀ d' t o.1) ts os := by
  induction h with
  | nil => exact .nil
  | @cons t ts l₀ l₁ l₂ d₀' d₁ d₂ ws ws' o os first rest ih =>
    have hstep := stepCase_of_run first
    have hkeeps := hstep.keeps
    have hleft := hstep.leftAs
    obtain ⟨hhead, htail⟩ := List.forall_mem_cons.mp hbefore
    have hother := (List.pairwise_cons.mp hsep.paths).1
    refine .cons ⟨rfl, hleft.congr hk hhead ?_⟩ (ih (hsep.tail.keep hkeeps) (hk.trans hkeeps) fun t' ht' => ?_)
    · refine rest.get?_of_isSome hleft.isSome fun t' ht' => ?_
      rw [hkeeps.locate, hkeeps.locate]
      exact ⟨hother t' ht', hsep.drafts t (List.mem_cons_self ..) t' (List.mem_cons_of_mem _ ht')⟩
    · rw [hkeeps.locate, hstep.file?_eq (hother t' ht').symm
        (hsep.drafts t' (List.mem_cons_of_mem _ ht') t (List.mem_cons_self ..))]
      exact htail t' ht'

end Run

/-! ### Writes that fail -/

section Write
variable {p : Project} {files first rest : List GeneratedFile} {root moduleRoot : String} {d d' mid : Disk}

/-- A write that failed after the first files of a list: these are as a run on them alone leaves them; no file is new
    or changed in the places of the rest; no draft is new; the ledger is what it was. -/
structure CutOff (first rest : List GeneratedFile) (root moduleRoot : String) (d d' : Disk) : Prop where
  done : ∃ ledger ledger' ws os mid,
    (writeTargets false (first.map (targetOf root moduleRoot)) ledger : StateM Disk _) d =
      (⟨ws, .ok (os, ledger')⟩, mid) ∧
    (∀ file ∈ first, d'.get? (d.locate (pathFor root moduleRoot file)) = mid.get? (d.locate (pathFor root moduleRoot file))) ∧
    List.Forall₂ (fun file o => o.2 = pathFor root moduleRoot file ∧ LeftAs d d' (targetOf root moduleRoot file) o.1) first os
  rest : ∀ file ∈ rest, d'.file? (d.locate (pathFor root moduleRoot file)) = d.file? (d.locate (pathFor root moduleRoot file))
  drafts : ∀ name dir f, IsDraftName name → d'.file? (name :: dir) = some f → d.file? (name :: dir) = some f
  ledger : d'.file? (d.locate (ledgerPath root)) = d.file? (d.locate (ledgerPath root))

theorem CutOff.nothing (files : List GeneratedFile) (root moduleRoot : String) (now : Instant) (d : Disk) :
    CutOff [] files root moduleRoot d d where
  done := ⟨.empty now, _, _, _, d, rfl, by simp, .nil⟩
  rest := fun _ _ => rfl
  drafts := fun _ _ _ _ h => h
  ledger := rfl

theorem separate_of_generates {ts : List Target} (hloaded : p.Loaded) (hfiles : p.Generates files)
    (h : files.mapM (target root moduleRoot) = .ok ts) (d : Disk) : Separate d ts := by
  have hplanned := planned_of_generates hfiles h
  obtain ⟨rfl, hunder⟩ := mapM_target_eq_ok h
  refine ⟨?_, fun t ht t' ht' => (hplanned t ht).ne_draft d (hplanned t' ht')⟩
  have hnames := namesTo_pairwise hloaded moduleRoot
  rw [← hfiles.planned] at hnames
  refine List.pairwise_map.mpr ((List.pairwise_map.mp hnames).imp_of_mem fun hf hg hne heq => hne ?_)
  rw [(hunder _ (List.mem_map_of_mem hf)).locate_eq, (hunder _ (List.mem_map_of_mem hg)).locate_eq] at heq
  exact placeAt_injective heq

/-- What is done after a run on the first files leaves them and cuts the write off there, if it changes one location
    `s` at most but for new directories, and puts no draft. -/
theorem cutOff_of_run {ts : List Target} {ledger ledger' : Ledger} {ws : List String} {os : List (Outcome × String)}
    {s : Location} (hloaded : p.Loaded) (hfiles : p.Generates (first ++ rest))
    (htargets : (first ++ rest).mapM (target root moduleRoot) = .ok ts)
    (hrun : Run false (first.map (targetOf root moduleRoot)) ledger d ws os ledger' mid)
    (hother : ∀ l, l ≠ s → d'.get? l = mid.get? l ∨ (mid.get? l = none ∧ d'.get? l = some .directory))
    (hplace : ∀ file ∈ first ++ rest, d.locate (pathFor root moduleRoot file) ≠ s) (hledger : d.locate (ledgerPath root) ≠ s)
    (hdraft : ∀ name dir f, IsDraftName name → s = name :: dir → d'.file? s = some f → mid.file? s = some f) :
    CutOff first rest root moduleRoot d d' := by
  have hsep := separate_of_generates hloaded hfiles htargets d
  have hplanned := planned_of_generates hfiles htargets
  obtain ⟨rfl, hunder⟩ := mapM_target_eq_ok htargets
  have hfirst : ∀ file ∈ first, file ∈ first ++ rest := fun file hmem => List.mem_append_left _ hmem
  have hplannedFirst : ∀ t ∈ first.map (targetOf root moduleRoot), t.Planned root := fun t ht =>
    hplanned t (by rw [List.map_append]; exact List.mem_append_left _ ht)
  have hsepFirst : Separate d (first.map (targetOf root moduleRoot)) := by
    rw [List.map_append] at hsep
    exact ⟨(List.pairwise_append.mp hsep.paths).1, fun t ht t' ht' =>
      hsep.drafts t (List.mem_append_left _ ht) t' (List.mem_append_left _ ht')⟩
  have hleft := List.forall₂_map_left_iff.mp (hrun.leftAs hsepFirst (Keeps.refl d) fun _ _ => rfl)
  have hthere := ((List.forall₂_and_left _ _).mp (hleft.imp fun file o h => ⟨h.2.isSome, h⟩)).1
  -- what stands somewhere is what the run left there
  have hsame : ∀ l, l ≠ s → (mid.get? l).isSome → d'.get? l = mid.get? l := fun l hl hsome =>
    (hother l hl).elim id fun hnew => by simp [hnew.1] at hsome
  have hfile : ∀ l, l ≠ s → d'.file? l = mid.file? l := fun l hl => by
    rcases hother l hl with heq | ⟨hnone, hdir⟩
    · exact file?_eq_of_get? heq
    · simp [file?, hnone, hdir]
  have hafter : ∀ file ∈ first, d'.get? (d.locate (pathFor root moduleRoot file)) =
      mid.get? (d.locate (pathFor root moduleRoot file)) := fun file hmem =>
    hsame _ (hplace file (hfirst file hmem)) (hthere file hmem)
  refine ⟨⟨ledger, ledger', ws, os, mid, hrun.writeTargets_eq, hafter, ?_⟩, fun file hmem => ?_, fun name dir f hname hf => ?_, ?_⟩
  · exact ((List.forall₂_and_left _ _).mpr ⟨hafter, hleft⟩).imp fun file o h =>
      ⟨h.2.1, h.2.2.congr (Keeps.refl d) rfl h.1⟩
  · have hmem' : file ∈ first ++ rest := List.mem_append_right _ hmem
    rw [hfile _ (hplace file hmem'), hrun.file?_eq fun t ht => ?_]
    have hpaths := hsep.paths
    rw [List.map_append] at hpaths
    refine ⟨fun heq => (List.pairwise_append.mp hpaths).2.2 t ht _ (List.mem_map_of_mem hmem) heq.symm, ?_⟩
    refine hsep.drafts _ (List.mem_map_of_mem hmem') t ?_
    rw [List.map_append]
    exact List.mem_append_left _ ht
  · have hmid : mid.file? (name :: dir) = some f := by
      by_cases hs : name :: dir = s
      · exact hs ▸ hdraft name dir f hname hs.symm (hs ▸ hf)
      · rwa [← hfile _ hs]
    exact hrun.file?_of_beside (fun t ht heq => (hplannedFirst t ht).not_isDraftName d (heq ▸ rfl) hname) hmid
  · rw [hfile _ hledger, hrun.file?_eq fun t ht => ?_]
    exact ⟨((hplannedFirst t ht).ne_ledger d root).1.symm, ((hplannedFirst t ht).draft_ne_ledger d root).symm⟩

theorem StepCase.other_of_error {t : Target} {ledger : Ledger} {ws : List String} {e : Failure}
    (h : StepCase t false ledger d d' ⟨ws, .error e⟩) {l : Location} (hl : l ≠ d.locate (draftPath t.path)) :
    d'.get? l = d.get? l ∨ (d.get? l = none ∧ d'.get? l = some .directory) := by
  cases h with
  | unread => exact Or.inl rfl
  | broken _ _ _ _ _ hbroken => exact ((hbroken.other l).resolve_right fun h => hl h.1).imp id And.right

/-- A write of the generated files of a project that fails is cut off after some first files. -/
theorem write_cutOff {now : Instant} {ws : List String} {e : Failure} (hloaded : p.Loaded) (hfiles : p.Generates files)
    (hrun : (write files root moduleRoot false now : StateM Disk _) d = (⟨ws, .error e⟩, d')) :
    ∃ first rest, files = first ++ rest ∧ CutOff first rest root moduleRoot d d' := by
  -- it is cut off before the first file, at some file, or behind the last one
  cases writeCase_of_run hrun with
  | unloaded | refused => exact ⟨[], files, rfl, CutOff.nothing files root moduleRoot now d⟩
  | @stopped _ ts _ _ _ _ htargets hstops =>
    obtain ⟨before, t, after, ws₁, os, l₁, mid, ws₂, hsplit, hwrites, hstep, -⟩ := hstops.after_run
    have hsep := separate_of_generates hloaded hfiles htargets d
    have hplanned := planned_of_generates hfiles htargets
    have hkeeps := hwrites.keeps
    have ht := hsplit ▸ List.mem_append_right before (List.mem_cons_self (a := t) (l := after))
    have hts := (mapM_target_eq_ok htargets).1
    rw [hts, List.map_eq_append_iff] at hsplit
    obtain ⟨first, rest, rfl, rfl, -⟩ := hsplit
    refine ⟨first, rest, rfl, cutOff_of_run (s := d.locate (draftPath t.path)) hloaded hfiles htargets hwrites ?_ ?_ ?_ ?_⟩
    · intro l hl
      exact hstep.other_of_error (by rwa [hkeeps.locate])
    · intro file hmem
      have hmem' : targetOf root moduleRoot file ∈ ts := hts ▸ List.mem_map_of_mem hmem
      exact hsep.drafts (targetOf root moduleRoot file) hmem' t ht
    · exact ((hplanned t ht).draft_ne_ledger d root).symm
    · intro _ _ f _ _ hfile
      rw [← hkeeps.locate] at hfile ⊢
      refine hstep.file?_of_beside (fun heq => ?_) hfile
      exact hsep.drafts t ht t ht (by rw [← hkeeps.locate, ← hkeeps.locate, heq])
  | @unsaved _ _ ts _ _ _ _ _ _ htargets hwrites _ hsave =>
    have hplanned := planned_of_generates hfiles htargets
    have hkeeps := hwrites.keeps
    have hts := (mapM_target_eq_ok htargets).1
    have hall : files ++ [] = files := List.append_nil files
    refine ⟨files, [], hall.symm, cutOff_of_run (s := d.locate (ledgerDraftPath root)) hloaded (hall.symm ▸ hfiles)
      (hall.symm ▸ htargets) (hts ▸ hwrites) ?_ ?_ (ledgerPath_ne_ledgerDraftPath d root) ?_⟩
    · intro l hl
      exact (hsave.other l (by rwa [hkeeps.locate])).imp id And.right
    · intro file hmem
      rw [hall] at hmem
      have hmem' : targetOf root moduleRoot file ∈ ts := hts ▸ List.mem_map_of_mem hmem
      exact ((hplanned _ hmem').ne_ledger d root).2
    · intro name dir f hname hs
      rw [locate_ledgerDraftPath] at hs
      exact absurd ((List.cons.inj hs).1 ▸ hname) ledgerNames_not_draft.2

end Write

end Scaffold.Output
