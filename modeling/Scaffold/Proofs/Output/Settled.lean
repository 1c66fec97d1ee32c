import Scaffold.Proofs.Output.Layout

/-! What a write leaves behind. For each file it follows from what stood in its place, and the mode of a stale draft
    beside it, what becomes of it (`settled`): no other file of the run has a part in it, since they are apart from
    each other (`Run.settled`). Beside the files there are only new directories around them, and the drafts of files
    that were written are gone (`Run.beside`). -/

namespace Scaffold.Output
open Disk Scaffold.Path

/-- What becomes of a file, by what stood in its place and in the place of its draft. -/
def settled (file : GeneratedFile) (before draft : Option Entry) : Outcome × Option Entry :=
  let mode (old : Nat) : Nat := if file.executable then executableMode else old
  let fresh : Entry := .file ⟨Text.encode (uniform file.content), mode (modeOf draft)⟩
  if file.skipIfExists && before.isSome then (.skipped, before)
  else match before with
    | some (.file f) =>
      if textOf f = uniform file.content then (.unchanged, some (.file { f with mode := mode f.mode }))
      else (.written, some fresh)
    | _ => (.written, some fresh)

/-- What becomes of a file on a disk. -/
def settledOn (d : Disk) (t : Target) : Outcome × Option Entry :=
  settled t.file (d.get? (d.locate t.path)) (d.get? (d.locate (draftPath t.path)))

/-- The digests tell the text of a file from what stands in its place. -/
def Told (d : Disk) (t : Target) : Prop :=
  ∀ f, d.get? (d.locate t.path) = some (.file f) → Sha256.ofText (textOf f) = Sha256.ofText t.text → textOf f = t.text

instance (d : Disk) (t : Target) : Decidable (Told d t) :=
  match h : d.get? (d.locate t.path) with
  | some (.file f) =>
    decidable_of_iff (Sha256.ofText (textOf f) = Sha256.ofText t.text → textOf f = t.text)
      ⟨fun htold g hg => by rwa [← Entry.file.inj (Option.some.inj (h.symm.trans hg))], fun htold => htold f h⟩
  | some .directory => isTrue fun f hf => by cases h.symm.trans hf
  | none => isTrue fun f hf => by cases h.symm.trans hf

variable {d d' : Disk} {t : Target} {ledger ledger' : Ledger} {ws : List String} {o : Outcome}

/-! ### One file -/

theorem get?_of_present {path name : String} {f? : Option File} (h : Present d path f?) (hname : (aim path).2.1 = some name)
    (hclimb : d.Climbable path) : d.get? (d.locate path) = f?.map .file := by
  cases f? with
  | none => exact get?_locate_of_notFound hname hclimb h
  | some f => exact h.2

theorem kept_iff {f? : Option File} {name : String} (hname : (aim t.path).2.1 = some name) (hclimb : d.Climbable t.path)
    (h : Present d t.path f?) : Kept d t ↔ t.file.skipIfExists = true ∧ (d.get? (d.locate t.path)).isSome := by
  refine and_congr_right fun _ => ?_
  cases f? with
  | none =>
    have hnone := get?_of_present h hname hclimb
    have hfind : d.find t.path = .error .notFound := h
    simp [hnone, hfind]
  | some f => simp [h.2, find_of_holds h.1 h.2]

theorem settledOn_of_kept (hskip : t.file.skipIfExists = true) (hthere : (d.get? (d.locate t.path)).isSome) :
    settledOn d t = (.skipped, d.get? (d.locate t.path)) := by
  simp [settledOn, settled, hskip, hthere]

theorem settledOn_of_same {f : File} (hskip : ¬(t.file.skipIfExists = true ∧ (d.get? (d.locate t.path)).isSome))
    (hbefore : d.get? (d.locate t.path) = some (.file f)) (hsame : textOf f = t.text) : settledOn d t =
      (.unchanged, some (.file { f with mode := if t.file.executable then executableMode else f.mode })) := by
  have hcond : (t.file.skipIfExists && (d.get? (d.locate t.path)).isSome) = false := by
    rwa [← Bool.not_eq_true, Bool.and_eq_true]
  have hsame' : textOf f = uniform t.file.content := hsame
  unfold settledOn settled
  rw [hcond, hbefore]
  simp [hsame']

theorem settledOn_of_differs (hskip : ¬(t.file.skipIfExists = true ∧ (d.get? (d.locate t.path)).isSome))
    (hdiffers : ∀ f, d.get? (d.locate t.path) = some (.file f) → textOf f ≠ t.text) : settledOn d t =
      (.written, some (.file ⟨Text.encode t.text,
        if t.file.executable then executableMode else modeOf (d.get? (d.locate (draftPath t.path)))⟩)) := by
  have hcond : (t.file.skipIfExists && (d.get? (d.locate t.path)).isSome) = false := by
    rwa [← Bool.not_eq_true, Bool.and_eq_true]
  unfold settledOn settled
  rw [hcond]
  cases hbefore : d.get? (d.locate t.path) with
  | none => rfl
  | some e =>
    cases e with
    | directory => rfl
    | file f =>
      have hne : textOf f ≠ uniform t.file.content := hdiffers f hbefore
      simp [hne, Target.text]

theorem StepCase.settled (h : StepCase t false ledger d d' ⟨ws, .ok (o, ledger')⟩) (hclimb : d.Climbable t.path)
    (hname : (aim t.path).2.1.isSome) (htold : Told d t) : (o, d'.get? (d.locate t.path)) = settledOn d t := by
  obtain ⟨name, hname⟩ := Option.isSome_iff_exists.mp hname
  cases h with
  | kept hkept =>
    obtain ⟨r, hfind⟩ := hkept.2
    have hthere : (d.get? (d.locate t.path)).isSome := by
      rw [← (find_eq_ok.mp hfind).2.1, r.here]
      rfl
    exact (settledOn_of_kept hkept.1 hthere).symm
  | matched hkept hpresent hsame hmarked _ =>
    have htext := htold _ hpresent.2 (Option.some.inj hsame)
    rw [settledOn_of_same (fun h => hkept ((kept_iff hname hclimb hpresent).mpr h)) hpresent.2 htext, hmarked.get?_self]
    simp
  | pending _ _ _ hdry => cases hdry
  | placed hkept hpresent hdiffers _ hplaced =>
    rw [settledOn_of_differs (fun h => hkept ((kept_iff hname hclimb hpresent).mpr h)) fun f hf htext => hdiffers ?_,
      hplaced.file]
    -- what stands there is what was read
    have hread := get?_of_present hpresent hname hclimb
    rw [hf, eq_comm, Option.map_eq_some_iff] at hread
    obtain ⟨g, rfl, heq⟩ := hread
    cases heq
    rw [Matches, Option.map_some, htext]

/-- Beside its file a step makes directories around it, and the draft is gone if the file was written. -/
theorem StepCase.beside_of_climbable (h : StepCase t false ledger d d' ⟨ws, .ok (o, ledger')⟩) (hclimb : d.Climbable t.path)
    {l : Location} (hl : l ≠ d.locate t.path) :
    d'.get? l = d.get? l ∨ (o = .written ∧ l = d.locate (draftPath t.path) ∧ d'.get? l = none) ∨
      (l <:+ d.locate t.path ∧ d.get? l = none ∧ d'.get? l = some .directory) := by
  cases h with
  | kept => exact Or.inl rfl
  | matched _ _ _ hmarked _ => exact Or.inl (hmarked.get?_of_ne hl)
  | pending _ _ _ hdry => cases hdry
  | placed _ _ _ _ hplaced =>
    by_cases hdraft : l = d.locate (draftPath t.path)
    · exact Or.inr (Or.inl ⟨rfl, hdraft, hdraft ▸ hplaced.draft⟩)
    · exact ((hplaced.other l hl hdraft).of_climbable hclimb).imp id Or.inr

/-! ### Runs -/

theorem settledOn_congr (hk : Keeps d d') (h : ∀ l ∈ footprint d t, d'.get? l = d.get? l) :
    settledOn d' t = settledOn d t := by
  have hfile := h (d.locate t.path) (by simp [footprint])
  have hdraft := h (d.locate (draftPath t.path)) (by simp [footprint])
  rw [settledOn, settledOn, hk.locate, hk.locate, hfile, hdraft]

theorem Told.congr (htold : Told d t) (hk : Keeps d d') (h : d'.get? (d.locate t.path) = d.get? (d.locate t.path)) :
    Told d' t := by
  intro f hf
  rw [hk.locate, h] at hf
  exact htold f hf

section Run
variable {root : String} {ts : List Target} {os : List (Outcome × String)}

theorem Laid.get?_of_step (hlaid : Laid d root (t :: ts)) (h : StepCase t false ledger d d' ⟨ws, .ok (o, ledger')⟩)
    (hclimb : d.Climbable root) {t' : Target} (ht' : t' ∈ ts) : ∀ l ∈ footprint d t', d'.get? l = d.get? l := by
  intro l hl
  refine h.get?_eq_of_apart ((hlaid.under t (List.mem_cons_self ..)).climbable_iff.mpr hclimb) fun m hm => ?_
  exact (hlaid.apart_head hm t' ht' l hl).symm

theorem Laid.get?_of_run {d₀ d₁ d₂ : Disk} {l₁ l₂ : Ledger} (hlaid : Laid d₀ root (t :: ts)) (hk : Keeps d₀ d₁)
    (rest : Run false ts l₁ d₁ ws os l₂ d₂) (hclimb : d₁.Climbable root) {l : Location} (hl : l ∈ footprint d₀ t) :
    d₂.get? l = d₁.get? l := by
  refine rest.get?_eq_of_apart hlaid.tail.under hclimb fun t' ht' m hm => ?_
  rw [footprint_of_keeps hk] at hm
  exact hlaid.apart_head hl t' ht' m hm

/-- What a run leaves in the place of each file, and what it says became of it, follows from what was there. -/
theorem Run.settled (h : Run false ts ledger d ws os ledger' d') (hlaid : Laid d root ts) (hclimb : d.Climbable root)
    (htold : ∀ t ∈ ts, Told d t) :
    os = ts.map (fun t => ((settledOn d t).1, t.path)) ∧ ∀ t ∈ ts, d'.get? (d.locate t.path) = (settledOn d t).2 := by
  induction h with
  | nil => simp
  | @cons t ts l₀ l₁ l₂ d₀ d₁ d₂ ws ws' o os first rest ih =>
    have hstep := stepCase_of_run first
    have hkeeps := hstep.keeps
    have hunder := hlaid.under t (List.mem_cons_self ..)
    have hsettled := hstep.settled (hunder.climbable_iff.mpr hclimb) (hlaid.named t (List.mem_cons_self ..))
      (htold t (List.mem_cons_self ..))
    have hothers : ∀ t' ∈ ts, ∀ l ∈ footprint d₀ t', d₁.get? l = d₀.get? l := fun t' ht' =>
      hlaid.get?_of_step hstep hclimb ht'
    have hclimb₁ := hkeeps.climbable hclimb
    have hrest := ih (hlaid.tail.keep hkeeps) hclimb₁ fun t' ht' =>
      (htold t' (List.mem_cons_of_mem _ ht')).congr hkeeps (hothers t' ht' _ (by simp [footprint]))
    have hsame : ∀ t' ∈ ts, settledOn d₁ t' = settledOn d₀ t' := fun t' ht' => settledOn_congr hkeeps (hothers t' ht')
    refine ⟨?_, fun t' ht' => ?_⟩
    · rw [List.map_cons, ← hsettled, hrest.1]
      exact congrArg _ (List.map_congr_left fun t' ht' => by rw [hsame t' ht'])
    · rcases List.mem_cons.mp ht' with rfl | ht'
      · rw [← hsettled]
        exact hlaid.get?_of_run hkeeps rest hclimb₁ (by simp [footprint])
      · rw [← hsame t' ht', ← hkeeps.locate]
        exact hrest.2 t' ht'

theorem Run.beside (h : Run false ts ledger d ws os ledger' d') (hlaid : Laid d root ts) (hclimb : d.Climbable root)
    (htold : ∀ t ∈ ts, Told d t) {l : Location} (hl : ∀ t ∈ ts, l ≠ d.locate t.path) :
    d'.get? l = d.get? l ∨
      (∃ t ∈ ts, (settledOn d t).1 = .written ∧ l = d.locate (draftPath t.path) ∧ d'.get? l = none) ∨
      (∃ t ∈ ts, l <:+ d.locate t.path ∧ d.get? l = none ∧ d'.get? l = some .directory) := by
  induction h with
  | nil => exact Or.inl rfl
  | @cons t ts l₀ l₁ l₂ d₀ d₁ d₂ ws ws' o os first rest ih =>
    have hstep := stepCase_of_run first
    have hkeeps := hstep.keeps
    have hunder := hlaid.under t (List.mem_cons_self ..)
    have hclimbT := hunder.climbable_iff.mpr hclimb
    have hsettled := hstep.settled hclimbT (hlaid.named t (List.mem_cons_self ..)) (htold t (List.mem_cons_self ..))
    have hothers : ∀ t' ∈ ts, ∀ l ∈ footprint d₀ t', d₁.get? l = d₀.get? l := fun t' ht' =>
      hlaid.get?_of_step hstep hclimb ht'
    have hclimb₁ := hkeeps.climbable hclimb
    obtain ⟨hfirst, hlater⟩ := List.forall_mem_cons.mp hl
    have hrest := ih (hlaid.tail.keep hkeeps) hclimb₁
      (fun t' ht' => (htold t' (List.mem_cons_of_mem _ ht')).congr hkeeps (hothers t' ht' _ (by simp [footprint])))
      (fun t' ht' => by rw [hkeeps.locate]; exact hlater t' ht')
    rcases hstep.beside_of_climbable hclimbT hfirst with hsame | ⟨rfl, hdraft, hnone⟩ | ⟨haround, hnone, hdir⟩
    · rcases hrest with heq | ⟨t', ht', hwritten, hdraft, hgone⟩ | ⟨t', ht', haround, hnone, hdir⟩
      · exact Or.inl (heq.trans hsame)
      · refine Or.inr (Or.inl ⟨t', List.mem_cons_of_mem _ ht', ?_, by rw [hdraft, hkeeps.locate], hgone⟩)
        rw [← hwritten, settledOn_congr hkeeps (hothers t' ht')]
      · exact Or.inr (Or.inr ⟨t', List.mem_cons_of_mem _ ht', hkeeps.locate _ ▸ haround, hsame ▸ hnone, hdir⟩)
    · refine Or.inr (Or.inl ⟨t, List.mem_cons_self .., by rw [← hsettled], hdraft, ?_⟩)
      rw [← hnone, hdraft]
      exact hlaid.get?_of_run hkeeps rest hclimb₁ (by simp [footprint])
    · refine Or.inr (Or.inr ⟨t, List.mem_cons_self .., haround, hnone, ?_⟩)
      exact rest.keeps.directory l hdir

end Run

/-! ### The whole write -/

theorem climbable_ledgerPath {root : String} : d.Climbable (ledgerPath root) ↔ d.Climbable root := by
  have hdir : Ends (ledgerDir root).toList (parts root.toList) ".pilot".toList := ends_join (by decide) (by decide)
  have hstart : d.start (ledgerPath root) = d.start root :=
    (start_of_isAbsolute_iff (isAbsolute_join (by unfold IsAbsolute; decide))).trans
      (start_of_isAbsolute_iff (isAbsolute_join (by unfold IsAbsolute; decide)))
  unfold Climbable
  rw [hstart, (ends_ledgerPath root).parts_eq, hdir.parts_eq, List.append_assoc]
  exact ⟨Climbs.of_append, fun hclimb => hclimb.append (by decide)⟩

theorem Recorded.beside {root : String} (h : Recorded d d' root ledger) (hclimb : d.Climbable root) {l : Location}
    (hl : l ≠ d.locate (ledgerPath root)) :
    d'.get? l = d.get? l ∨ (l = d.locate (ledgerDraftPath root) ∧ d'.get? l = none) ∨
      (l <:+ d.locate (ledgerPath root) ∧ d.get? l = none ∧ d'.get? l = some .directory) := by
  by_cases hdraft : l = d.locate (ledgerDraftPath root)
  · exact Or.inr (Or.inl ⟨hdraft, hdraft ▸ h.draft⟩)
  · exact ((h.other l hl hdraft).of_climbable (climbable_ledgerPath.mpr hclimb)).imp id Or.inr

theorem Recorded.get?_of_apart {root : String} (h : Recorded d d' root ledger) (hclimb : d.Climbable root) {l : Location}
    (hl : Apart l (d.locate (ledgerPath root)) ∧ Apart l (d.locate (ledgerDraftPath root))) : d'.get? l = d.get? l := by
  rcases h.beside hclimb hl.1.ne with heq | ⟨hdraft, -⟩ | ⟨haround, -⟩
  · exact heq
  · exact absurd hdraft hl.2.ne
  · exact absurd haround hl.1.1

/-- A disk with an own configuration and a scheduler as it is generated. -/
def sampleDisk : Disk :=
  diskOf [("pkg/scheduler/scheduler.go", "x\r\r\ny", false), ("pkg/config/config.go", "mine", false)]

theorem exists_of_head {α : Type} {x : Logged (List α) × Disk} {first : Option α}
    (h : x.1.result.toOption.map List.head? = some first) : ∃ ws as d', x = (⟨ws, .ok as⟩, d') ∧ as.head? = first := by
  obtain ⟨⟨ws, r⟩, d'⟩ := x
  cases r with
  | error e => cases h
  | ok as => exact ⟨ws, as, d', rfl, Option.some.inj h⟩

theorem sample_write : ∃ ws results d',
    (write (Project.sampleFiles "x\r\r\ny") "" Project.sample.moduleRoot false .epoch : StateM Disk _) sampleDisk =
      (⟨ws, .ok results⟩, d') ∧ results.head? = some (.written, "main.go") :=
  exists_of_head (by decide +kernel)

end Scaffold.Output
