import Scaffold.Proofs.Output.Chronicle

/-! Where what is recorded comes from. In a history in which no ledger is put in its place from outside, the ledger has
    of each file what the last write recorded that succeeded and wrote the file or found it unchanged
    (`Chronicle.traced`): a write that succeeds records its own files and keeps the rest, and all else that happens
    leaves the ledger as it is. -/

namespace Scaffold.Output
open Disk Scaffold.Path

/-! ### The last moment -/

section IsLast
variable {P : Moment → Prop} {ms before after : List Moment} {m n : Moment}

/-- A moment of some kind, and what happened after it, none of which is of that kind. -/
structure IsLast (P : Moment → Prop) (ms : List Moment) (m : Moment) (after : List Moment) : Prop where
  split : ∃ before, ms = before ++ m :: after
  here : P m
  later : ∀ n ∈ after, ¬P n

theorem isLast_concat (ms : List Moment) (h : P n) : IsLast P (ms ++ [n]) n [] := ⟨⟨ms, rfl⟩, h, by simp⟩

theorem IsLast.concat (h : IsLast P ms m after) (hn : ¬P n) : IsLast P (ms ++ [n]) m (after ++ [n]) := by
  obtain ⟨before, rfl⟩ := h.split
  exact ⟨⟨before, by simp⟩, h.here, List.forall_mem_append.mpr ⟨h.later, List.forall_mem_singleton.mpr hn⟩⟩

theorem IsLast.subset (h : IsLast P ms m after) : ∀ n ∈ m :: after, n ∈ ms := by
  obtain ⟨before, rfl⟩ := h.split
  exact fun n hn => List.mem_append_right before hn

end IsLast

/-! ### Kinds of moments -/

/-- The bytes at a location are changed. -/
def Moment.Changes (l : Location) (m : Moment) : Prop :=
  (m.after.file? l).map File.bytes ≠ (m.before.file? l).map File.bytes

/-- A write that succeeds, writes a file or finds it unchanged, and so records its digest. -/
def Moment.Records (root rel digest : String) (m : Moment) : Prop :=
  ∃ r ws results, m.event = .write r ∧ r.dryRun = false ∧ r.run root m.before = (⟨ws, .ok results⟩, m.after) ∧
    ∃ x ∈ r.files.zip results, x.1.relativePath r.moduleRoot = rel ∧ x.2.1 ≠ .skipped ∧
      Sha256.ofText (uniform x.1.content) = digest

/-- A moment after which some digest is recorded anew. -/
def Moment.Recording (root rel : String) (m : Moment) : Prop := ∃ digest, m.Records root rel digest

/-- A write is of the files that are generated for a loaded project, and a change from outside leaves alone what stands
    in the place of the ledger. -/
def Moment.Lawful (root : String) (m : Moment) : Prop :=
  match m.event with
  | .write r => r.Generated
  | .edit => m.after.current = m.before.current ∧
      m.after.file? (m.before.locate (ledgerPath root)) = m.before.file? (m.before.locate (ledgerPath root))

/-- What is written under a name stays as it is when its line ends are made uniform again. -/
def Moment.Calm (rel : String) (m : Moment) : Prop :=
  ∀ r, m.event = .write r → ∀ file ∈ r.files, file.relativePath r.moduleRoot = rel →
    ¬Text.doubledReturn <:+: file.content.toList

section Chronicle
variable {root : String} {d₀ d : Disk} {ms : List Moment} {l : Location}

theorem Chronicle.exists_change (h : Chronicle root d₀ ms d)
    (hne : (d.file? l).map File.bytes ≠ (d₀.file? l).map File.bytes) : ∃ m after, IsLast (·.Changes l) ms m after := by
  -- the moment that was added is the last change, or the last one is found before it
  have add : ∀ {ms : List Moment} {d d' : Disk} {e : Event}, (d'.file? l).map File.bytes ≠ (d₀.file? l).map File.bytes →
      ((d.file? l).map File.bytes ≠ (d₀.file? l).map File.bytes → ∃ m after, IsLast (·.Changes l) ms m after) →
      ∃ m after, IsLast (·.Changes l) (ms ++ [⟨d, e, d'⟩]) m after := fun {ms d d' e} hne ih => by
    by_cases hchanges : Moment.Changes l ⟨d, e, d'⟩
    · exact ⟨_, _, isLast_concat ms hchanges⟩
    · obtain ⟨m, after, hlast⟩ := ih fun heq => hne ((Decidable.not_not.mp hchanges).trans heq)
      exact ⟨m, _, hlast.concat hchanges⟩
  induction h with
  | start => exact absurd rfl hne
  | write _ r ih => exact add hne ih
  | edit _ d' ih => exact add hne ih

theorem Moment.Lawful.generated {m : Moment} (h : m.Lawful root) {r : Request} (hevent : m.event = .write r) :
    r.Generated := by
  unfold Moment.Lawful at h
  rwa [hevent] at h

theorem Chronicle.locate (h : Chronicle root d₀ ms d) (hlawful : ∀ m ∈ ms, m.Lawful root) (path : String) :
    d.locate path = d₀.locate path := by
  refine locate_of_current (h.current fun m hm hevent => ?_) path
  have hlaw := hlawful m hm
  unfold Moment.Lawful at hlaw
  rw [hevent] at hlaw
  exact hlaw.1

end Chronicle

/-! ### What the ledger has -/

section Ledger
variable {d d' : Disk} {root rel digest : String} {ledger ledger' : Ledger} {ts : List Target} {ws : List String}
  {os : List (Outcome × String)} {ms : List Moment} {n : Moment}

theorem loadLedger_eq_ok {now : Instant}
    (h : (loadLedger root now : StateM Disk (Except Failure Ledger)) d = (.ok ledger, d)) :
    ledger = .empty now ∨ ∃ f text, Present d (ledgerPath root) (some f) ∧ Text.decode? f.bytes = some text ∧
      Ledger.parse? text = some ledger := by
  have hreadable : ¬Unreadable d root := by
    rcases loadLedger_cases d root now with ⟨-, e, herror, -⟩ | ⟨hreadable, -⟩
    · rw [h] at herror
      cases herror
    · exact hreadable
  obtain ⟨b, hthere, hb⟩ := isThere_run (ledgerPath root) d
  cases b with
  | false =>
    unfold loadLedger at h
    simp only [bind_run, hthere] at h
    cases h
    exact Or.inl rfl
  | true =>
    obtain ⟨r, hfind⟩ := hb.mp rfl
    obtain ⟨f, text, hentry, htext, hparse⟩ : ∃ f text, r.entry = .file f ∧ Text.decode? f.bytes = some text ∧
        Ledger.parse? text ≠ none := by
      by_contra hnone
      push Not at hnone
      exact hreadable ⟨r, hfind, hnone⟩
    obtain ⟨found, hfound⟩ := Option.ne_none_iff_exists'.mp hparse
    have hpresent := holds_of_find hfind hentry
    rw [loadLedger_of_file hpresent.1 hpresent.2 htext hfound] at h
    cases h
    exact Or.inr ⟨f, text, hpresent, htext, hfound⟩

theorem StepCase.ledger_of_skipped {t : Target} {dryRun : Bool}
    (h : StepCase t dryRun ledger d d' ⟨ws, .ok (.skipped, ledger')⟩) : ledger' = ledger := by
  cases h with
  | kept => rfl

/-- A digest that is recorded after a run is that of a file of the run, or was recorded before it and the run came
    to no file of that name but to leave it to its editor. -/
theorem Run.digest?_eq_some (h : Run false ts ledger d ws os ledger' d') (hdigest : ledger'.digest? rel = some digest) :
    (∃ x ∈ ts.zip os, x.1.rel = rel ∧ x.2.1 ≠ .skipped ∧ Sha256.ofText x.1.text = digest) ∨
      (ledger.digest? rel = some digest ∧ ∀ x ∈ ts.zip os, x.1.rel = rel → x.2.1 = .skipped) := by
  induction h with
  | nil => exact Or.inr ⟨hdigest, by simp⟩
  | @cons t ts l₀ l₁ l₂ d₀ d₁ d₂ ws ws' o os first _ ih =>
    have hstep := stepCase_of_run first
    rw [List.zip_cons_cons, List.exists_mem_cons_iff, List.forall_mem_cons]
    rcases ih hdigest with hlater | ⟨hrecorded, hskipped⟩
    · exact Or.inl (Or.inr hlater)
    · by_cases hrel : t.rel = rel
      · by_cases ho : o = .skipped
        · subst ho
          rw [hstep.ledger_of_skipped] at hrecorded
          exact Or.inr ⟨hrecorded, fun _ => rfl, hskipped⟩
        · have hown := hstep.recordedFor ho
          rw [hrel, hrecorded, Option.some.injEq] at hown
          exact Or.inl (Or.inl ⟨hrel, ho, hown.symm⟩)
      · rw [hstep.digest?_of_ne (Ne.symm hrel)] at hrecorded
        exact Or.inr ⟨hrecorded, fun heq => absurd heq hrel, hskipped⟩

/-- What a ledger has was recorded by the last write that recorded anything for the file. -/
def Traced (root : String) (ms : List Moment) (ledger : Ledger) : Prop :=
  ∀ rel digest, ledger.digest? rel = some digest →
    ∃ m after, m.Records root rel digest ∧ IsLast (·.Recording root rel) ms m after

theorem Traced.concat (h : Traced root ms ledger) (hn : ∀ rel, ¬n.Recording root rel) :
    Traced root (ms ++ [n]) ledger := by
  intro rel digest hdigest
  obtain ⟨m, after, hrecords, hlast⟩ := h rel digest hdigest
  exact ⟨m, _, hrecords, hlast.concat (hn rel)⟩

/-- What stands in the place of the ledger is a ledger that is traced. -/
def StoreTraced (root : String) (ms : List Moment) (d : Disk) : Prop :=
  ∀ f, d.file? (d.locate (ledgerPath root)) = some f → ∃ text ledger, Text.decode? f.bytes = some text ∧
    Ledger.parse? text = some ledger ∧ Traced root ms ledger

theorem StoreTraced.loadLedger (h : StoreTraced root ms d) {now : Instant}
    (hload : (loadLedger root now : StateM Disk (Except Failure Ledger)) d = (.ok ledger, d)) :
    Traced root ms ledger := by
  rcases loadLedger_eq_ok hload with rfl | ⟨f, text, hpresent, htext, hparse⟩
  · intro rel digest hdigest
    cases hdigest
  · obtain ⟨text', ledger', htext', hparse', htraced⟩ := h f (file?_eq_some.mpr hpresent.2)
    obtain rfl := Option.some.inj (htext.symm.trans htext')
    obtain rfl := Option.some.inj (hparse.symm.trans hparse')
    exact htraced

theorem StoreTraced.keep (h : StoreTraced root ms d) (hcurrent : d'.current = d.current)
    (hfile : d'.file? (d.locate (ledgerPath root)) = d.file? (d.locate (ledgerPath root)))
    (hn : ∀ rel, ¬n.Recording root rel) : StoreTraced root (ms ++ [n]) d' := by
  intro f hf
  rw [locate_of_current hcurrent, hfile] at hf
  obtain ⟨text, ledger, htext, hparse, htraced⟩ := h f hf
  exact ⟨text, ledger, htext, hparse, htraced.concat hn⟩

/-- A write that is dry or fails records nothing. -/
theorem not_recording {r : Request} {result : Except Failure (List (Outcome × String))}
    (hrun : r.run root d = (⟨ws, result⟩, d')) (h : r.dryRun = true ∨ ∃ e, result = .error e) (rel : String) :
    ¬Moment.Recording root rel ⟨d, .write r, d'⟩ := by
  rintro ⟨digest, r', ws', results, hevent, hreal, hok, -⟩
  cases hevent
  rw [hrun] at hok
  cases hok
  rcases h with hdry | ⟨e, herror⟩
  · rw [hdry] at hreal
    cases hreal
  · cases herror

/-- A write that succeeds records what it wrote or found unchanged, and keeps what was recorded for other files. -/
theorem StoreTraced.saved {r : Request} {results : List (Outcome × String)} (h : StoreTraced root ms d)
    (hdry : r.dryRun = false) (hrun : r.run root d = (⟨ws, .ok results⟩, d')) :
    StoreTraced root (ms ++ [⟨d, .write r, d'⟩]) d' := by
  cases writeCase_of_run hrun with
  | previewed _ _ _ htrue => simp [hdry] at htrue
  | @saved _ ledger' _ _ _ _ _ hload htargets hwrites _ hsave =>
    rw [hdry] at hwrites
    intro f hf
    obtain ⟨mode, hfile⟩ := hsave.file
    have hparse := Ledger.parse?_toText { ledger' with generatedAt := r.now }
    generalize Ledger.toText _ = text at hfile hparse
    rw [hsave.keeps.locate, file?_eq_some, hfile] at hf
    obtain rfl := Entry.file.inj (Option.some.inj hf)
    refine ⟨text, _, Text.decode?_encode text, hparse, fun rel digest hdigest => ?_⟩
    obtain ⟨rfl, -⟩ := mapM_target_eq_ok htargets
    rcases hwrites.digest?_eq_some hdigest with ⟨x, hx, hrel, hkept, htext⟩ | ⟨hold, hskipped⟩
    · rw [List.zip_map_left, List.mem_map] at hx
      obtain ⟨y, hy, rfl⟩ := hx
      have hrecords : Moment.Records root rel digest ⟨d, .write r, d'⟩ :=
        ⟨r, ws, results, rfl, hdry, hrun, y, hy, hrel, hkept, htext⟩
      exact ⟨_, [], hrecords, isLast_concat ms ⟨digest, hrecords⟩⟩
    · obtain ⟨m, after, hrecords, hlast⟩ := h.loadLedger hload rel digest hold
      refine ⟨m, _, hrecords, hlast.concat fun ⟨_, r', _, _, hevent, _, hok, x, hx, hrel, hkept, _⟩ => ?_⟩
      cases hevent
      rw [hrun] at hok
      cases hok
      exact hkept (hskipped _ (mem_zip_targets hx) hrel)

/-- A write keeps the ledger traced. One that is dry or fails leaves it as it is. -/
theorem StoreTraced.written {r : Request} (h : StoreTraced root ms d) (hr : r.Generated) :
    StoreTraced root (ms ++ [⟨d, .write r, (r.run root d).2⟩]) (r.run root d).2 := by
  have hkeeps := r.keeps root d
  obtain ⟨bytes, resolved, p, hload, hfiles⟩ := hr
  generalize hrun : r.run root d = run at hkeeps ⊢
  obtain ⟨⟨ws, result⟩, d'⟩ := run
  have hcase := writeCase_of_run hrun
  cases hdry : r.dryRun with
  | true =>
    rw [hdry] at hcase
    exact h.keep hkeeps.current (by rw [hcase.dry]) (not_recording hrun (Or.inl hdry))
  | false =>
    cases result with
    | error e =>
      have hreal : (write r.files root r.moduleRoot false r.now : StateM Disk _) d = (⟨ws, .error e⟩, d') := by
        rw [← hdry]
        exact hrun
      obtain ⟨_, _, -, hcut⟩ := write_cutOff (Project.loaded_of_load hload) hfiles hreal
      exact h.keep hkeeps.current hcut.ledger (not_recording hrun (Or.inr ⟨e, rfl⟩))
    | ok results => exact h.saved hdry hrun

/-- A history in which no ledger is put in its place from outside: what the ledger has is traced. -/
theorem Chronicle.traced {d₀ : Disk} (h : Chronicle root d₀ ms d)
    (hfresh : d₀.file? (d₀.locate (ledgerPath root)) = none) (hlawful : ∀ m ∈ ms, m.Lawful root) :
    StoreTraced root ms d := by
  induction h with
  | start =>
    intro f hf
    rw [hfresh] at hf
    cases hf
  | write _ r ih =>
    obtain ⟨hbefore, hlast⟩ := List.forall_mem_append.mp hlawful
    exact (ih hbefore).written ((List.forall_mem_singleton.mp hlast).generated rfl)
  | edit _ d' ih =>
    obtain ⟨hbefore, hlast⟩ := List.forall_mem_append.mp hlawful
    obtain ⟨hcurrent, hfile⟩ := hlast _ (List.mem_singleton_self _)
    exact (ih hbefore).keep hcurrent hfile fun rel ⟨_, r, _, _, hevent, _⟩ => by cases hevent

end Ledger

end Scaffold.Output
