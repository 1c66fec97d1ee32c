import Scaffold.Output.Write
import Scaffold.Proofs.Disk.Change

/-! What becomes of one file. Placing a text fails with the disk as it was, but for directories on the way
    and a draft that is gone (`Broken`), or leaves the text as the file and no draft (`Placed`). A step on
    one file either finds that nothing is to be done or places its text (`StepCase`), and all that is said
    about runs rests on these cases. -/

namespace Scaffold.Output
open Disk Scaffold.Path

/-! ### Drafts -/

/-- The end of the names of drafts. -/
def draftEnd : List Char := ['.', 'p', 'i', 'l', 'o', 't', '.', 't', 'm', 'p']

theorem toList_draftPath (path : String) : (draftPath path).toList = path.toList ++ draftEnd := by
  simp [draftPath, draftEnd]

theorem not_isDots_append_draftEnd (base : List Char) : ¬IsDots (base ++ draftEnd) := by
  have hlen : (base ++ draftEnd).length = base.length + 10 := by simp [draftEnd]
  rintro (h | h) <;> rw [h] at hlen <;> simp only [List.length_cons, List.length_nil] at hlen <;> omega

theorem ends_draftPath {path : String} {dir : List (List Char)} {base : List Char} (h : Ends path.toList dir base) :
    Ends (draftPath path).toList dir (base ++ draftEnd) := by
  rw [toList_draftPath]
  exact h.append (by decide)

theorem exists_ends_draftPath (path : String) : ∃ dir base, Ends (draftPath path).toList dir (base ++ draftEnd) := by
  have hslash : '/' ∉ draftEnd := by decide
  by_cases hempty : path.toList = []
  · exact ⟨[], [], hslash, by simp [draftEnd], Or.inl ⟨by rw [toList_draftPath, hempty, List.nil_append], rfl⟩⟩
  by_cases hlast : path.toList.getLast? = some '/'
  · obtain ⟨front, hfront⟩ := List.getLast?_eq_some_iff.mp hlast
    exact ⟨parts front, [], hslash, by simp [draftEnd], Or.inr ⟨front, by simp [toList_draftPath, hfront], rfl⟩⟩
  · obtain ⟨dir, base, hends⟩ := exists_ends hempty hlast
    exact ⟨dir, base, ends_draftPath hends⟩

theorem isAbsolute_draftPath {path : String} (h : path.toList ≠ []) : IsAbsolute (draftPath path) ↔ IsAbsolute path := by
  obtain ⟨c, rest, hlist⟩ := List.exists_cons_of_ne_nil h
  simp [IsAbsolute, toList_draftPath, hlist]

theorem locate_draftPath {d : Disk} {path : String} {dir : List (List Char)} {base : List Char}
    (h : Ends path.toList dir base) :
    d.locate (draftPath path) = String.ofList (base ++ draftEnd) :: walk (d.start path) dir := by
  rw [locate_of_ends (ends_draftPath h) (not_isDots_append_draftEnd base),
    start_of_isAbsolute_iff (isAbsolute_draftPath h.ne_nil)]

theorem locate_ne_locate_draftPath {d : Disk} {path : String} (h : d.Holds path) :
    d.locate path ≠ d.locate (draftPath path) := by
  have hlast : path.toList.getLast? ≠ some '/' := fun hlast => by
    have hslash := h.noSlash
    rcases List.eq_nil_or_concat (parts path.toList) with hnil | ⟨front, last, hparts⟩
    · simp [aim_of_parts_nil hnil] at hslash
    · rw [List.concat_eq_append] at hparts
      by_cases hdots : IsDots last
      · simp [aim_of_dots hparts hdots] at hslash
      · simp [aim_of_name hparts hdots, hlast] at hslash
  obtain ⟨dir, base, hends⟩ := exists_ends h.opens.sound.notEmpty hlast
  have hname : ¬IsDots base := fun hdots => by
    have hnamed := h.named
    simp [aim_of_dots hends.parts_eq hdots] at hnamed
  rw [locate_of_ends hends hname, locate_draftPath hends]
  intro heq
  have hbase : base = base ++ draftEnd := by
    simpa only [String.toList_ofList] using congrArg String.toList (List.cons.inj heq).1
  simp [draftEnd] at hbase

/-! ### Placing a text -/

/-- The directory that is made before a draft is written. -/
def parentOf (path : String) : String := (parent? path).getD ""

/-- Nothing but missing directories on the way of `path` differs at `l`. -/
def SameOrNew (d d' : Disk) (path : String) (l : Location) : Prop :=
  d'.get? l = d.get? l ∨ (d.OnWay path l ∧ d.get? l = none ∧ d'.get? l = some .directory)

/-- A text has been placed: it is the file, and there is no draft. -/
structure Placed (d d' : Disk) (path text : String) (executable : Bool) : Prop where
  keeps : Keeps d d'
  file : d'.get? (d.locate path) = some (.file ⟨Text.encode text,
    if executable then executableMode else modeOf (d.get? (d.locate (draftPath path)))⟩)
  free : d.get? (d.locate path) ≠ some .directory
  draft : d'.get? (d.locate (draftPath path)) = none
  other : ∀ l, l ≠ d.locate path → l ≠ d.locate (draftPath path) → SameOrNew d d' path l
  holds : d'.Holds path
  holdsDraft : d'.Holds (draftPath path)
  parent : parentOf path = "" ∨ d'.IsDirectoryAt (parentOf path)

/-- A text could not be placed: at most its draft is gone. -/
structure Broken (d d' : Disk) (path : String) : Prop where
  keeps : Keeps d d'
  other : ∀ l, SameOrNew d d' path l ∨ (l = d.locate (draftPath path) ∧ d'.get? l = none)

theorem makeParent_run (path : String) (d : Disk) : ∃ r d',
    (makeDirs (parentOf path) : StateM Disk (Except Disk.Failure Unit)) d = (r, d') ∧ Grows (d.OnWay path) d d' ∧
      (r = .ok () → parentOf path = "" ∨ d'.IsDirectoryAt (parentOf path)) := by
  unfold parentOf
  cases hparent : parent? path with
  | none => exact ⟨.ok (), d, makeDirs_of_isDirectoryAt (Or.inl rfl), Grows.refl d, fun _ => Or.inl rfl⟩
  | some parent =>
    obtain ⟨r, d', hrun, hgrows, hok⟩ := makeDirs_run parent d
    exact ⟨r, d', hrun, hgrows.mono fun l hl => onWay_of_parent? hparent hl, hok⟩

theorem readyDraft_run {d : Disk} {draft : String} (hholds : d.Holds draft) {f : File}
    (hfile : d.get? (d.locate draft) = some (.file f)) (executable : Bool) :
    ∃ d', (if executable then Access.makeExecutable draft else pure (.ok ()) :
        StateM Disk (Except Disk.Failure Unit)) d = (.ok (), d') ∧
      Becomes d d' (d.locate draft) (some (.file { f with mode := if executable then executableMode else f.mode })) := by
  cases executable with
  | false =>
    refine ⟨d, rfl, rfl, fun l => ?_⟩
    by_cases hl : l = d.locate draft
    · simp [hl, hfile]
    · simp [hl]
  | true =>
    have hfind : d.find draft = .ok ⟨_, .file f, hfile⟩ :=
      find_eq_ok.mpr ⟨hholds.opens, rfl, by simp [hholds.noSlash]⟩
    obtain ⟨d', hset, hbecomes, -⟩ := setMode_of_find hfind executableMode
    refine ⟨d', ?_, hbecomes f rfl⟩
    simp only [↓reduceIte, Access.makeExecutable, change_run, hset]

/-- Moving a draft to its place, or removing it. -/
def moveDraft (path : String) : StateM Disk (Except Failure Unit) := do
  match ← Access.rename (draftPath path) path with
  | .error e =>
    let _ ← Access.remove (draftPath path)
    return .error (.io path e)
  | .ok _ => return .ok ()

theorem finish_of_ready {d d' : Disk} {path : String} {executable : Bool}
    (h : (if executable then Access.makeExecutable (draftPath path) else pure (.ok ()) :
        StateM Disk (Except Disk.Failure Unit)) d = (.ok (), d')) :
    (finish path executable : StateM Disk (Except Failure Unit)) d = moveDraft path d' := by
  unfold finish
  cases executable with
  | false =>
    cases h
    rfl
  | true =>
    simp only [↓reduceIte] at h ⊢
    rw [bind_run, h]
    rfl

theorem finish_run {d : Disk} {path : String} (hholds : d.Holds (draftPath path)) {f : File}
    (hfile : d.get? (d.locate (draftPath path)) = some (.file f)) (executable : Bool) :
    ∃ r d', (finish path executable : StateM Disk (Except Failure Unit)) d = (r, d') ∧
      ((r = .ok () ∧ d'.Holds path ∧ d.get? (d.locate path) ≠ some .directory ∧ ∃ mid,
          Becomes d mid (d.locate (draftPath path)) none ∧
          Becomes mid d' (d.locate path)
            (some (.file { f with mode := if executable then executableMode else f.mode }))) ∨
        ((∃ e, r = .error e) ∧ Becomes d d' (d.locate (draftPath path)) none)) := by
  obtain ⟨d₁, hready, hmarked⟩ := readyDraft_run hholds hfile executable
  have hkeeps : Keeps d d₁ := hmarked.keeps (by simp [hfile])
  have hthere := hmarked.get?_self
  rw [← hkeeps.locate] at hthere hmarked
  rw [finish_of_ready hready, moveDraft, bind_run]
  simp only [Access.rename, change_run]
  -- if the draft cannot take the place of the file it is removed
  cases hrename : d₁.rename (draftPath path) path with
  | ok d₂ =>
    obtain ⟨g, mid, hg, hpath, hfree, hgone, hmoved⟩ := rename_ok hrename
    obtain rfl : _ = g := Entry.file.inj (Option.some.inj (hthere.symm.trans hg))
    have hfree' : d.get? (d.locate path) ≠ some .directory := fun hdir =>
      hfree (hkeeps.locate path ▸ hkeeps.directory _ hdir)
    have hkeepsMid : Keeps d₁ mid := hgone.keeps (by simp [hg])
    have hfreeMid : mid.get? (d₁.locate path) ≠ some .directory := by
      rw [hgone.get?]
      split
      · simp
      · exact hfree
    refine ⟨.ok (), d₂, rfl,
      Or.inl ⟨rfl, hpath.keep (hkeepsMid.trans (hmoved.keeps hfreeMid)), hfree', mid, ?_, ?_⟩⟩
    · rw [← hkeeps.locate]
      exact hmarked.trans hgone
    · rw [← hkeeps.locate]
      exact hmoved
  | error e =>
    have hfind : d₁.find (draftPath path) = .ok ⟨_, .file _, hthere⟩ :=
      find_eq_ok.mpr ⟨(hholds.keep hkeeps).opens, rfl, by simp [hholds.noSlash]⟩
    obtain ⟨d₂, hremove, hgone⟩ := remove_of_find hfind rfl
    refine ⟨.error (.io path e), d₂, ?_, Or.inr ⟨⟨_, rfl⟩, ?_⟩⟩
    · simp only [bind_run, Access.remove, change_run, hremove, pure_run]
    · rw [← hkeeps.locate]
      exact hmarked.trans hgone

/-- A draft has been written. -/
structure Drafted (d d' : Disk) (path : String) (f : File) : Prop where
  keeps : Keeps d d'
  holds : d'.Holds (draftPath path)
  file : d'.get? (d.locate (draftPath path)) = some (.file f)
  other : ∀ l, l ≠ d.locate (draftPath path) → SameOrNew d d' path l
  parent : parentOf path = "" ∨ d'.IsDirectoryAt (parentOf path)

theorem drafted_of_write {d d₁ d₂ : Disk} {path : String} {bytes : ByteArray} (hgrows : Grows (d.OnWay path) d d₁)
    (hparent : parentOf path = "" ∨ d₁.IsDirectoryAt (parentOf path)) (hwrite : d₁.write (draftPath path) bytes = .ok d₂) :
    Drafted d d₂ path ⟨bytes, modeOf (d.get? (d.locate (draftPath path)))⟩ := by
  obtain ⟨hholds, hfree, hwritten⟩ := write_ok hwrite
  have hkeeps := hwritten.keeps hfree
  rw [hgrows.keeps.locate] at hwritten hfree
  have hsame : d₁.get? (d.locate (draftPath path)) = d.get? (d.locate (draftPath path)) := by
    rcases hgrows.get? (d.locate (draftPath path)) with h | ⟨-, -, hdir⟩
    · exact h
    · exact absurd hdir hfree
  refine ⟨hgrows.keeps.trans hkeeps, hholds.keep hkeeps, ?_, fun l hl => ?_, hparent.imp id fun h => h.keep hkeeps⟩
  · rw [hwritten.get?_self, hsame]
  · unfold SameOrNew
    rw [hwritten.get?_of_ne hl]
    exact hgrows.get? l

theorem Drafted.placed {d d₁ mid d₂ : Disk} {path text : String} {executable : Bool}
    (h : Drafted d d₁ path ⟨Text.encode text, modeOf (d.get? (d.locate (draftPath path)))⟩) (hholds : d₂.Holds path)
    (hfree : d₁.get? (d.locate path) ≠ some .directory) (hgone : Becomes d₁ mid (d.locate (draftPath path)) none)
    (hmoved : Becomes mid d₂ (d.locate path) (some (.file ⟨Text.encode text,
      if executable then executableMode else modeOf (d.get? (d.locate (draftPath path)))⟩))) :
    Placed d d₂ path text executable := by
  have hfreeMid : mid.get? (d.locate path) ≠ some .directory := by
    rw [hgone.get?]
    split
    · simp
    · exact hfree
  have hkeeps : Keeps d₁ d₂ := (hgone.keeps (by simp [h.file])).trans (hmoved.keeps hfreeMid)
  have hbeside : d.locate path ≠ d.locate (draftPath path) := by
    rw [← (h.keeps.trans hkeeps).locate, ← (h.keeps.trans hkeeps).locate]
    exact locate_ne_locate_draftPath hholds
  refine ⟨h.keeps.trans hkeeps, hmoved.get?_self, fun hdir => hfree (h.keeps.directory _ hdir), ?_, fun l hl hl' => ?_,
    hholds, h.holds.keep hkeeps, h.parent.imp id fun hp => hp.keep hkeeps⟩
  · rw [hmoved.get?_of_ne hbeside.symm, hgone.get?_self]
  · unfold SameOrNew
    rw [hmoved.get?_of_ne hl, hgone.get?_of_ne hl']
    exact h.other l hl'

theorem Drafted.broken {d d₁ d₂ : Disk} {path : String} {f : File} (h : Drafted d d₁ path f)
    (hgone : Becomes d₁ d₂ (d.locate (draftPath path)) none) : Broken d d₂ path := by
  refine ⟨h.keeps.trans (hgone.keeps (by simp [h.file])), fun l => ?_⟩
  by_cases hl : l = d.locate (draftPath path)
  · exact Or.inr ⟨hl, by rw [hl, hgone.get?_self]⟩
  · left
    unfold SameOrNew
    rw [hgone.get?_of_ne hl]
    exact h.other l hl

/-- Placing a text leaves it as the file, or the disk as it was but for its draft and directories. -/
theorem place_run (path text : String) (executable : Bool) (d : Disk) : ∃ r d',
    (place path text executable : StateM Disk (Except Failure Unit)) d = (r, d') ∧
      ((r = .ok () ∧ Placed d d' path text executable) ∨ ((∃ e, r = .error e) ∧ Broken d d' path)) := by
  obtain ⟨r, d₁, hparents, hgrows, hparent⟩ := makeParent_run path d
  have hrun : (makeDirs ((parent? path).getD "") : StateM Disk (Except Disk.Failure Unit)) d = (r, d₁) := hparents
  unfold place
  rw [bind_run, hrun]
  cases r with
  | error e => exact ⟨_, d₁, rfl, Or.inr ⟨⟨_, rfl⟩, hgrows.keeps, fun l => Or.inl (hgrows.get? l)⟩⟩
  | ok _ =>
    simp only [bind_run, Access.write, change_run]
    cases hwrite : d₁.write (draftPath path) (Text.encode text) with
    | error e => exact ⟨_, d₁, rfl, Or.inr ⟨⟨_, rfl⟩, hgrows.keeps, fun l => Or.inl (hgrows.get? l)⟩⟩
    | ok d₂ =>
      have hdrafted := drafted_of_write hgrows (hparent rfl) hwrite
      have hfile := hdrafted.file
      rw [← hdrafted.keeps.locate] at hfile
      obtain ⟨r, d₃, hfinish, hcase⟩ := finish_run hdrafted.holds hfile executable
      refine ⟨r, d₃, hfinish, ?_⟩
      rw [hdrafted.keeps.locate, hdrafted.keeps.locate] at hcase
      rcases hcase with ⟨hok, hholds, hfree, mid, hgone, hmoved⟩ | ⟨herror, hgone⟩
      · exact Or.inl ⟨hok, hdrafted.placed hholds hfree hgone hmoved⟩
      · exact Or.inr ⟨herror, hdrafted.broken hgone⟩

/-- An empty disk on which texts are placed, some of them executable. -/
def diskOf (texts : List (String × String × Bool)) : Disk :=
  texts.foldl (fun d (path, text, executable) =>
    ((place path text executable : StateM Disk (Except Failure Unit)) d).2) Disk.empty

/-! ### One file -/

/-- The text that is written for a file. -/
def Target.text (t : Target) : String := uniform t.file.content

/-- The text that a file is compared by. -/
def textOf (f : File) : String := uniform (Text.decodeRepaired f.bytes)

/-- What can be read at a path: a file that stands there, or nothing. -/
def Present (d : Disk) (path : String) : Option File → Prop
  | some f => d.Holds path ∧ d.get? (d.locate path) = some (.file f)
  | none => d.find path = .error .notFound

/-- The file belongs to its editor: something is there. -/
def Kept (d : Disk) (t : Target) : Prop := t.file.skipIfExists = true ∧ ∃ r, d.find t.path = .ok r

theorem holds_of_find {d : Disk} {path : String} {r : Found d} (h : d.find path = .ok r) {f : File}
    (hfile : r.entry = .file f) : d.Holds path ∧ d.get? (d.locate path) = some (.file f) := by
  obtain ⟨hopens, hloc, hslash⟩ := find_eq_ok.mp h
  have hthere : d.get? (d.locate path) = some (.file f) := by rw [← hloc, r.here, hfile]
  refine ⟨⟨hopens, ?_, ?_⟩, hthere⟩
  · cases hname : (aim path).2.1 with
    | some name => rfl
    | none =>
      -- a path without a name at its end leads to a directory
      have hdir := hopens.passes.isDirectory hopens.started
      rw [locate_eq_aim, hname, Option.toList_none, List.nil_append, hdir] at hthere
      cases hthere
  · rw [← Bool.not_eq_true]
    intro htrue
    rw [hslash htrue] at hfile
    cases hfile

theorem present_of_entry {d : Disk} {path : String} {f : File} (h : (d.find path).toOption.map (·.entry) = some (.file f)) :
    Present d path (some f) := by
  obtain ⟨r, hr, hentry⟩ := Option.map_eq_some_iff.mp h
  exact holds_of_find (eq_ok_of_toOption hr) hentry

theorem find_of_holds {d : Disk} {path : String} (h : d.Holds path) {f : File}
    (hfile : d.get? (d.locate path) = some (.file f)) : d.find path = .ok ⟨_, .file f, hfile⟩ :=
  find_eq_ok.mpr ⟨h.opens, rfl, by simp [h.noSlash]⟩

theorem read_of_holds {d : Disk} {path : String} (h : d.Holds path) {f : File}
    (hfile : d.get? (d.locate path) = some (.file f)) : d.read path = .ok f.bytes := by
  rw [Disk.read, find_of_holds h hfile]
  rfl

theorem isThere_run (path : String) (d : Disk) :
    ∃ b, (Disk.isThere path : StateM Disk Bool) d = (b, d) ∧ (b = true ↔ ∃ r, d.find path = .ok r) := by
  unfold Disk.isThere
  rw [bind_run]
  cases hfind : d.find path with
  | error e =>
    rw [kind?_of_error hfind]
    exact ⟨false, rfl, nofun, fun ⟨r, hr⟩ => nomatch hr⟩
  | ok r =>
    rw [kind?_of_ok hfind]
    exact ⟨true, rfl, fun _ => ⟨r, rfl⟩, fun _ => rfl⟩

theorem isKept_run (t : Target) (d : Disk) :
    ∃ b, (isKept t : StateM Disk Bool) d = (b, d) ∧ (b = true ↔ Kept d t) := by
  unfold isKept Kept
  cases t.file.skipIfExists with
  | false => exact ⟨false, rfl, by simp⟩
  | true =>
    obtain ⟨b, hrun, hb⟩ := isThere_run t.path d
    exact ⟨b, hrun, by simpa using hb⟩

theorem existingText_of_ok {path : String} {d : Disk} {bytes : ByteArray} (h : d.read path = .ok bytes) :
    (existingText path : StateM Disk _) d = (.ok (some (uniform (Text.decodeRepaired bytes))), d) := by
  unfold existingText
  rw [bind_run]
  simp only [Access.read, ask, h]
  rfl

theorem existingText_of_notFound {path : String} {d : Disk} (h : d.read path = .error .notFound) :
    (existingText path : StateM Disk _) d = (.ok none, d) := by
  unfold existingText
  rw [bind_run]
  simp only [Access.read, ask, h]
  rfl

theorem existingText_of_error {path : String} {d : Disk} {e : Disk.Failure} (h : d.read path = .error e)
    (hne : e ≠ .notFound) : (existingText path : StateM Disk _) d = (.error (.io path e), d) := by
  unfold existingText
  rw [bind_run]
  simp only [Access.read, ask, h]
  rfl

theorem existingText_run (path : String) (d : Disk) : ∃ r, (existingText path : StateM Disk _) d = (r, d) ∧
    ((∃ o, Present d path o ∧ r = .ok (o.map textOf)) ∨ ((∃ e, r = .error e) ∧ ∀ o, ¬Present d path o)) := by
  -- what is found is not a file that could be present, or there is none
  have absent : (∀ f r, d.find path = .ok r → r.entry ≠ .file f) → d.find path ≠ .error .notFound →
      ∀ o, ¬Present d path o := fun hnofile hfound o hpresent => by
    cases o with
    | none => exact hfound hpresent
    | some f => exact hnofile f _ (find_of_holds hpresent.1 hpresent.2) rfl
  cases hfind : d.find path with
  | error e =>
    have hread : d.read path = .error e := read_of_error hfind
    by_cases hmissing : e = .notFound
    · subst hmissing
      exact ⟨_, existingText_of_notFound hread, Or.inl ⟨none, hfind, rfl⟩⟩
    · exact ⟨_, existingText_of_error hread hmissing,
        Or.inr ⟨⟨_, rfl⟩, absent (by simp [hfind]) (by simp [hfind, hmissing])⟩⟩
  | ok r =>
    obtain ⟨loc, e, here⟩ := r
    cases e with
    | file f =>
      exact ⟨_, existingText_of_ok (read_of_file hfind rfl), Or.inl ⟨some f, holds_of_find hfind rfl, rfl⟩⟩
    | directory =>
      refine ⟨_, existingText_of_error (read_of_directory hfind rfl) (by simp), Or.inr ⟨⟨_, rfl⟩, absent (fun f r hr => ?_) (by simp [hfind])⟩⟩
      rw [hfind] at hr
      cases hr
      simp

/-- The digest of what is there is that of the text. -/
def Matches (t : Target) (o : Option File) : Prop := o.map (fun f => Sha256.ofText (textOf f)) = some (Sha256.ofText t.text)

/-- The warnings before a file is replaced. -/
def warningsFor (t : Target) (o : Option File) (ledger : Ledger) : List String :=
  if wasModified (o.map fun f => Sha256.ofText (textOf f)) (ledger.digest? t.rel) then [lostChanges t.path] else []

/-- What a step on one file does to the disk, and its answer. -/
inductive StepCase (t : Target) (dryRun : Bool) (ledger : Ledger) (d : Disk) :
    Disk → Logged (Outcome × Ledger) → Prop where
  | kept (hkept : Kept d t) : StepCase t dryRun ledger d d ⟨[], .ok (.skipped, ledger)⟩
  | unread {e : Failure} (hkept : ¬Kept d t) (hread : ∀ o, ¬Present d t.path o) :
      StepCase t dryRun ledger d d ⟨[], .error e⟩
  | matched {f : File} {d' : Disk} (hkept : ¬Kept d t) (hpresent : Present d t.path (some f))
      (hsame : Matches t (some f)) (hmarked : Becomes d d' (d.locate t.path) (some (.file { f with
        mode := if t.file.executable && !dryRun then executableMode else f.mode })))
      (hdry : dryRun = true → d' = d) :
      StepCase t dryRun ledger d d' ⟨[], .ok (.unchanged, ledger.record t.rel (Sha256.ofText t.text))⟩
  | pending {o : Option File} (hkept : ¬Kept d t) (hpresent : Present d t.path o) (hdiffers : ¬Matches t o)
      (hdry : dryRun = true) : StepCase t dryRun ledger d d ⟨warningsFor t o ledger, .ok (.wouldWrite, ledger)⟩
  | placed {o : Option File} {d' : Disk} (hkept : ¬Kept d t) (hpresent : Present d t.path o)
      (hdiffers : ¬Matches t o) (hreal : dryRun = false) (hplaced : Placed d d' t.path t.text t.file.executable) :
      StepCase t dryRun ledger d d'
        ⟨warningsFor t o ledger, .ok (.written, ledger.record t.rel (Sha256.ofText t.text))⟩
  | broken {o : Option File} {d' : Disk} {e : Failure} (hkept : ¬Kept d t) (hpresent : Present d t.path o)
      (hdiffers : ¬Matches t o) (hreal : dryRun = false)
      (hplace : (place t.path t.text t.file.executable : StateM Disk _) d = (.error e, d')) (hbroken : Broken d d' t.path) :
      StepCase t dryRun ledger d d' ⟨warningsFor t o ledger, .error e⟩

theorem markExecutable_run {d : Disk} {path : String} {f : File} (h : Present d path (some f)) (executable : Bool) :
    ∃ d', (markExecutable path executable : StateM Disk (Except Failure Unit)) d = (.ok (), d') ∧
      Becomes d d' (d.locate path) (some (.file { f with mode := if executable then executableMode else f.mode })) ∧
      (executable = false → d' = d) := by
  obtain ⟨d', hready, hmarked⟩ := readyDraft_run h.1 h.2 executable
  cases executable with
  | false =>
    cases hready
    exact ⟨d, rfl, hmarked, fun _ => rfl⟩
  | true =>
    simp only [↓reduceIte] at hready
    refine ⟨d', ?_, hmarked, by simp⟩
    simp only [markExecutable, ↓reduceIte, bind_run, hready, pure_run]

theorem writeTarget_run {t : Target} {d : Disk} (hkept : ¬Kept d t) (dryRun : Bool) (ledger : Ledger) :
    ∃ log d', (writeTarget t dryRun ledger : StateM Disk _) d = (log, d') ∧ StepCase t dryRun ledger d d' log := by
  obtain ⟨r, hrun, hcase⟩ := existingText_run t.path d
  unfold writeTarget
  simp only [bind_run, hrun]
  obtain ⟨o, hpresent, rfl⟩ | ⟨⟨e, rfl⟩, habsent⟩ := hcase
  · dsimp only
    rw [Option.map_map]
    by_cases hsame : o.map (Sha256.ofText ∘ textOf) = some (Sha256.ofText (uniform t.file.content))
    · obtain ⟨f, rfl, -⟩ := Option.map_eq_some_iff.mp hsame
      obtain ⟨d', hmark, hbecomes, hnone⟩ := markExecutable_run hpresent (t.file.executable && !dryRun)
      simp only [hsame, ↓reduceIte, bind_run, hmark, pure_run]
      exact ⟨_, d', rfl, .matched hkept hpresent hsame hbecomes fun hdry => hnone (by simp [hdry])⟩
    · simp only [hsame, ↓reduceIte]
      cases dryRun with
      | true => exact ⟨_, d, rfl, .pending hkept hpresent hsame rfl⟩
      | false =>
        obtain ⟨r, d', hplace, hcase⟩ := place_run t.path (uniform t.file.content) t.file.executable d
        simp only [Bool.false_eq_true, ↓reduceIte, bind_run, hplace]
        obtain ⟨rfl, hplaced⟩ | ⟨⟨e, rfl⟩, hbroken⟩ := hcase
        · exact ⟨_, d', rfl, .placed hkept hpresent hsame rfl hplaced⟩
        · exact ⟨_, d', rfl, .broken hkept hpresent hsame rfl hplace hbroken⟩
  · exact ⟨_, d, rfl, .unread hkept habsent⟩

theorem writeUnlessKept_run (t : Target) (dryRun : Bool) (ledger : Ledger) (d : Disk) :
    ∃ log d', (writeUnlessKept t dryRun ledger : StateM Disk _) d = (log, d') ∧ StepCase t dryRun ledger d d' log := by
  obtain ⟨b, hrun, hb⟩ := isKept_run t d
  unfold writeUnlessKept
  rw [bind_run, hrun]
  cases b with
  | true => exact ⟨_, d, rfl, .kept (hb.mp rfl)⟩
  | false => exact writeTarget_run (fun hkept => by simpa using hb.mpr hkept) dryRun ledger

end Scaffold.Output
