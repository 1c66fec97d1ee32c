import Scaffold.Proofs.Disk.Change

/-! Runs that are watched. A film keeps every disk that a run passes through, so that what is said of a film is said
    of every moment of the run, also of those that leave no trace at its end. A program on files runs on a film as it
    does on a disk (`Filmed`): this is put together from its operations, and at the same time what they spare. -/

namespace Scaffold.Disk

/-- A disk, and what it was before each change, the latest first. -/
structure Film where
  disk : Disk
  past : List Disk

namespace Film

/-- The disk at all moments so far. -/
def moments (f : Film) : List Disk := f.disk :: f.past

/-- Asks the disk of a film. -/
def ask {α : Type} (question : Disk → α) : StateM Film α := fun f => (question f.disk, f)

/-- Changes the disk of a film, unless that fails, and keeps what it was. -/
def change (step : Disk → Except Failure Disk) : StateM Film (Except Failure Unit) := fun f =>
  match step f.disk with
  | .ok d => (.ok (), ⟨d, f.moments⟩)
  | .error e => (.error e, f)

instance : Access (StateM Film) where
  kind? path := ask fun d => match d.find path with
    | .ok found => some (kindOf found.entry)
    | .error _ => none
  read path := ask fun d => d.read path
  write path bytes := change fun d => d.write path bytes
  makeDir path := change fun d => d.makeDir path
  rename source target := change fun d => d.rename source target
  remove path := change fun d => d.remove path
  makeExecutable path := change fun d => d.setMode path executableMode
  canonical path := ask fun d => d.canonical path

end Film

/-! ### Programs on a film -/

section Filmed
variable {P : Disk → Prop} {α β : Type}

/-- The program answers and changes the same on a film as on its disk, and `P` stays true of every moment. -/
def Filmed (P : Disk → Prop) (onDisk : StateM Disk α) (onFilm : StateM Film α) : Prop :=
  ∀ f : Film, (∀ m ∈ f.moments, P m) →
    (onFilm f).1 = (onDisk f.disk).1 ∧ (onFilm f).2.disk = (onDisk f.disk).2 ∧ ∀ m ∈ (onFilm f).2.moments, P m

theorem Filmed.bind {x : StateM Disk α} {x' : StateM Film α} {g : α → StateM Disk β} {g' : α → StateM Film β}
    (hx : Filmed P x x') (hg : ∀ a, Filmed P (g a) (g' a)) : Filmed P (x >>= g) (x' >>= g') := by
  intro f hf
  obtain ⟨hanswer, hdisk, hmoments⟩ := hx f hf
  have hnext := hg (x' f).1 (x' f).2 hmoments
  rw [hdisk] at hnext
  rw [bind_run, bind_run, ← hanswer]
  exact hnext

end Filmed

/-! ### What the operations spare -/

theorem remove_ok {d d' : Disk} {path : String} (h : d.remove path = .ok d') : Becomes d d' (d.locate path) none := by
  unfold remove at h
  cases hfind : d.find path with
  | error e =>
    rw [hfind] at h
    cases h
  | ok r =>
    obtain ⟨-, hloc, -⟩ := find_eq_ok.mp hfind
    obtain ⟨loc, e, here⟩ := r
    rw [hfind] at h
    dsimp only at hloc
    cases e with
    | directory => cases h
    | file f =>
      cases h
      exact hloc ▸ becomes_removeFile here

theorem setMode_ok {d d' : Disk} {path : String} {mode : Nat} (h : d.setMode path mode = .ok d') :
    d' = d ∨ ∃ f, Becomes d d' (d.locate path) (some (.file f)) := by
  cases hfind : d.find path with
  | error e =>
    unfold setMode at h
    rw [hfind] at h
    cases h
  | ok r =>
    obtain ⟨d'', hset, hfile, hdir⟩ := setMode_of_find hfind mode
    rw [h] at hset
    cases hset
    cases hentry : r.entry with
    | file f => exact Or.inr ⟨_, hfile f hentry⟩
    | directory => exact Or.inl (hdir hentry)

/-- The files of `m` at other locations than these are those of `d`. -/
structure Spared (d : Disk) (inside : Location → Prop) (m : Disk) : Prop where
  current : m.current = d.current
  file? : ∀ l, ¬inside l → m.file? l = d.file? l

section Spared
variable {d m m' : Disk} {inside : Location → Prop}

theorem Spared.refl (d : Disk) (inside : Location → Prop) : Spared d inside d := ⟨rfl, fun _ _ => rfl⟩

theorem Spared.becomes {l : Location} {e : Option Entry} (h : Spared d inside m) (hchange : Becomes m m' l e)
    (hl : inside l) : Spared d inside m' := by
  refine ⟨hchange.current.trans h.current, fun l' hl' => ?_⟩
  have hne : l' ≠ l := by
    rintro rfl
    exact hl' hl
  rw [file?_eq_of_get? (hchange.get?_of_ne hne), h.file? l' hl']

theorem Spared.makeDir {path : String} (h : Spared d inside m) (hmake : m.makeDir path = .ok m') :
    Spared d inside m' := by
  obtain ⟨-, hnone, hchange⟩ := makeDir_ok hmake
  refine ⟨hchange.current.trans h.current, fun l hl => ?_⟩
  rw [← h.file? l hl]
  -- the directory is new where nothing was, so no file is there before or after
  by_cases heq : l = m.locate path
  · subst heq
    simp [Disk.file?, hchange.get?_self, hnone]
  · exact file?_eq_of_get? (hchange.get?_of_ne heq)

theorem Spared.locate (h : Spared d inside m) (path : String) : m.locate path = d.locate path :=
  locate_of_current h.current path

variable {path target : String}

end Spared

end Scaffold.Disk
