import Scaffold.Pairs

/-! A disk: files and directories by location, and the current directory. Whatever stands somewhere
    stands in a directory, and every change keeps that. What stands at a location (`get?`) is the
    view of a disk: each change is described by what it does to it. -/

namespace Scaffold

structure File where
  bytes : ByteArray
  mode : Nat

instance : DecidableEq File := fun f g =>
  haveI := ByteArray.instDecidableEq f.bytes g.bytes
  decidable_of_decidable_of_iff (p := f.bytes = g.bytes ∧ f.mode = g.mode) (by cases f; cases g; simp only [File.mk.injEq])

inductive Entry where
  | file (f : File)
  | directory
  deriving DecidableEq

/-- The names from the innermost one out to the root. -/
abbrev Location := List String

namespace Disk

/-- What stands at a location among entries; the root directory is always there. -/
def entryAt (entries : List (Location × Entry)) : Location → Option Entry
  | [] => some .directory
  | name :: dir => entries.lookup (name :: dir)

/-- Whatever stands somewhere stands in a directory. -/
def Nested (entries : List (Location × Entry)) : Prop :=
  ∀ name dir, (entryAt entries (name :: dir)).isSome → entryAt entries dir = some .directory

end Disk

/-- Files and directories by location. -/
structure Disk where
  entries : List (Location × Entry)
  current : Location
  nested : Disk.Nested entries

namespace Disk

def get? (d : Disk) (loc : Location) : Option Entry := entryAt d.entries loc

/-- The location of a directory. -/
abbrev Directory (d : Disk) := { loc : Location // d.get? loc = some .directory }

@[simp] theorem get?_root (d : Disk) : d.get? [] = some .directory := rfl

theorem parent_isDirectory (d : Disk) {name : String} {dir : Location} {e : Entry}
    (h : d.get? (name :: dir) = some e) : d.get? dir = some .directory :=
  d.nested name dir (Option.isSome_iff_exists.mpr ⟨e, h⟩)

def root (d : Disk) : d.Directory := ⟨[], d.get?_root⟩

/-- The directory in which a directory stands; the root stands in itself. -/
def parent (d : Disk) : d.Directory → d.Directory
  | ⟨[], h⟩ => ⟨[], h⟩
  | ⟨_ :: dir, h⟩ => ⟨dir, d.parent_isDirectory h⟩

/-! ### The empty disk -/

def empty : Disk := ⟨[], [], fun _ _ h => by simp [entryAt] at h⟩

/-! ### Putting an entry -/

/-- Entries with one at `loc` instead of what stood there. -/
def entriesWith (entries : List (Location × Entry)) (loc : Location) (e : Entry) :
    List (Location × Entry) :=
  (loc, e) :: entries.filter (decide <| ·.1 ≠ loc)

theorem entryAt_entriesWith (entries : List (Location × Entry)) (name : String) (dir : Location)
    (e : Entry) (other : Location) :
    entryAt (entriesWith entries (name :: dir) e) other =
      if other = name :: dir then some e else entryAt entries other := by
  cases other with
  | nil => simp [entryAt]
  | cons n rest =>
    simp only [entryAt, entriesWith, Pairs.lookup_cons]
    split
    · rfl
    · rename_i h
      rw [Pairs.lookup_filter (fun loc => decide (loc ≠ name :: dir))]
      simp [h]

theorem nested_entriesWith {entries : List (Location × Entry)} (hn : Nested entries) {name : String}
    {dir : Location} (e : Entry) (hdir : entryAt entries dir = some .directory)
    (hfree : entryAt entries (name :: dir) ≠ some .directory) :
    Nested (entriesWith entries (name :: dir) e) := by
  intro n other h
  rw [entryAt_entriesWith] at h ⊢
  have hother : entryAt entries other = some .directory := by
    split at h
    · rename_i heq
      exact (List.cons.inj heq).2 ▸ hdir
    · exact hn n other h
  split
  · rename_i heq
    exact absurd (heq ▸ hother) hfree
  · exact hother

/-- The disk with an entry under a name in a directory. A file may be replaced, a directory not. -/
def put (d : Disk) (name : String) (dir : d.Directory) (e : Entry)
    (free : d.get? (name :: dir.1) ≠ some .directory) : Disk :=
  { d with
    entries := entriesWith d.entries (name :: dir.1) e
    nested := nested_entriesWith d.nested e dir.2 free }

theorem get?_put (d : Disk) (name : String) (dir : d.Directory) (e : Entry)
    (free : d.get? (name :: dir.1) ≠ some .directory) (loc : Location) :
    (d.put name dir e free).get? loc = if loc = name :: dir.1 then some e else d.get? loc :=
  entryAt_entriesWith d.entries name dir.1 e loc

/-! ### Removing entries -/

/-- Entries without those at some locations. -/
def entriesWithout (entries : List (Location × Entry)) (gone : Location → Bool) :
    List (Location × Entry) :=
  entries.filter (!gone ·.1)

theorem entryAt_entriesWithout (entries : List (Location × Entry)) (gone : Location → Bool)
    (loc : Location) :
    entryAt (entriesWithout entries gone) loc =
      if loc ≠ [] ∧ gone loc = true then none else entryAt entries loc := by
  cases loc with
  | nil => simp [entryAt]
  | cons n rest =>
    simp only [entryAt, entriesWithout]
    rw [Pairs.lookup_filter (fun loc => !gone loc)]
    cases gone (n :: rest) <;> simp

/-- Entries may be removed if nothing is left inside a directory that is. -/
theorem nested_entriesWithout {entries : List (Location × Entry)} (hn : Nested entries)
    {gone : Location → Bool}
    (hinside : ∀ name dir, gone dir = true → entryAt entries dir = some .directory →
      gone (name :: dir) = true) :
    Nested (entriesWithout entries gone) := by
  intro name dir h
  rw [entryAt_entriesWithout] at h ⊢
  split at h
  · simp at h
  · rename_i hkept
    have hdir := hn name dir h
    split
    · rename_i hgone
      exact absurd ⟨by simp, hinside name dir hgone.2 hdir⟩ hkept
    · exact hdir

def removeFile (d : Disk) (loc : Location) (f : File) (here : d.get? loc = some (.file f)) : Disk :=
  { d with
    entries := entriesWithout d.entries (decide <| · = loc)
    nested := nested_entriesWithout d.nested fun _ dir hgone hdir => by
      have heq : dir = loc := by simpa using hgone
      rw [heq] at hdir
      exact absurd (hdir.symm.trans here) (by simp) }

theorem get?_removeFile (d : Disk) (loc : Location) (f : File)
    (here : d.get? loc = some (.file f)) (other : Location) :
    (d.removeFile loc f here).get? other = if other = loc then none else d.get? other := by
  have hloc : loc ≠ [] := fun h => by
    rw [h, get?_root] at here
    simp at here
  refine (entryAt_entriesWithout d.entries (decide <| · = loc) other).trans ?_
  by_cases h : other = loc <;> simp [h, hloc, get?]

/-- The disk without a location and all that is inside it; the root directory stays. -/
def removeInside (d : Disk) (loc : Location) : Disk :=
  { d with
    entries := entriesWithout d.entries loc.isSuffixOf
    nested := nested_entriesWithout d.nested fun name dir hgone _ => by
      rw [List.isSuffixOf_iff_suffix] at hgone ⊢
      exact hgone.trans (List.suffix_cons name dir) }

theorem get?_removeInside (d : Disk) (loc other : Location) :
    (d.removeInside loc).get? other =
      if other ≠ [] ∧ loc <:+ other then none else d.get? other := by
  refine (entryAt_entriesWithout d.entries loc.isSuffixOf other).trans ?_
  simp only [List.isSuffixOf_iff_suffix, get?]

end Disk

end Scaffold
