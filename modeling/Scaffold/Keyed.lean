import Scaffold.Pairs

/-! Maps from names to values, kept in the order of the names. Inserting keeps the order, and what
    is found under a name is what was inserted last under it. -/

namespace Scaffold

/-- Values by name. The names are in order, so each of them stands once. -/
structure Keyed (α : Type) where
  entries : List (String × α)
  ordered : entries.Pairwise fun a b => a.1 < b.1
  deriving DecidableEq, Repr

namespace Keyed
variable {α : Type}

/-! ### Inserting an entry into a list -/

/-- Puts a value at the place of its name, over an earlier one. -/
def insertEntry (name : String) (v : α) : List (String × α) → List (String × α)
  | [] => [(name, v)]
  | (n, w) :: rest =>
    if name = n then (name, v) :: rest
    else if name < n then (name, v) :: (n, w) :: rest
    else (n, w) :: insertEntry name v rest

theorem mem_of_mem_insertEntry {name : String} {v : α} {e : String × α} :
    ∀ {es : List (String × α)}, e ∈ insertEntry name v es → e = (name, v) ∨ e ∈ es
  | [], h => by simpa [insertEntry] using h
  | (n, w) :: rest, h => by
    simp only [insertEntry] at h
    split at h
    · rcases List.mem_cons.mp h with h | h
      · exact Or.inl h
      · exact Or.inr (List.mem_cons_of_mem _ h)
    · split at h
      · exact (List.mem_cons.mp h).imp id id
      · rcases List.mem_cons.mp h with h | h
        · exact Or.inr (h ▸ List.mem_cons_self)
        · exact (mem_of_mem_insertEntry h).imp id (List.mem_cons_of_mem _)

theorem lt_of_ne_of_not_lt {a b : String} (hne : a ≠ b) (hlt : ¬a < b) : b < a :=
  String.not_le.mp fun hle => hne (String.le_antisymm hle (String.not_lt.mp hlt))

theorem ordered_insertEntry (name : String) (v : α) :
    ∀ {es : List (String × α)}, es.Pairwise (fun a b => a.1 < b.1) →
      (insertEntry name v es).Pairwise fun a b => a.1 < b.1
  | [], _ => by simp [insertEntry]
  | (n, w) :: rest, h => by
    obtain ⟨hfirst, hrest⟩ := List.pairwise_cons.mp h
    simp only [insertEntry]
    split
    · rename_i heq
      exact List.pairwise_cons.mpr ⟨fun e he => heq ▸ hfirst e he, hrest⟩
    · rename_i hne
      split
      · rename_i hlt
        refine List.pairwise_cons.mpr ⟨fun e he => ?_, h⟩
        rcases List.mem_cons.mp he with rfl | he
        · exact hlt
        · exact String.lt_trans hlt (hfirst e he)
      · rename_i hlt
        refine List.pairwise_cons.mpr ⟨fun e he => ?_, ordered_insertEntry name v hrest⟩
        rcases mem_of_mem_insertEntry he with rfl | he
        · exact lt_of_ne_of_not_lt hne hlt
        · exact hfirst e he

/-! ### Maps -/

def empty : Keyed α := ⟨[], .nil⟩

instance : Inhabited (Keyed α) := ⟨empty⟩

def insert (k : Keyed α) (name : String) (v : α) : Keyed α :=
  ⟨insertEntry name v k.entries, ordered_insertEntry name v k.ordered⟩

def single (name : String) (v : α) : Keyed α := empty.insert name v

/-- The values of a list, of which the last counts for its name. -/
def ofList (values : List (String × α)) : Keyed α :=
  values.foldl (fun k (name, v) => k.insert name v) empty

def get? (k : Keyed α) (name : String) : Option α := k.entries.lookup name

def isEmpty (k : Keyed α) : Bool := k.entries.isEmpty

theorem lookup_insertEntry (name other : String) (v : α) :
    ∀ es : List (String × α),
      (insertEntry name v es).lookup other = if other = name then some v else es.lookup other
  | [] => Pairs.lookup_cons name other v []
  | (n, w) :: rest => by
    have ih := lookup_insertEntry name other v rest
    simp only [insertEntry]
    split
    · rename_i heq
      subst heq
      simp only [Pairs.lookup_cons]
      split <;> rfl
    · rename_i hne
      split
      · exact Pairs.lookup_cons name other v _
      · simp only [Pairs.lookup_cons, ih]
        split
        · rename_i hother
          rw [if_neg (fun heq => hne (heq.symm.trans hother))]
        · rfl

/-- What is found under a name was inserted last under it. -/
theorem get?_insert (k : Keyed α) (name other : String) (v : α) :
    (k.insert name v).get? other = if other = name then some v else k.get? other :=
  lookup_insertEntry name other v k.entries

/-! ### Entries in order -/

theorem insertEntry_of_last {name : String} {v : α} : ∀ {es : List (String × α)}, (∀ e ∈ es, e.1 < name) →
    insertEntry name v es = es ++ [(name, v)]
  | [], _ => rfl
  | (n, w) :: rest, h => by
    obtain ⟨hfirst, hrest⟩ := List.forall_mem_cons.mp h
    have hne : name ≠ n := fun heq => String.lt_irrefl n (heq ▸ hfirst)
    rw [insertEntry, if_neg hne, if_neg (String.lt_asymm hfirst), insertEntry_of_last hrest, List.cons_append]

/-- Entries that come after all others one by one go to the end. -/
theorem foldl_insert : ∀ {rest : List (String × α)} {k : Keyed α},
    (k.entries ++ rest).Pairwise (fun a b => a.1 < b.1) →
      (rest.foldl (fun k (name, v) => k.insert name v) k).entries = k.entries ++ rest
  | [], k, _ => (List.append_nil k.entries).symm
  | (name, v) :: rest, k, h => by
    have hlast : ∀ e ∈ k.entries, e.1 < name := fun e he =>
      (List.pairwise_append.mp h).2.2 e he (name, v) (List.mem_cons_self ..)
    have hinsert : (k.insert name v).entries = k.entries ++ [(name, v)] := insertEntry_of_last hlast
    rw [List.foldl_cons, foldl_insert, hinsert, List.append_assoc, List.singleton_append]
    rwa [hinsert, List.append_assoc, List.singleton_append]

theorem ofList_entries (k : Keyed α) : ofList k.entries = k := by
  have hentries : (ofList k.entries).entries = k.entries := foldl_insert (k := empty) k.ordered
  cases hk : ofList k.entries with
  | mk entries ordered =>
    rw [hk] at hentries
    subst hentries
    rfl

end Keyed

end Scaffold
