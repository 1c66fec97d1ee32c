import Scaffold.Proofs.Yaml.Compose
import Scaffold.Yaml.Decode

/-! Values are read off the nodes of data: texts, sequences, and mappings whose keys are all there once. What is written
    for data holds no aliases, so reading it depends on neither the document nor the aliases followed so far. -/

namespace Scaffold.Yaml
open Written Data

namespace Decode

/-- Reading comes to `a` in every document. -/
def Gives {α : Type} (x : Decode α) (a : α) : Prop := ∀ document k, x document k = .ok (a, k)

section
variable {α β σ : Type} {a : α} {b : β} {path : Path} {n : Node} {m : Mark}

theorem gives_pure (a : α) : Gives (pure a) a := fun _ _ => rfl

theorem Gives.bind {x : Decode α} {f : α → Decode β} (hx : Gives x a) (hf : Gives (f a) b) : Gives (x >>= f) b := by
  intro document k
  show (x document k >>= fun r => f r.1 document r.2) = _
  rw [hx document k]
  exact hf document k

theorem Gives.placed {x : Decode α} (hx : Gives x a) : Gives (placed path m x) a := by
  intro document k
  show tryCatch (x document k) _ = _
  rw [hx document k]
  rfl

theorem Denotes.resolve {d : Data} (h : Denotes d n) : Gives (resolve n) n := by
  cases h <;> exact gives_pure _

theorem gives_scalar (s : Scalar) (m : Mark) (expected : String) : Gives (textAs expected path (.scalar s m)) s.text :=
  (gives_pure (Node.scalar s m)).bind (gives_pure s.text)

theorem gives_textAs {s : String} (h : Denotes (.text s) n) (expected : String) : Gives (textAs expected path n) s := by
  cases h
  exact gives_scalar _ _ _

/-- A plain text is not one of the words for nothing. -/
theorem isNull_of_looksTyped {s : String} (h : looksTyped s = false) : s ≠ "" ∧ Plain.isNull s.toList = false := by
  cases hnothing : s.toList.isEmpty || Plain.isNull s.toList with
  | true =>
    rw [looksTyped, Plain.meaning, hnothing] at h
    cases h
  | false =>
    rw [Bool.or_eq_false_iff] at hnothing
    refine ⟨?_, hnothing.2⟩
    rintro rfl
    cases hnothing.1

theorem gives_optional_text {s : String} (h : Denotes (.text s) n) : Gives (optional text path n) (some s) := by
  refine (Denotes.resolve h).bind ?_
  cases h with
  | text _ m =>
    have hread : Gives (do return some (← text path (.scalar ⟨none, s, styleOf s⟩ m))) (some s) :=
      (gives_textAs (.text s m) "a string").bind (gives_pure _)
    have hstyled := isStyled_styleOf s
    by_cases hstyle : styleOf s = .plain
    · rw [hstyle] at hstyled
      cases hstyled with
      | plain htyped _ =>
        obtain ⟨hne, hnull⟩ := isNull_of_looksTyped htyped
        simp only [hstyle, if_true, hne, hnull, decide_false, Bool.or_false, Bool.false_eq_true, if_false] at hread ⊢
        exact hread
    · simp only [hstyle, if_false]
      exact hread

theorem gives_optional_record {d : Decoder α} {fields : List (String × Data)} (h : Denotes (.record fields) n)
    (hd : Gives (d path n) a) : Gives (optional d path n) (some a) := by
  refine (Denotes.resolve h).bind ?_
  cases h with
  | record _ m => exact hd.bind (gives_pure _)

theorem gives_intBetween {s : String} {k low high : Int} (h : Denotes (.word s) n) (hk : Plain.int? s.toList = some k)
    (hlow : low ≤ k) (hhigh : k ≤ high) (hwide : -(Nat.pow 2 63) ≤ k ∧ k < Nat.pow 2 63) (expected : String) :
    Gives (intBetween low high expected path n) k := by
  refine (Denotes.resolve h).bind ?_
  cases h with
  | word _ m =>
    have hwide : (-(Nat.pow 2 63) ≤ k && k < Nat.pow 2 63) = true := by simpa using hwide
    have hbounds : (low ≤ k && k ≤ high) = true := by simpa using ⟨hlow, hhigh⟩
    simp only [hk, Option.filter, decide_true, Bool.true_or, Bool.true_and, hwide, hbounds, if_true]
    exact gives_pure k

theorem gives_variant {s : String} {variants : List (String × α)} (h : Denotes (.word s) n)
    (hs : variants.lookup s = some a) : Gives (variant variants path n) a := by
  cases h with
  | word _ m =>
    simp only [variant, ownTag?, Option.map_none, hs]
    exact gives_pure a

theorem gives_items {f : α → Data} {d : Decoder α} : ∀ {as : List α} {nodes : List Node} {i : Nat},
    (∀ a ∈ as, ∀ path n, Denotes (f a) n → Gives (d path n) a) → ItemsDenote (as.map f) nodes →
      Gives (items d path i nodes) as
  | [], _, _, _, h => by
    cases h
    exact gives_pure []
  | a :: as, _, i, hd, h => by
    cases h with
    | cons h hrest =>
      obtain ⟨ha, has⟩ := List.forall_mem_cons.mp hd
      exact (ha _ _ h).bind ((gives_items has hrest).bind (gives_pure _))

theorem gives_list {f : α → Data} {d : Decoder α} {as : List α} (hd : ∀ a ∈ as, ∀ path n, Denotes (f a) n → Gives (d path n) a)
    (h : Denotes (.list (as.map f)) n) : Gives (list d path n) as := by
  refine (Denotes.resolve h).bind ?_
  cases h with
  | list h m => exact (gives_items hd h).placed

theorem gives_texts {texts : List String} (h : Denotes (Data.texts texts) n) : Gives (list text path n) texts :=
  gives_list (fun _ _ _ _ h => gives_textAs h _) h

/-! ### Mappings of texts to values -/

theorem gives_pairs {f : α → Data} {d : Decoder α} : ∀ {fields : List (String × α)} {nodes : List Node} {acc : Keyed α},
    (∀ e ∈ fields, ∀ path n, Denotes (f e.2) n → Gives (d path n) e.2) →
      FieldsDenote (fields.map fun e => (e.1, f e.2)) nodes →
        Gives (pairs text (fun name path n acc => do return acc.insert name (← d path n)) path nodes acc)
          (fields.foldl (fun acc e => acc.insert e.1 e.2) acc)
  | [], _, acc, _, h => by
    cases h
    exact gives_pure acc
  | e :: fields, _, acc, hd, h => by
    cases h with
    | @cons _ _ n _ _ m h hrest =>
      obtain ⟨he, hfields⟩ := List.forall_mem_cons.mp hd
      have hadd : Gives (do return acc.insert e.1 (← d (.key e.1 :: path) n)) (acc.insert e.1 e.2) :=
        (he _ _ h).bind (gives_pure _)
      exact (gives_scalar _ m _).bind (hadd.bind (gives_pairs hfields hrest))

/-- A map is read back as it is: its names are in order, so none of them comes twice. -/
theorem gives_mapOf {f : α → Data} {d : Decoder α} {values : Keyed α}
    (hd : ∀ e ∈ values.entries, ∀ path n, Denotes (f e.2) n → Gives (d path n) e.2)
    (h : Denotes (.record (values.entries.map fun e => (e.1, f e.2))) n) : Gives (mapOf d path n) values := by
  refine (Denotes.resolve h).bind ?_
  have hvalues : values.entries.foldl (fun acc e => acc.insert e.1 e.2) .empty = values := values.ofList_entries
  cases h with
  | record h m => exact (hvalues ▸ gives_pairs hd h).placed

/-! ### Mappings with fixed keys -/

/-- How a mapping with fixed keys takes the value of one more key. -/
def addField (field : String → Option (Path → Node → σ → Decode σ)) (name : String) (path : Path) (n : Node)
    (acc : List String × σ) : Decode (List String × σ) :=
  match field name with
  | none => if isBroken n then throw .notOneDocument else return acc
  | some set => do
    if acc.1.contains name then fail (.duplicateField name)
    return (name :: acc.1, ← set path n acc.2)

/-- The values of the fields, one after another, take what has been read from one state to another. -/
inductive Sets (field : String → Option (Path → Node → σ → Decode σ)) : List (String × Data) → σ → σ → Prop
  | nil (s : σ) : Sets field [] s s
  | cons {key : String} {d : Data} {fields : List (String × Data)} {set : Path → Node → σ → Decode σ} {s s' s'' : σ}
    (hfield : field key = some set) (hset : ∀ path n, Denotes d n → Gives (set path n s) s')
    (hrest : Sets field fields s' s'') : Sets field ((key, d) :: fields) s s''

/-- A key whose value is put into the state as it is read. -/
theorem Sets.read {field : String → Option (Path → Node → σ → Decode σ)} {key : String} {data : Data}
    {fields : List (String × Data)} {d : Decoder α} {put : σ → α → σ} {s s' : σ}
    (hfield : field key = some fun path n s => do return put s (← d path n))
    (hd : ∀ path n, Denotes data n → Gives (d path n) a) (hrest : Sets field fields (put s a) s') :
    Sets field ((key, data) :: fields) s s' :=
  .cons hfield (fun path n h => (hd path n h).bind (gives_pure _)) hrest

theorem Sets.append {field : String → Option (Path → Node → σ → Decode σ)} {fields fields' : List (String × Data)}
    {s s' s'' : σ} (h : Sets field fields s s') (h' : Sets field fields' s' s'') : Sets field (fields ++ fields') s s'' := by
  induction h with
  | nil => exact h'
  | cons hfield hset _ ih => exact .cons hfield hset (ih h')

theorem Sets.field? {field : String → Option (Path → Node → σ → Decode σ)} {key : String} {f : α → Data}
    {d : Decoder (Option α)} {put : σ → Option α → σ} (value : Option α) (s : σ)
    (hfield : field key = some fun path n s => do return put s (← d path n))
    (hd : ∀ a path n, Denotes (f a) n → Gives (d path n) (some a)) :
    Sets field (Data.field? key (value.map f)) s (value.elim s fun a => put s (some a)) := by
  cases value with
  | none => exact .nil s
  | some a => exact .read hfield (hd a) (.nil _)

/-- Keys that are left out in some cases change nothing then. -/
theorem Sets.unless {field : String → Option (Path → Node → σ → Decode σ)} {fields : List (String × Data)} {s s' : σ}
    (b : Bool) (h : Sets field fields s s') : Sets field (if b then [] else fields) s (if b then s else s') := by
  cases b with
  | false => exact h
  | true => exact .nil s

theorem Sets.pairs {field : String → Option (Path → Node → σ → Decode σ)} {fields : List (String × Data)} {s s' : σ}
    (h : Sets field fields s s') (expected : String) (path : Path) : ∀ {entries : List Node} {seen : List String},
      FieldsDenote fields entries → (fields.map Prod.fst).Nodup → (∀ f ∈ fields, f.1 ∉ seen) →
        ∃ seen', Gives (Decode.pairs (textAs expected) (addField field) path entries (seen, s)) (seen', s') := by
  induction h with
  | nil s =>
    intro entries seen hentries _ _
    cases hentries
    exact ⟨seen, gives_pure _⟩
  | @cons key d fields set s s' s'' hfield hset hrest ih =>
    intro entries seen hentries hnodup hseen
    cases hentries with
    | @cons _ _ n _ entries m hd hentries =>
      obtain ⟨hfirst, hnodup⟩ := List.nodup_cons.mp hnodup
      obtain ⟨hnew, hseen⟩ := List.forall_mem_cons.mp hseen
      have hadd : Gives (addField field key (.key key :: path) n (seen, s)) (key :: seen, s') := by
        simp only [addField, hfield]
        rw [if_neg (by simpa using hnew)]
        exact (hset _ n hd).bind (gives_pure _)
      have hfresh : ∀ f ∈ fields, f.1 ∉ key :: seen := by
        intro f hf hmem
        rcases List.mem_cons.mp hmem with heq | hmem
        · exact hfirst (List.mem_map.mpr ⟨f, hf, heq⟩)
        · exact hseen f hf hmem
      obtain ⟨seen', hlater⟩ := ih hentries hnodup hfresh
      exact ⟨seen', (gives_scalar _ m expected).bind (hadd.bind hlater)⟩

theorem gives_record {field : String → Option (Path → Node → σ → Decode σ)} {finish : σ → Except Problem α}
    {fields : List (String × Data)} {start s : σ} (hsets : Sets field fields start s) (hnodup : (fields.map Prod.fst).Nodup)
    (hfinish : finish s = .ok a) (h : Denotes (.record fields) n) (expected : String) :
    Gives (record expected field start finish path n) a := by
  refine (Denotes.resolve h).bind ?_
  cases h with
  | @record _ entries hentries m =>
    obtain ⟨seen, hpairs⟩ := hsets.pairs "field identifier" path hentries hnodup (by simp : ∀ f ∈ fields, f.1 ∉ ([] : List String))
    refine (hpairs.bind ?_).placed
    simp only [hfinish]
    exact gives_pure a

end

end Decode

/-! ### Documents -/

open Decode in
/-- A value that is read off every node of a record is read back from the document that is written for it. -/
theorem decodeText_document {α : Type} {d : Decoder α} {a : α} {fields : List (String × Data)} (hne : fields ≠ [])
    (h : FieldsReadBack fields) (hd : ∀ n, Denotes (.record fields) n → Gives (d [] n) a) :
    decodeText d (document fields) = .ok a := by
  obtain ⟨x, n, hx, hdocument⟩ := ofText_document hne h
  rw [decodeText, hdocument, Document.decode]
  have hread := hd x hx ⟨x, [], n, true⟩ 0
  show (Except.bind (d [] x ⟨x, [], n, true⟩ 0) _) = _
  rw [hread]
  rfl

end Scaffold.Yaml
