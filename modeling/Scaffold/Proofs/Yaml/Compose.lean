import Scaffold.Proofs.Yaml.Document
import Scaffold.Yaml.Node

/-! The document that is composed of the tokens of data. A step of the grammar and of the composer is one event; what a
    node comes to is put into the open collection around it, and the grammar goes back to where it was. -/

namespace Scaffold.Yaml
open Written Data

/-! ### Nodes of data -/

mutual
/-- The node is what the data says, wherever it stands. -/
inductive Denotes : Data → Node → Prop
  | text (s : String) (m : Mark) : Denotes (.text s) (.scalar ⟨none, s, styleOf s⟩ m)
  | word (s : String) (m : Mark) : Denotes (.word s) (.scalar ⟨none, s, .plain⟩ m)
  | list {items : List Data} {nodes : List Node} (h : ItemsDenote items nodes) (m : Mark) :
    Denotes (.list items) (.sequence none nodes m)
  | record {fields : List (String × Data)} {entries : List Node} (h : FieldsDenote fields entries) (m : Mark) :
    Denotes (.record fields) (.mapping none entries m)

/-- The nodes are the items in order. -/
inductive ItemsDenote : List Data → List Node → Prop
  | nil : ItemsDenote [] []
  | cons {d : Data} {n : Node} {items : List Data} {nodes : List Node} (h : Denotes d n) (hrest : ItemsDenote items nodes) :
    ItemsDenote (d :: items) (n :: nodes)

/-- The nodes are the keys and the values in turn. -/
inductive FieldsDenote : List (String × Data) → List Node → Prop
  | nil : FieldsDenote [] []
  | cons {key : String} {d : Data} {n : Node} {fields : List (String × Data)} {entries : List Node} (m : Mark)
    (h : Denotes d n) (hrest : FieldsDenote fields entries) :
    FieldsDenote ((key, d) :: fields) (.scalar ⟨none, key, styleOf key⟩ m :: n :: entries)
end

/-! ### Steps -/

/-- With `n` events the grammar and the composer get from one state to the other. -/
def Builds (p : Parser) (c : Composer) (p' : Parser) (c' : Composer) (n : Nat) : Prop :=
  ∀ limit, composeFrom c (p.events (limit + n)) = composeFrom c' (p'.events limit)

/-- The composer after a node that is made of `n` events. -/
def Composer.put (c : Composer) (x : Node) (n : Nat) : Composer := { c with size := c.size + n }.deliver x

/-- The composer inside a collection that has got some nodes in `n` events. -/
def Composer.inside (c : Composer) (isMapping : Bool) (m : Mark) (nodes : List Node) (n : Nat) : Composer :=
  { c with frames := ⟨isMapping, none, c.size, none, m, nodes.reverse⟩ :: c.frames, size := c.size + 1 + n }

section
variable {p p' q : Parser} {c c' c'' : Composer} {n k : Nat} {e : Event} {m : Mark} {x : Node} {nodes : List Node}

theorem Builds.trans (h : Builds p c p' c' n) (h' : Builds p' c' q c'' k) : Builds p c q c'' (k + n) := by
  intro limit
  rw [← Nat.add_assoc, h, h']

theorem Builds.of_next (hnext : p.next = some (e, p')) (hevent : ∀ rest, composeFrom c (e :: rest) = composeFrom c' rest) :
    Builds p c p' c' 1 := by
  intro limit
  rw [Parser.events, hnext]
  exact hevent _

theorem Composer.put_inside {isMapping : Bool} (x : Node) :
    (c.inside isMapping m nodes n).put x k = c.inside isMapping m (nodes ++ [x]) (n + k) := by
  simp [put, inside, deliver, Nat.add_assoc]

theorem composeFrom_scalar (s : Scalar) (rest : List Event) :
    composeFrom c (⟨.scalar none s, m⟩ :: rest) = composeFrom (c.put (.scalar s m) 1) rest := rfl

theorem composeFrom_sequenceStart (rest : List Event) :
    composeFrom c (⟨.sequenceStart none none, m⟩ :: rest) = composeFrom (c.inside false m [] 0) rest := rfl

theorem composeFrom_mappingStart (rest : List Event) :
    composeFrom c (⟨.mappingStart none none, m⟩ :: rest) = composeFrom (c.inside true m [] 0) rest := rfl

theorem composeFrom_sequenceEnd {m' : Mark} (rest : List Event) :
    composeFrom (c.inside false m nodes n) (⟨.sequenceEnd, m'⟩ :: rest) =
      composeFrom (c.put (.sequence none nodes m) (n + 2)) rest := by
  have hnodes : Composer.close ⟨false, none, c.size, none, m, nodes.reverse⟩ = .sequence none nodes m := by
    simp [Composer.close]
  have hsize : c.size + 1 + n + 1 = c.size + (n + 2) := by omega
  rw [composeFrom]
  show composeFrom (Composer.deliver { c with size := c.size + 1 + n + 1 }
    (Composer.close ⟨false, none, c.size, none, m, nodes.reverse⟩)) rest = _
  rw [hnodes, hsize]
  rfl

theorem composeFrom_mappingEnd {m' : Mark} (rest : List Event) :
    composeFrom (c.inside true m nodes n) (⟨.mappingEnd, m'⟩ :: rest) =
      composeFrom (c.put (.mapping none nodes m) (n + 2)) rest := by
  have hnodes : Composer.close ⟨true, none, c.size, none, m, nodes.reverse⟩ = .mapping none nodes m := by
    simp [Composer.close]
  have hsize : c.size + 1 + n + 1 = c.size + (n + 2) := by omega
  rw [composeFrom]
  show composeFrom (Composer.deliver { c with size := c.size + 1 + n + 1 }
    (Composer.close ⟨true, none, c.size, none, m, nodes.reverse⟩)) rest = _
  rw [hnodes, hsize]
  rfl

end

/-! ### The grammar -/

namespace Parser

section
variable {rest : List Token} {st s : State} {pend : List State} {handles : List (String × String)} {block indentless : Bool}
  {m stop : Mark} {text : String} {style : Style}

theorem node_scalar : node ⟨⟨.scalar text style, m, stop⟩ :: rest, st, s :: pend, handles⟩ block indentless =
    some (⟨.scalar none ⟨none, text, style⟩, m⟩, ⟨rest, s, pend, handles⟩) := by
  cases indentless <;> rfl

theorem node_openSequence : node ⟨⟨.openSequence, m, stop⟩ :: rest, st, pend, handles⟩ block indentless =
    some (⟨.sequenceStart none none, m⟩, ⟨⟨.openSequence, m, stop⟩ :: rest, .flowEntry true, pend, handles⟩) := by
  cases indentless <;> rfl

theorem node_openMapping : node ⟨⟨.openMapping, m, stop⟩ :: rest, st, pend, handles⟩ block indentless =
    some (⟨.mappingStart none none, m⟩, ⟨⟨.openMapping, m, stop⟩ :: rest, .flowKey true, pend, handles⟩) := by
  cases indentless <;> rfl

theorem node_blockMapping : node ⟨⟨.blockMapping, m, stop⟩ :: rest, st, pend, handles⟩ true indentless =
    some (⟨.mappingStart none none, m⟩, ⟨⟨.blockMapping, m, stop⟩ :: rest, .blockKey true, pend, handles⟩) := by
  cases indentless <;> rfl

theorem node_blockEntry : node ⟨⟨.blockEntry, m, stop⟩ :: rest, st, pend, handles⟩ block true =
    some (⟨.sequenceStart none none, m⟩, ⟨⟨.blockEntry, m, stop⟩ :: rest, .indentlessEntry, pend, handles⟩) := rfl

theorem indentlessEntry_of_ne {t : Token} (h : t.kind ≠ .blockEntry) :
    indentlessEntry ⟨t :: rest, st, s :: pend, handles⟩ = some (⟨.sequenceEnd, t.start⟩, ⟨t :: rest, s, pend, handles⟩) := by
  unfold indentlessEntry
  split
  · next heq =>
    obtain ⟨rfl, -⟩ := List.cons.inj heq
    exact absurd rfl h
  · next heq =>
    obtain ⟨rfl, -⟩ := List.cons.inj heq
    rfl
  · next heq => cases heq

theorem nodeOrEmpty_of_not_isOneOf {t : Token} {stops : List TokenKind} {mark : Token → Mark} {after : State}
    (h : isOneOf stops t = false) : nodeOrEmpty ⟨t :: rest, st, pend, handles⟩ stops block indentless mark after =
      node ⟨t :: rest, st, after :: pend, handles⟩ block indentless := by
  simp only [nodeOrEmpty, h]
  rfl

theorem indentlessEntry_item {t : Token} (h : isOneOf [.blockEntry, .key, .value, .blockEnd] t = false) :
    indentlessEntry ⟨⟨.blockEntry, m, stop⟩ :: t :: rest, st, pend, handles⟩ =
      node ⟨t :: rest, st, .indentlessEntry :: pend, handles⟩ true false := by
  show nodeOrEmpty ⟨t :: rest, st, pend, handles⟩ [.blockEntry, .key, .value, .blockEnd] true false (fun _ => stop)
    .indentlessEntry = _
  rw [nodeOrEmpty_of_not_isOneOf h]

theorem blockValue_value {t : Token} (h : isOneOf [.key, .value, .blockEnd] t = false) :
    blockValue ⟨⟨.value, m, stop⟩ :: t :: rest, st, pend, handles⟩ =
      node ⟨t :: rest, st, .blockKey false :: pend, handles⟩ true true := by
  show nodeOrEmpty ⟨t :: rest, st, pend, handles⟩ [.key, .value, .blockEnd] true true (fun _ => stop) (.blockKey false) = _
  rw [nodeOrEmpty_of_not_isOneOf h]

theorem blockKey_end : blockKey ⟨⟨.blockEnd, m, stop⟩ :: rest, st, s :: pend, handles⟩ =
    some (⟨.mappingEnd, m⟩, ⟨rest, s, pend, handles⟩) := rfl

end

end Parser

/-! ### From tokens to nodes -/

/-- The tokens `front` are built to a node of the data wherever the grammar expects a node, and in no more than two events
    a token. -/
def BuildsNode (d : Data) (front rest : List Token) (indentless : Bool) : Prop :=
  ∃ x n, Denotes d x ∧ n ≤ 2 * front.length ∧
    ∀ (p : Parser) (c : Composer) (st s : State) (pend : List State) (handles : List (String × String)),
      p.next = Parser.node ⟨front ++ rest, st, s :: pend, handles⟩ true indentless →
        Builds p c ⟨rest, s, pend, handles⟩ (c.put x n) n

/-- The tokens `front` are built to the last items of a sequence, up to its end in front of `rest`. -/
def BuildsItems (items : List Data) (front rest : List Token) : Prop :=
  ∃ nodes n, ItemsDenote items nodes ∧ n + 2 * items.length ≤ 2 * front.length ∧
    ∀ (p : Parser) (c : Composer) (m : Mark) (done : List Node) (k : Nat) (st s : State) (pend : List State)
      (handles : List (String × String)), p.next = Parser.indentlessEntry ⟨front ++ rest, st, s :: pend, handles⟩ →
        Builds p (c.inside false m done k) ⟨rest, s, pend, handles⟩ (c.put (.sequence none (done ++ nodes) m) (k + n + 2)) (n + 1)

/-- The tokens `front` are built to the last fields of a mapping, through its end. -/
def BuildsFields (fields : List (String × Data)) (front rest : List Token) : Prop :=
  ∃ entries n, FieldsDenote fields entries ∧ n ≤ 2 * front.length ∧
    ∀ (p : Parser) (c : Composer) (m : Mark) (done : List Node) (k : Nat) (st s : State) (pend : List State)
      (handles : List (String × String)), p.next = Parser.blockKey ⟨front ++ rest, st, s :: pend, handles⟩ →
        Builds p (c.inside true m done k) ⟨rest, s, pend, handles⟩ (c.put (.mapping none (done ++ entries) m) (k + n + 2)) (n + 1)

section
variable {front later rest : List Token} {t t' t'' : Token} {d : Data} {items : List Data} {fields : List (String × Data)}
  {indentless : Bool}

theorem buildsNode_scalar {text : String} {style : Style} (ht : t.kind = .scalar text style)
    (hd : ∀ m, Denotes d (.scalar ⟨none, text, style⟩ m)) : BuildsNode d [t] rest indentless := by
  obtain ⟨_, m, stop⟩ := t
  subst ht
  refine ⟨_, 1, hd m, by simp, ?_⟩
  intro p c st s pend handles hnext
  exact .of_next (hnext.trans Parser.node_scalar) (composeFrom_scalar _)

theorem buildsNode_brackets (ht : t.kind = .openSequence) (ht' : t'.kind = .closeSequence) :
    BuildsNode (.list []) [t, t'] rest indentless := by
  obtain ⟨_, m, stop⟩ := t
  obtain ⟨_, m', stop'⟩ := t'
  subst ht ht'
  refine ⟨_, 2, .list .nil m, by simp, ?_⟩
  intro p c st s pend handles hnext
  have hopen := Builds.of_next (c := c) (hnext.trans Parser.node_openSequence) composeFrom_sequenceStart
  have hclose : Parser.next ⟨⟨.openSequence, m, stop⟩ :: ⟨.closeSequence, m', stop'⟩ :: rest, .flowEntry true, s :: pend, handles⟩ =
      some (⟨.sequenceEnd, m'⟩, ⟨rest, s, pend, handles⟩) := rfl
  exact hopen.trans (.of_next hclose composeFrom_sequenceEnd)

theorem buildsNode_braces (ht : t.kind = .openMapping) (ht' : t'.kind = .closeMapping) :
    BuildsNode (.record []) [t, t'] rest indentless := by
  obtain ⟨_, m, stop⟩ := t
  obtain ⟨_, m', stop'⟩ := t'
  subst ht ht'
  refine ⟨_, 2, .record .nil m, by simp, ?_⟩
  intro p c st s pend handles hnext
  have hopen := Builds.of_next (c := c) (hnext.trans Parser.node_openMapping) composeFrom_mappingStart
  have hclose : Parser.next ⟨⟨.openMapping, m, stop⟩ :: ⟨.closeMapping, m', stop'⟩ :: rest, .flowKey true, s :: pend, handles⟩ =
      some (⟨.mappingEnd, m'⟩, ⟨rest, s, pend, handles⟩) := rfl
  exact hopen.trans (.of_next hclose composeFrom_mappingEnd)

theorem buildsNode_items (hitems : items ≠ []) (ht : t.kind = .blockEntry) (h : BuildsItems items (t :: front) rest) :
    BuildsNode (.list items) (t :: front) rest true := by
  obtain ⟨_, m, stop⟩ := t
  subst ht
  obtain ⟨nodes, n, hnodes, hbound, hbuild⟩ := h
  have hlength := List.length_pos_iff.mpr hitems
  refine ⟨_, n + 2, .list hnodes m, by omega, ?_⟩
  intro p c st s pend handles hnext
  have hopen := Builds.of_next (c := c) (hnext.trans Parser.node_blockEntry) composeFrom_sequenceStart
  have hrest := hbuild ⟨⟨.blockEntry, m, stop⟩ :: (front ++ rest), .indentlessEntry, s :: pend, handles⟩ c m [] 0 .indentlessEntry
    s pend handles rfl
  rw [Nat.zero_add] at hrest
  exact hopen.trans hrest

theorem buildsNode_fields (ht : t.kind = .blockMapping) (h : BuildsFields fields front rest) :
    BuildsNode (.record fields) (t :: front) rest indentless := by
  obtain ⟨_, m, stop⟩ := t
  subst ht
  obtain ⟨entries, n, hentries, hbound, hbuild⟩ := h
  refine ⟨_, n + 2, .record hentries m, by rw [List.length_cons]; omega, ?_⟩
  intro p c st s pend handles hnext
  have hopen := Builds.of_next (c := c) (hnext.trans Parser.node_blockMapping) composeFrom_mappingStart
  have hrest := hbuild ⟨⟨.blockMapping, m, stop⟩ :: (front ++ rest), .blockKey true, s :: pend, handles⟩ c m [] 0 (.blockKey true)
    s pend handles rfl
  rw [Nat.zero_add] at hrest
  exact hopen.trans hrest

theorem buildsItems_nil (ht : t.kind ≠ .blockEntry) : BuildsItems [] [] (t :: rest) := by
  refine ⟨[], 0, .nil, Nat.le_refl _, ?_⟩
  intro p c m done k st s pend handles hnext
  rw [List.append_nil]
  exact .of_next (hnext.trans (Parser.indentlessEntry_of_ne ht)) composeFrom_sequenceEnd

theorem buildsItems_cons (ht : t.kind = .blockEntry)
    (hnode : BuildsNode d (t' :: front) (later ++ rest) false)
    (ht' : Parser.isOneOf [.blockEntry, .key, .value, .blockEnd] t' = false) (h : BuildsItems items later rest) :
    BuildsItems (d :: items) (t :: t' :: front ++ later) rest := by
  obtain ⟨_, m, stop⟩ := t
  subst ht
  obtain ⟨x, n, hx, hn, hbuild⟩ := hnode
  obtain ⟨nodes, n', hnodes, hn', hlater⟩ := h
  refine ⟨x :: nodes, n + n', .cons hx hnodes, by simp only [List.length_cons, List.length_append] at *; omega, ?_⟩
  intro p c m' done k st s pend handles hnext
  have hentry : p.next = Parser.node ⟨t' :: front ++ (later ++ rest), st, .indentlessEntry :: s :: pend, handles⟩ true false := by
    rw [hnext, List.append_assoc]
    exact Parser.indentlessEntry_item ht'
  have hitem := hbuild p (c.inside false m' done k) st .indentlessEntry (s :: pend) handles hentry
  have hrest := hlater ⟨later ++ rest, .indentlessEntry, s :: pend, handles⟩ c m' (done ++ [x]) (k + n) .indentlessEntry s pend
    handles rfl
  rw [Composer.put_inside] at hitem
  have hall := hitem.trans hrest
  have hsize : k + n + n' + 2 = k + (n + n') + 2 := by omega
  have hcount : n' + 1 + n = n + n' + 1 := by omega
  rw [List.append_assoc, List.singleton_append, hsize, hcount] at hall
  exact hall

theorem buildsFields_nil (ht : t.kind = .blockEnd) : BuildsFields [] [t] rest := by
  obtain ⟨_, m, stop⟩ := t
  subst ht
  refine ⟨[], 0, .nil, Nat.zero_le _, ?_⟩
  intro p c m done k st s pend handles hnext
  rw [List.append_nil]
  exact .of_next (hnext.trans Parser.blockKey_end) composeFrom_mappingEnd

/-- One more field: its key, and its value behind the colon. -/
theorem buildsFields_cons {key : String} {start stop start' stop' start'' stop'' : Mark}
    (hnode : BuildsNode d (t :: front) (later ++ rest) true)
    (ht : Parser.isOneOf [.key, .value, .blockEnd] t = false) (h : BuildsFields fields later rest) :
    BuildsFields ((key, d) :: fields)
      (⟨.key, start, stop⟩ :: ⟨.scalar key (styleOf key), start', stop'⟩ :: ⟨.value, start'', stop''⟩ :: t :: front ++ later) rest := by
  obtain ⟨x, n, hx, hn, hbuild⟩ := hnode
  obtain ⟨entries, n', hentries, hn', hlater⟩ := h
  refine ⟨_ :: x :: entries, n + n' + 1, .cons start' hx hentries, by simp only [List.length_cons, List.length_append] at *; omega, ?_⟩
  intro p c m done k st s pend handles hnext
  have hkey : p.next = some (⟨.scalar none ⟨none, key, styleOf key⟩, start'⟩,
      ⟨⟨.value, start'', stop''⟩ :: t :: front ++ (later ++ rest), .blockValue, s :: pend, handles⟩) := by
    rw [hnext, List.append_assoc]
    rfl
  have hvalue : Parser.next ⟨⟨.value, start'', stop''⟩ :: t :: front ++ (later ++ rest), .blockValue, s :: pend, handles⟩ =
      Parser.node ⟨t :: front ++ (later ++ rest), .blockValue, .blockKey false :: s :: pend, handles⟩ true true :=
    Parser.blockValue_value ht
  have hstart := Builds.of_next (c := c.inside true m done k) hkey (composeFrom_scalar _)
  have hfield := hbuild _ (c.inside true m (done ++ [.scalar ⟨none, key, styleOf key⟩ start']) (k + 1)) .blockValue (.blockKey false)
    (s :: pend) handles hvalue
  have hrest := hlater ⟨later ++ rest, .blockKey false, s :: pend, handles⟩ c m
    (done ++ [.scalar ⟨none, key, styleOf key⟩ start'] ++ [x]) (k + 1 + n) (.blockKey false) s pend handles rfl
  rw [Composer.put_inside] at hstart hfield
  have hall := (hstart.trans hfield).trans hrest
  have hsize : k + 1 + n + n' + 2 = k + (n + n' + 1) + 2 := by omega
  have hcount : n' + 1 + (n + 1) = n + n' + 1 + 1 := by omega
  have hentries : done ++ [.scalar ⟨none, key, styleOf key⟩ start'] ++ [x] ++ entries =
      done ++ .scalar ⟨none, key, styleOf key⟩ start' :: x :: entries := by simp
  rw [hentries, hsize, hcount] at hall
  exact hall

/-- What the tokens of data begin with is neither the sign of an entry nor an end, but for a sequence. -/
theorem kinds_head (d : Data) : ∃ kind kinds', kinds d = kind :: kinds' ∧
    [TokenKind.key, .value, .blockEnd].contains kind = false ∧
      (IsItem d → [TokenKind.blockEntry, .key, .value, .blockEnd].contains kind = false) := by
  cases d with
  | text s => exact ⟨_, _, rfl, rfl, fun _ => rfl⟩
  | word s => exact ⟨_, _, rfl, rfl, fun _ => rfl⟩
  | list items =>
    cases items with
    | nil => exact ⟨_, _, rfl, rfl, fun _ => rfl⟩
    | cons item items => exact ⟨_, _, rfl, rfl, False.elim⟩
  | record fields =>
    cases fields with
    | nil => exact ⟨_, _, rfl, rfl, fun _ => rfl⟩
    | cons f fields => exact ⟨_, _, rfl, rfl, fun _ => rfl⟩

theorem head_of_fields (h : front.map Token.kind = fieldKinds fields ++ [.blockEnd]) :
    ∃ t later, front ++ rest = t :: later ∧ t.kind ≠ .blockEntry := by
  cases fields with
  | nil =>
    obtain ⟨t, rfl, ht⟩ := List.map_eq_singleton_iff.mp h
    exact ⟨t, rest, rfl, by rw [ht]; decide⟩
  | cons f fields =>
    rw [fieldKinds] at h
    obtain ⟨t, later, rfl, ht, -⟩ := List.map_eq_cons_iff.mp h
    exact ⟨t, later ++ rest, rfl, by rw [ht]; decide⟩

mutual
/-- The tokens of data are built to its node; behind a sequence no further entry may follow. -/
theorem buildsNode : ∀ {d : Data}, ReadsBack d → ∀ {front rest : List Token} {indentless : Bool},
    front.map Token.kind = kinds d →
      (IsItem d ∨ indentless = true ∧ ∃ t later, rest = t :: later ∧ t.kind ≠ .blockEntry) → BuildsNode d front rest indentless
  | .text s, _, front, rest, indentless, hfront, _ => by
    obtain ⟨t, rfl, ht⟩ := List.map_eq_singleton_iff.mp hfront
    exact buildsNode_scalar ht (.text s)
  | .word s, _, front, rest, indentless, hfront, _ => by
    obtain ⟨t, rfl, ht⟩ := List.map_eq_singleton_iff.mp hfront
    exact buildsNode_scalar ht (.word s)
  | .list [], _, front, rest, indentless, hfront, _ => by
    obtain ⟨t, front, rfl, ht, hback⟩ := List.map_eq_cons_iff.mp hfront
    obtain ⟨t', rfl, ht'⟩ := List.map_eq_singleton_iff.mp hback
    exact buildsNode_brackets ht ht'
  | .list (d :: items), h, front, rest, indentless, hfront, hrest => by
    rcases hrest with hitem | ⟨rfl, t', later, rfl, ht'⟩
    · exact nomatch hitem
    · have hitems := buildsItems h hfront later ht'
      obtain ⟨t, front, rfl, ht, -⟩ := List.map_eq_cons_iff.mp hfront
      exact buildsNode_items (List.cons_ne_nil _ _) ht hitems
  | .record [], _, front, rest, indentless, hfront, _ => by
    obtain ⟨t, front, rfl, ht, hback⟩ := List.map_eq_cons_iff.mp hfront
    obtain ⟨t', rfl, ht'⟩ := List.map_eq_singleton_iff.mp hback
    exact buildsNode_braces ht ht'
  | .record (f :: fields), h, front, rest, indentless, hfront, _ => by
    rw [ReadsBack] at h
    obtain ⟨t, front, rfl, ht, hback⟩ := List.map_eq_cons_iff.mp hfront
    exact buildsNode_fields ht (buildsFields h hback)

theorem buildsItems : ∀ {items : List Data}, ItemsReadBack items → ∀ {front : List Token}, front.map Token.kind = itemKinds items →
    ∀ {t : Token} (later : List Token), t.kind ≠ .blockEntry → BuildsItems items front (t :: later)
  | [], _, front, hfront, t, later, ht => by
    obtain rfl := List.map_eq_nil_iff.mp hfront
    exact buildsItems_nil ht
  | d :: items, h, front, hfront, t, later, ht => by
    rw [ItemsReadBack] at h
    rw [itemKinds, List.cons_append] at hfront
    obtain ⟨entry, tokens, rfl, hentry, htokens⟩ := List.map_eq_cons_iff.mp hfront
    obtain ⟨item, back, rfl, hitem, hback⟩ := List.map_eq_append_iff.mp htokens
    have hnode : BuildsNode d item (back ++ t :: later) false := buildsNode h.2.1 hitem (.inl h.1)
    obtain ⟨kind, kinds', hkinds, -, hhead⟩ := kinds_head d
    rw [hkinds] at hitem
    obtain ⟨t', item, rfl, rfl, -⟩ := List.map_eq_cons_iff.mp hitem
    exact buildsItems_cons hentry hnode (hhead h.1) (buildsItems h.2.2 hback later ht)

theorem buildsFields : ∀ {fields : List (String × Data)}, FieldsReadBack fields → ∀ {front rest : List Token},
    front.map Token.kind = fieldKinds fields ++ [.blockEnd] → BuildsFields fields front rest
  | [], _, front, rest, hfront => by
    obtain ⟨t, rfl, ht⟩ := List.map_eq_singleton_iff.mp hfront
    exact buildsFields_nil ht
  | (key, d) :: fields, h, front, rest, hfront => by
    rw [FieldsReadBack] at h
    rw [fieldKinds] at hfront
    simp only [List.append_assoc, List.cons_append, List.nil_append] at hfront
    obtain ⟨⟨_, start, stop⟩, tokens, rfl, rfl, hname⟩ := List.map_eq_cons_iff.mp hfront
    obtain ⟨⟨_, start', stop'⟩, tokens, rfl, rfl, hcolon⟩ := List.map_eq_cons_iff.mp hname
    obtain ⟨⟨_, start'', stop''⟩, tokens, rfl, rfl, htokens⟩ := List.map_eq_cons_iff.mp hcolon
    obtain ⟨value, back, rfl, hvalue, hback⟩ := List.map_eq_append_iff.mp htokens
    have hnode : BuildsNode d value (back ++ rest) true := buildsNode h.1 hvalue (.inr ⟨rfl, head_of_fields hback⟩)
    obtain ⟨kind, kinds', hkinds, hhead, -⟩ := kinds_head d
    rw [hkinds] at hvalue
    obtain ⟨t, value, rfl, rfl, -⟩ := List.map_eq_cons_iff.mp hvalue
    exact buildsFields_cons hnode hhead (buildsFields h.2 hback)
end

end

/-! ### Documents -/

theorem composeFrom_end (c : Composer) (start stop : Mark) (handles : List (String × String)) (limit : Nat) :
    composeFrom c (Parser.events ⟨[⟨.streamEnd, start, stop⟩], .documentEnd, [], handles⟩ (limit + 3)) =
      c.document false true := rfl

theorem ofText_document {fields : List (String × Data)} (hne : fields ≠ []) (h : FieldsReadBack fields) :
    ∃ x n, Denotes (.record fields) x ∧ Document.ofText (document fields) = ⟨x, [], n, true⟩ := by
  have hkinds := kinds_ofChars_document hne h
  have hallowed : (document fields).toList.all isAllowed = true :=
    List.all_eq_true.mpr fun c hc => isAllowed_of_isPrintable (isClean_document hne h c hc)
  rw [Document.ofText, if_pos hallowed, eventsOf]
  generalize (Tokens.ofChars (document fields).toList).tokens = tokens at hkinds
  have hsplit : tokens.map Token.kind = (.blockMapping :: (fieldKinds fields ++ [.blockEnd])) ++ [.streamEnd] := by
    simpa using hkinds
  obtain ⟨front, back, rfl, hfront, hback⟩ := List.map_eq_append_iff.mp hsplit
  obtain ⟨⟨_, start, stop⟩, rfl, rfl⟩ := List.map_eq_singleton_iff.mp hback
  obtain ⟨⟨_, start', stop'⟩, front, rfl, rfl, hfields⟩ := List.map_eq_cons_iff.mp hfront
  have hnode : BuildsNode (.record fields) (⟨.blockMapping, start', stop'⟩ :: front) [⟨.streamEnd, start, stop⟩] false :=
    buildsNode_fields rfl (buildsFields h hfields)
  obtain ⟨x, n, hx, hn, hbuild⟩ := hnode
  let node : Parser := ⟨⟨.blockMapping, start', stop'⟩ :: front ++ [⟨.streamEnd, start, stop⟩], .blockNode, [.documentEnd],
    Parser.standardHandles⟩
  have hstart : Builds ⟨⟨.blockMapping, start', stop'⟩ :: front ++ [⟨.streamEnd, start, stop⟩], .documentStart true, [],
      Parser.standardHandles⟩ ⟨[], none, [], [], 0⟩ node ⟨[], none, [], [], 0⟩ 1 :=
    .of_next (e := ⟨.documentStart, start'⟩) rfl fun _ => rfl
  have hall := hstart.trans (hbuild node ⟨[], none, [], [], 0⟩ .blockNode .documentEnd [] Parser.standardHandles rfl)
  refine ⟨x, n, hx, ?_⟩
  obtain ⟨limit, hlimit⟩ : ∃ limit, 8 * (⟨.blockMapping, start', stop'⟩ :: front ++ [⟨.streamEnd, start, stop⟩] : List Token).length + 16 =
      limit + 3 + (n + 1) := by
    refine ⟨8 * (⟨.blockMapping, start', stop'⟩ :: front ++ [⟨.streamEnd, start, stop⟩] : List Token).length + 12 - n, ?_⟩
    simp only [List.length_append, List.length_cons, List.length_nil] at hn ⊢
    omega
  rw [hlimit, hall, composeFrom_end]
  simp [Composer.put, Composer.deliver, Composer.document]

end Scaffold.Yaml
