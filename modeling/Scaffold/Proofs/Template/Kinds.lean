import Scaffold.Template.Render
import Scaffold.Pairs
import Scaffold.Proofs.Monad

/-! Kinds of values in templates. From what a template can see (`Sight`) every expression in it gets the kind of its
    value, and nothing but expressions with a kind is accepted (`Sight.allowsAll`). An accepted template renders in
    every context that has values of these kinds (`renderNodes_of_allowsAll`): no variable is missing, no function or
    filter is unknown or refuses its input, and every loop goes over a list.

    A context may be without a variable (`Sight.optional`). Only a branch that asks whether it is there can use it. -/

namespace Scaffold.Template

/-! ### Kinds -/

/-- What is known of a value. -/
inductive Kind where
  | text
  | truth
  /-- one of the texts that functions take as an argument -/
  | name
  | list (item : Kind)
  | record (fields : List (String × Kind))

/-- A value is of a kind. A record may have more fields than its kind says. -/
inductive Fits (names : List String) : Kind → Json → Prop
  | text (s : String) : Fits names .text (.str s)
  | truth (b : Bool) : Fits names .truth (.bool b)
  | name {s : String} (h : s ∈ names) : Fits names .name (.str s)
  | list {k : Kind} {items : List Json} (h : ∀ v ∈ items, Fits names k v) : Fits names (.list k) (.arr items)
  | record {kinds : List (String × Kind)} {fields : List (String × Json)} (value : String → Json)
      (hfields : ∀ x k, kinds.lookup x = some k → fields.lookup x = some (value x))
      (hfits : ∀ x k, kinds.lookup x = some k → Fits names k (value x)) : Fits names (.record kinds) (.obj fields)

/-- A kind of texts. -/
def Kind.isText : Kind → Bool
  | .text | .name => true
  | _ => false

/-- A kind of texts that functions take. -/
def Kind.isName : Kind → Bool
  | .name => true
  | _ => false

/-- The kind that keys lead to. -/
def Kind.at? : List String → Kind → Option Kind
  | [], k => some k
  | key :: keys, .record fields => (fields.lookup key).bind (at? keys)
  | _ :: _, _ => none

section Fits
variable {names : List String} {k k' : Kind} {v : Json}

theorem Fits.ne_null (h : Fits names k v) : v ≠ .null := by
  cases h <;> simp

theorem Fits.exists_text (h : Fits names k v) (hk : k.isText = true) : ∃ s, v = .str s := by
  cases h with
  | text s => exact ⟨s, rfl⟩
  | name h => exact ⟨_, rfl⟩
  | _ => cases hk

theorem Fits.exists_name (h : Fits names k v) (hk : k.isName = true) : ∃ s ∈ names, v = .str s := by
  cases h with
  | name h => exact ⟨_, h, rfl⟩
  | _ => cases hk

theorem Fits.follow : ∀ {keys : List String} {k : Kind} {v : Json}, Fits names k v → k.at? keys = some k' →
    ∃ w, follow keys v = some w ∧ Fits names k' w
  | [], _, _, h, hat => by
    cases hat
    exact ⟨_, rfl, h⟩
  | key :: keys, k, v, h, hat => by
    cases h with
    | record value hfields hfits =>
      obtain ⟨inner, hinner, hat⟩ := Option.bind_eq_some_iff.mp hat
      obtain ⟨w, hw, hwfits⟩ := (hfits key inner hinner).follow hat
      exact ⟨w, by rw [Template.follow, hfields key inner hinner, Option.bind_some, hw], hwfits⟩
    | _ => cases hat

end Fits

/-! ### Sights -/

/-- What a template can see. -/
structure Sight where
  /-- the variables of the loops around a place, innermost first -/
  loops : List (String × Kind)
  /-- the variables of the context -/
  bindings : List (String × Kind)
  /-- variables that the context may be without -/
  optional : List (String × Kind)
  /-- functions of the argument `phase`, with the kinds of their answers -/
  functions : List (String × Kind)
  /-- whether these functions also answer without an argument -/
  current : Bool
  /-- filters that make texts of texts -/
  filters : List String

/-- The loops around a place go over values of these kinds. -/
inductive LoopsFit (names : List String) : List (String × Kind) → Scopes → Prop
  | outside : LoopsFit names [] [⟨[], none⟩]
  | within {l : Loop} {k : Kind} {loops : List (String × Kind)} {scopes : Scopes} (hkey : l.key = none)
      (hname : l.name ≠ "loop") (hvalue : Fits names k l.value) (houter : LoopsFit names loops scopes) :
      LoopsFit names ((l.name, k) :: loops) (⟨[], some l⟩ :: scopes)

/-- A place in a context is as a sight says. -/
structure Sight.Holds (Γ : Sight) (names : List String) (scopes : Scopes) (ctx : Context) : Prop where
  loops : LoopsFit names Γ.loops scopes
  bindings : ∀ x k, Γ.bindings.lookup x = some k → ∃ v, ctx.bindings.lookup x = some v ∧ Fits names k v
  optional : ∀ x k v, Γ.optional.lookup x = some k → ctx.bindings.lookup x = some v → Fits names k v
  functions : ∀ f k, Γ.functions.lookup f = some k → ∃ answer, ctx.table.functions.lookup f = some answer ∧
    (∀ s ∈ names, ∃ v, answer [("phase", .str s)] = .ok v ∧ Fits names k v) ∧
    (Γ.current = true → ∃ v, answer [] = .ok v ∧ Fits names k v)
  filters : ∀ f ∈ Γ.filters, hasFilter ctx f = true ∧ ∀ s, ∃ t, applyFilter ctx f (.str s) [] = .ok (.str t)

namespace Sight
variable (Γ : Sight)

/-- The kind of the value that a path leads to. Paths with brackets have none. -/
def pathKind (p : Path) : Option Kind :=
  let pointer := Pointer.ofText p.text
  if p.text.contains '[' || pointer.root = "loop" then none
  else ((Γ.loops.lookup pointer.root).or (Γ.bindings.lookup pointer.root)).bind (Kind.at? pointer.keys)

/-- The kind of the answer of a function. -/
def callKind : Call → Option Kind
  | .mk f [] => if Γ.current then Γ.functions.lookup f else none
  | .mk f [(argument, .mk (.path p) [] false)] =>
    if argument = "phase" && (Γ.pathKind p).any Kind.isName then Γ.functions.lookup f else none
  | _ => none

/-- The kind of a value. -/
def valueKind : Value → Option Kind
  | .str _ => some .text
  | .path p => Γ.pathKind p
  | .call c => Γ.callKind c
  | _ => none

/-- The kind of what filters make of a value. -/
def filteredKind : Kind → List Call → Option Kind
  | k, [] => some k
  | k, .mk f [] :: rest => if k.isText && Γ.filters.contains f then filteredKind .text rest else none
  | _, _ => none

/-- The kind of an expression. -/
def exprKind : Expr → Option Kind
  | .mk v filters false => (Γ.valueKind v).bind fun k => Γ.filteredKind k filters
  | .mk _ _ true => none

mutual
/-- Whether an expression can be a condition. -/
def decides : Expr → Bool
  | .mk v _ _ => decidesValue v

/-- Whether a value can be a condition. -/
def decidesValue : Value → Bool
  | .logic .or l r | .logic .and l r => decides l && decides r
  | .test _ _ name => name = "defined" || name = "undefined"
  | .call c =>
    match Γ.callKind c with
    | some .truth => true
    | _ => false
  | _ => false
end

/-- What can be seen in the body of a loop. -/
def within (name : String) (k : Kind) : Sight := { Γ with loops := (name, k) :: Γ.loops }

/-- What can be seen in the branch of a condition: a variable that was asked for is there. -/
def given : Expr → Sight
  | .mk (.test p false name) _ false =>
    let pointer := Pointer.ofText p.text
    if name = "defined" && !p.text.contains '[' && pointer.root ≠ "loop" && (Γ.loops.lookup pointer.root).isNone then
      match Γ.optional.lookup pointer.root with
      | some k => { Γ with bindings := (pointer.root, k) :: Γ.bindings }
      | none => Γ
    else Γ
  | _ => Γ

end Sight

mutual
/-- Whether nodes are accepted. -/
def Sight.allowsAll (Γ : Sight) : List Node → Bool
  | [] => true
  | n :: rest => Γ.allows n && Γ.allowsAll rest

/-- Whether a node is accepted. -/
def Sight.allows (Γ : Sight) : Node → Bool
  | .text _ | .comment _ | .raw .. => true
  | .output _ e => (Γ.exprKind e).isSome
  | .loop _ none name (.mk v filters negated) body none _ =>
    name ≠ "loop" && (containerName? v).isSome &&
      match Γ.exprKind (.mk v filters negated) with
      | some (.list k) => (Γ.within name k).allowsAll body
      | _ => false
  | .choice branches _ => Γ.allowsBranches branches
  | _ => false

/-- Whether branches are accepted. -/
def Sight.allowsBranches (Γ : Sight) : List (Hyphens × Option Expr × List Node) → Bool
  | [] => true
  | (_, none, body) :: _ => Γ.allowsAll body
  | (_, some e, body) :: rest => Γ.decides e && (Γ.given e).allowsAll body && Γ.allowsBranches rest
end

/-! ### Values -/

section Values
variable {Γ : Sight} {names : List String} {scopes : Scopes} {ctx : Context} {t : String} {k : Kind}

theorem LoopsFit.findSome? {loops : List (String × Kind)} (h : LoopsFit names loops scopes) {p : Pointer}
    (hroot : p.root ≠ "loop") :
    (∀ k k', loops.lookup p.root = some k → k.at? p.keys = some k' →
      ∃ v, scopes.findSome? (·.lookup p) = some v ∧ Fits names k' v) ∧
    (loops.lookup p.root = none → scopes.findSome? (·.lookup p) = none) := by
  induction h with
  | outside => simp [Scope.lookup]
  | @within l k loops scopes hkey hname hvalue houter ih =>
    have hscope : Scope.lookup ⟨[], some l⟩ p = if p.root = l.name then follow p.keys l.value else none := by
      simp [Scope.lookup, Loop.lookup, Loop.lookup.inState, hkey, hroot]
    rw [List.findSome?_cons, hscope, Pairs.lookup_cons]
    by_cases hsame : p.root = l.name
    · simp only [hsame, ite_true]
      refine ⟨fun k k' heq hat => ?_, by simp⟩
      cases heq
      obtain ⟨w, hw, hfits⟩ := hvalue.follow hat
      exact ⟨w, by rw [hw], hfits⟩
    · simpa only [hsame, ite_false] using ih

/-- A path without brackets leads where its pointer does. -/
theorem lookup_of_no_bracket {p : Path} (hbracket : p.text.contains '[' = false) :
    lookup t scopes ctx p = match lookupPointer scopes ctx (.ofText p.text) with
      | some v => .ok v
      | none => .error (.noVariable p.shown t) := by
  rw [lookup, lookupText.eq_def]
  simp only [hbracket]
  rfl

theorem lookup_of_pathKind (h : Γ.Holds names scopes ctx) {p : Path} (hk : Γ.pathKind p = some k) :
    ∃ v, lookup t scopes ctx p = .ok v ∧ Fits names k v := by
  simp only [Sight.pathKind] at hk
  split at hk
  · cases hk
  · next hcond =>
    simp only [Bool.or_eq_true, decide_eq_true_eq, not_or] at hcond
    obtain ⟨hbracket, hroot⟩ := hcond
    obtain ⟨inner, hinner, hat⟩ := Option.bind_eq_some_iff.mp hk
    have hloops := h.loops.findSome? hroot
    have hfound : ∃ v, lookupPointer scopes ctx (.ofText p.text) = some v ∧ Fits names k v := by
      unfold lookupPointer
      cases hloop : Γ.loops.lookup (Pointer.ofText p.text).root with
      | some outer =>
        rw [hloop, Option.some_or, Option.some_inj] at hinner
        subst hinner
        obtain ⟨v, hv, hfits⟩ := hloops.1 outer k hloop hat
        exact ⟨v, by rw [hv, Option.some_or], hfits⟩
      | none =>
        rw [hloop, Option.none_or] at hinner
        obtain ⟨v, hv, hfits⟩ := h.bindings _ _ hinner
        obtain ⟨w, hw, hwfits⟩ := hfits.follow hat
        exact ⟨w, by rw [hloops.2 hloop, Option.none_or, hv, Option.bind_some, hw], hwfits⟩
    obtain ⟨v, hv, hfits⟩ := hfound
    refine ⟨v, ?_, hfits⟩
    rw [lookup_of_no_bracket (by simpa using hbracket), hv]

theorem evalCall_of_answer {env : Env} {f : String} {args : List (String × Expr)} {xs : Arguments} {v : Json}
    {answer : Arguments → Except String Json} (hanswer : env.ctx.table.functions.lookup f = some answer)
    (hargs : evalArguments env args = .ok xs) (hv : answer xs = .ok v) : evalCall env (.mk f args) = .ok v := by
  have happly : applyFunction env.ctx f xs = .ok v := by
    simp only [applyFunction, FunctionTable.call?, hanswer, Option.map_some, hv]
    rfl
  simp only [evalCall, hanswer, hargs, Option.isNone_some, Bool.false_eq_true, ite_false]
  exact happly

theorem evalCall_of_callKind (h : Γ.Holds names scopes ctx) {c : Call} (hk : Γ.callKind c = some k) :
    ∃ v, evalCall ⟨t, scopes, ctx⟩ c = .ok v ∧ Fits names k v := by
  unfold Sight.callKind at hk
  split at hk
  · next f =>
    split at hk
    · next hcurrent =>
      obtain ⟨answer, hanswer, -, hnone⟩ := h.functions f k hk
      obtain ⟨v, hv, hfits⟩ := hnone hcurrent
      exact ⟨v, evalCall_of_answer hanswer (by rw [evalArguments]; rfl) hv, hfits⟩
    · cases hk
  · next f argument q =>
    split at hk
    · next hcond =>
      obtain ⟨rfl, hq⟩ : argument = "phase" ∧ (Γ.pathKind q).any Kind.isName = true := by simpa using hcond
      obtain ⟨kind, hkind, hname⟩ := (Option.any_eq_true _ _).mp hq
      obtain ⟨w, hw, hwfits⟩ := lookup_of_pathKind (t := t) h hkind
      obtain ⟨s, hs, rfl⟩ := hwfits.exists_name hname
      obtain ⟨answer, hanswer, hasked, -⟩ := h.functions f k hk
      obtain ⟨v, hv, hfits⟩ := hasked s hs
      have hargs : evalArguments ⟨t, scopes, ctx⟩ [("phase", .mk (.path q) [] false)] = .ok [("phase", .str s)] := by
        simp only [evalArguments, evalExpr, evalValue, hw]
        rfl
      exact ⟨v, evalCall_of_answer hanswer hargs hv, hfits⟩
    · cases hk
  · cases hk

theorem evalValue_of_valueKind (h : Γ.Holds names scopes ctx) (negated : Bool) {v : Value} (hk : Γ.valueKind v = some k) :
    ∃ x, evalValue ⟨t, scopes, ctx⟩ negated v = .ok x ∧ Fits names k x := by
  cases v with
  | str s =>
    cases hk
    exact ⟨_, by rw [evalValue]; rfl, .text s⟩
  | path p =>
    obtain ⟨x, hx, hfits⟩ := lookup_of_pathKind (t := t) h hk
    exact ⟨x, by rw [evalValue, hx], hfits⟩
  | call c =>
    obtain ⟨x, hx, hfits⟩ := evalCall_of_callKind (t := t) h hk
    exact ⟨x, by rw [evalValue, hx], hfits⟩
  | _ => cases hk

theorem evalFilters_of_filteredKind (h : Γ.Holds names scopes ctx) : ∀ {filters : List Call} {k k' : Kind} {x : Json},
    Fits names k x → Γ.filteredKind k filters = some k' →
      ∃ y, evalFilters ⟨t, scopes, ctx⟩ x filters = .ok y ∧ Fits names k' y
  | [], _, _, x, hfits, hk => by
    cases hk
    exact ⟨x, by rw [evalFilters]; rfl, hfits⟩
  | .mk f [] :: rest, k, _, x, hfits, hk => by
    rw [Sight.filteredKind] at hk
    split at hk
    · next hcond =>
      obtain ⟨htext, hmem⟩ : k.isText = true ∧ f ∈ Γ.filters := by simpa using hcond
      obtain ⟨s, rfl⟩ := hfits.exists_text htext
      obtain ⟨hfilter, hmade⟩ := h.filters f hmem
      obtain ⟨made, hmade⟩ := hmade s
      by_cases hpassed : f = "default" ∨ f = "safe"
      · obtain ⟨y, hy, hyfits⟩ := evalFilters_of_filteredKind h (.text s) hk
        exact ⟨y, by rw [evalFilters]; simpa [hpassed] using hy, hyfits⟩
      · obtain ⟨y, hy, hyfits⟩ := evalFilters_of_filteredKind h (.text made) hk
        have hother : (decide (f = "default") || decide (f = "safe")) = false := by simpa using hpassed
        refine ⟨y, ?_, hyfits⟩
        simp only [evalFilters, hother, hfilter, Bool.not_true, Bool.false_eq_true, ite_false, evalArguments]
        exact bind_eq_ok.mpr ⟨[], rfl, bind_eq_ok.mpr ⟨_, hmade, hy⟩⟩
    · cases hk
  | .mk f (_ :: _) :: rest, _, _, _, _, hk => by cases hk

theorem settle_of_ne_null {isPath withDefault : Bool} {x : Json} (hx : x ≠ .null) {default : Unit → Except Failure Json}
    {filters : Json → Except Failure Json} : settle isPath false withDefault (.ok x) default filters = filters x := by
  unfold settle
  cases x with
  | null => exact absurd rfl hx
  | _ => cases hfiltered : filters _ <;> simp [hfiltered, bind, Except.bind, pure, Except.pure]

theorem evalExpr_of_exprKind (h : Γ.Holds names scopes ctx) {e : Expr} (hk : Γ.exprKind e = some k) :
    ∃ x, evalExpr ⟨t, scopes, ctx⟩ e = .ok x ∧ Fits names k x := by
  obtain ⟨v, filters, negated⟩ := e
  cases negated with
  | true => cases hk
  | false =>
    obtain ⟨inner, hinner, hk⟩ := Option.bind_eq_some_iff.mp hk
    obtain ⟨x, hx, hfits⟩ := evalValue_of_valueKind (t := t) h false hinner
    obtain ⟨y, hy, hyfits⟩ := evalFilters_of_filteredKind (t := t) h hfits hk
    exact ⟨y, by rw [evalExpr, hx, settle_of_ne_null hfits.ne_null, hy], hyfits⟩

/-! ### Conditions -/

theorem applyTest_of_known (env : Env) (p : Path) (negated : Bool) {name : String}
    (hname : name = "defined" ∨ name = "undefined") : ∃ b, applyTest env p negated name = .ok b := by
  rcases hname with rfl | rfl
  · exact ⟨_, rfl⟩
  · exact ⟨_, rfl⟩

mutual
theorem evalBool_of_decides (h : Γ.Holds names scopes ctx) : ∀ {e : Expr}, Γ.decides e = true →
    ∃ b, evalBool ⟨t, scopes, ctx⟩ e = .ok b
  | .mk v filters negated, hd => by
    have hother : (v.isPath || v.isConcat) = false := by
      cases v <;> first | rfl | cases hd
    obtain ⟨truth, htruth⟩ := evalTruth_of_decides h hd
    exact ⟨outcome negated truth, by rw [evalBool, hother, htruth]; rfl⟩

theorem evalTruth_of_decides (h : Γ.Holds names scopes ctx) : ∀ {v : Value}, Γ.decidesValue v = true →
    ∃ truth, evalTruth ⟨t, scopes, ctx⟩ v = .ok truth
  | .logic .or l r, hd => by
    obtain ⟨hl, hr⟩ := Bool.and_eq_true_iff.mp hd
    obtain ⟨a, ha⟩ := evalBool_of_decides h hl
    obtain ⟨b, hb⟩ := evalBool_of_decides h hr
    rw [evalTruth, connect, ha, hb]
    cases a <;> exact ⟨_, rfl⟩
  | .logic .and l r, hd => by
    obtain ⟨hl, hr⟩ := Bool.and_eq_true_iff.mp hd
    obtain ⟨a, ha⟩ := evalBool_of_decides h hl
    obtain ⟨b, hb⟩ := evalBool_of_decides h hr
    rw [evalTruth, connect, ha, hb]
    cases a <;> exact ⟨_, rfl⟩
  | .test p negated name, hd => by
    have hname : name = "defined" ∨ name = "undefined" := by simpa [Sight.decidesValue] using hd
    obtain ⟨b, hb⟩ := applyTest_of_known ⟨t, scopes, ctx⟩ p negated hname
    exact ⟨some b, by rw [evalTruth, hb]; rfl⟩
  | .call c, hd => by
    rw [Sight.decidesValue] at hd
    split at hd
    · next hkind =>
      obtain ⟨v, hv, hfits⟩ := evalCall_of_callKind h hkind
      cases hfits with
      | truth b => exact ⟨some b, by rw [evalTruth, hv]; rfl⟩
    · cases hd
end

theorem evalBool_defined {p : Path} {filters : List Call}
    (he : evalBool ⟨t, scopes, ctx⟩ (.mk (.test p false "defined") filters false) = .ok true) :
    ∃ v, lookup t scopes ctx p = .ok v := by
  cases hlookup : lookup t scopes ctx p with
  | ok v => exact ⟨v, rfl⟩
  | error e =>
    have hnot : evalBool ⟨t, scopes, ctx⟩ (.mk (.test p false "defined") filters false) = .ok false := by
      simp only [evalBool, evalTruth, applyTest, hlookup]
      rfl
    rw [hnot] at he
    cases he

/-- In the branch of a condition that holds one sees what it asked for. -/
theorem Sight.Holds.given (h : Γ.Holds names scopes ctx) {e : Expr} (he : evalBool ⟨t, scopes, ctx⟩ e = .ok true) :
    (Γ.given e).Holds names scopes ctx := by
  unfold Sight.given
  split
  · next p name filters =>
    simp only
    split
    · next hcond =>
      split
      · next k hoptional =>
        simp only [Bool.and_eq_true, decide_eq_true_eq, Bool.not_eq_true', Option.isNone_iff_eq_none] at hcond
        obtain ⟨⟨⟨rfl, hbracket⟩, hroot⟩, hloops⟩ := hcond
        obtain ⟨v, hv⟩ := evalBool_defined he
        have hthere : ∃ w, ctx.bindings.lookup (Pointer.ofText p.text).root = some w := by
          rw [lookup_of_no_bracket hbracket, lookupPointer, (h.loops.findSome? hroot).2 hloops, Option.none_or] at hv
          cases hw : ctx.bindings.lookup (Pointer.ofText p.text).root with
          | some w => exact ⟨w, rfl⟩
          | none =>
            rw [hw] at hv
            cases hv
        obtain ⟨w, hw⟩ := hthere
        -- what an optional variable is when it is there, it is now
        refine { h with bindings := fun x inner hx => ?_ }
        rw [Pairs.lookup_cons] at hx
        split at hx
        · next hsame =>
          cases hx
          exact ⟨w, by rw [hsame, hw], h.optional _ _ _ hoptional hw⟩
        · exact h.bindings x inner hx
      · exact h
    · exact h
  · exact h

/-! ### Nodes -/

theorem loopTexts_of_forall {run : Scopes → Except Failure (List Char × Scopes)} {outer : Scopes} {name : String}
    {count : Nat} : ∀ {items : List (Option (String × Json) × Json)} {i : Nat},
    (∀ item ∈ items, ∀ i, ∃ r, run (⟨[], some ⟨item.1, name, item.2, i, count⟩⟩ :: outer) = .ok r) →
      ∃ text, loopTexts run outer name count i items = .ok text
  | [], _, _ => ⟨[], rfl⟩
  | item :: items, i, h => by
    obtain ⟨hitem, hitems⟩ := List.forall_mem_cons.mp h
    obtain ⟨⟨text, inner⟩, hr⟩ := hitem i
    obtain ⟨more, hmore⟩ := loopTexts_of_forall (i := i + 1) hitems
    exact ⟨text ++ more, by rw [loopTexts, hr]; exact bind_eq_ok.mpr ⟨_, rfl, bind_eq_ok.mpr ⟨more, hmore, rfl⟩⟩⟩

theorem Sight.Holds.within (h : Γ.Holds names scopes ctx) {name : String} (hname : name ≠ "loop") {v : Json}
    (hv : Fits names k v) (i count : Nat) :
    (Γ.within name k).Holds names (⟨[], some ⟨none, name, v, i, count⟩⟩ :: scopes) ctx where
  loops := LoopsFit.within (l := ⟨none, name, v, i, count⟩) rfl hname hv h.loops
  bindings := h.bindings
  optional := h.optional
  functions := h.functions
  filters := h.filters

end Values

section Nodes
variable {names : List String} {ctx : Context} {t : String} {self : Scopes → Except Failure (List Char)}

mutual
theorem renderNodes_of_allowsAll : ∀ {nodes : List Node} {Γ : Sight} {scopes : Scopes}, Γ.Holds names scopes ctx →
    Γ.allowsAll nodes = true → ∃ text, renderNodes t ctx self scopes nodes = .ok (text, scopes)
  | [], _, _, _, _ => ⟨[], by rw [renderNodes]; rfl⟩
  | n :: rest, Γ, scopes, h, hall => by
    obtain ⟨hn, hrest⟩ := Bool.and_eq_true_iff.mp hall
    obtain ⟨text, htext⟩ := renderNode_of_allows h hn
    obtain ⟨more, hmore⟩ := renderNodes_of_allowsAll h hrest
    exact ⟨text ++ more, by
      rw [renderNodes, htext]; exact bind_eq_ok.mpr ⟨_, rfl, bind_eq_ok.mpr ⟨_, hmore, rfl⟩⟩⟩

theorem renderNode_of_allows : ∀ {n : Node} {Γ : Sight} {scopes : Scopes}, Γ.Holds names scopes ctx →
    Γ.allows n = true → ∃ text, renderNode t ctx self scopes n = .ok (text, scopes)
  | .text s, _, _, _, _ => ⟨s, by rw [renderNode]; rfl⟩
  | .comment _, _, _, _, _ => ⟨[], by rw [renderNode]; rfl⟩
  | .raw _ s _, _, _, _, _ => ⟨s, by rw [renderNode]; rfl⟩
  | .output _ e, Γ, scopes, h, hn => by
    obtain ⟨k, hk⟩ := Option.isSome_iff_exists.mp hn
    obtain ⟨v, hv, -⟩ := evalExpr_of_exprKind (t := t) h hk
    exact ⟨showValue v, by rw [renderNode, hv]; rfl⟩
  | .loop _ none name (.mk v filters negated) body none _, Γ, scopes, h, hn => by
    simp only [Sight.allows, Bool.and_eq_true, decide_eq_true_eq] at hn
    obtain ⟨⟨hname, hcontainer⟩, hbody⟩ := hn
    obtain ⟨container, hcontainer⟩ := Option.isSome_iff_exists.mp hcontainer
    split at hbody
    · next k hk =>
      obtain ⟨v', hv, hfits⟩ := evalExpr_of_exprKind (t := t) h hk
      cases hfits with
      | @list _ items hitems =>
        -- the items are of the kind that the body was accepted for, one after another
        have hloop : loopItems container none (.arr items) = .ok (items.map fun v => (none, v)) := rfl
        generalize hpairs : items.map (fun v => ((none : Option (String × Json)), v)) = pairs at hloop
        obtain ⟨text, htext⟩ : ∃ text, loopTexts (fun inner => renderNodes t ctx self inner body) scopes name
            pairs.length 0 pairs = .ok text := by
          refine loopTexts_of_forall fun item hitem i => ?_
          rw [← hpairs] at hitem
          obtain ⟨v, hv, rfl⟩ := List.mem_map.mp hitem
          obtain ⟨text, htext⟩ := renderNodes_of_allowsAll (h.within hname (hitems v hv) i _) hbody
          exact ⟨_, htext⟩
        refine ⟨text, ?_⟩
        rw [renderNode, hcontainer]
        exact bind_eq_ok.mpr ⟨_, hv, bind_eq_ok.mpr ⟨_, hloop, bind_eq_ok.mpr ⟨text, htext, rfl⟩⟩⟩
    · cases hbody
  | .choice branches _, Γ, scopes, h, hn => by
    obtain ⟨text, htext⟩ := renderBranches_of_allowsBranches h hn
    exact ⟨text, by rw [renderNode, htext]⟩

theorem renderBranches_of_allowsBranches : ∀ {branches : List (Hyphens × Option Expr × List Node)} {Γ : Sight}
    {scopes : Scopes}, Γ.Holds names scopes ctx → Γ.allowsBranches branches = true →
      ∃ text, renderBranches t ctx self scopes branches = .ok (text, scopes)
  | [], _, _, _, _ => ⟨[], by rw [renderBranches]; rfl⟩
  | (_, none, body) :: _, Γ, scopes, h, hall => by
    obtain ⟨text, htext⟩ := renderNodes_of_allowsAll h hall
    exact ⟨text, by rw [renderBranches, htext]⟩
  | (_, some e, body) :: rest, Γ, scopes, h, hall => by
    simp only [Sight.allowsBranches, Bool.and_eq_true] at hall
    obtain ⟨⟨hcondition, hbody⟩, hrest⟩ := hall
    obtain ⟨b, hb⟩ := evalBool_of_decides (t := t) h hcondition
    cases b with
    | true =>
      obtain ⟨text, htext⟩ := renderNodes_of_allowsAll (h.given hb) hbody
      exact ⟨text, by rw [renderBranches, hb]; exact htext⟩
    | false =>
      obtain ⟨text, htext⟩ := renderBranches_of_allowsBranches h hrest
      exact ⟨text, by rw [renderBranches, hb]; exact htext⟩
end

end Nodes

/-! ### Templates -/

end Scaffold.Template
