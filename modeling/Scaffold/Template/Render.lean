import Scaffold.Template.Eval
import Scaffold.Template.Parse

/-! Rendering a template against a context. -/

namespace Scaffold.Template

/-- How a loop is called in messages, by what it goes over; other values cannot be gone over. -/
def containerName? : Value → Option String
  | .path p => some p.shown
  | .call c => some c.name
  | .array _ => some "an array literal"
  | _ => none

/-- What a loop goes over: items, the characters of a text, or the fields of an object with their
    names. -/
def loopItems (container : String) (key : Option String) (v : Json) :
    Except Failure (List (Option (String × Json) × Json)) :=
  match v, key with
  | .arr items, none => return items.map fun v => (none, v)
  | .str s, none => return s.toList.map fun c => (none, .str (String.singleton c))
  | .obj fields, some name => return fields.map fun (k, v) => (some (name, .str k), v)
  | .arr _, some _ | .str _, some _ => throw (.noPairs container)
  | .obj _, none => throw (.needsKey container)
  | _, _ => throw (.notIterable container)

/-- The texts of a loop's body for its items from number `i` on. -/
def loopTexts (run : Scopes → Except Failure (List Char × Scopes)) (outer : Scopes) (name : String)
    (count : Nat) : Nat → List (Option (String × Json) × Json) → Except Failure (List Char)
  | _, [] => return []
  | i, (key, v) :: rest => do
    let (text, _) ← run (⟨[], some ⟨key, name, v, i, count⟩⟩ :: outer)
    return text ++ (← loopTexts run outer name count (i + 1) rest)

mutual
/-- The text of nodes, and the scopes after them. `self` renders the whole template again for an
    insertion of itself. -/
def renderNodes (template : String) (ctx : Context) (self : Scopes → Except Failure (List Char)) :
    Scopes → List Node → Except Failure (List Char × Scopes)
  | scopes, [] => return ([], scopes)
  | scopes, n :: rest => do
    let (text, scopes) ← renderNode template ctx self scopes n
    let (more, scopes) ← renderNodes template ctx self scopes rest
    return (text ++ more, scopes)

/-- The text of a node, and the scopes after it. -/
def renderNode (template : String) (ctx : Context) (self : Scopes → Except Failure (List Char))
    (scopes : Scopes) : Node → Except Failure (List Char × Scopes)
  | .text s => return (s, scopes)
  | .comment _ => return ([], scopes)
  | .raw _ s _ => return (s, scopes)
  | .output _ e => do return (showValue (← evalExpr ⟨template, scopes, ctx⟩ e), scopes)
  | .assign _ name e => do
    return ([], assign name (← evalExpr ⟨template, scopes, ctx⟩ e) scopes)
  | .insertion _ names ignoreMissing => do
    -- a template knows no other one than itself
    if names.contains template then return (← self (⟨[], none⟩ :: scopes), scopes)
    else if ignoreMissing then return ([], scopes)
    else throw (.noTemplates names)
  | .loop _ key value (.mk container filters negated) body otherwise _ => do
    match containerName? container with
    | none => throw (.badContainer container)
    | some name =>
      let v ← evalExpr ⟨template, scopes, ctx⟩ (.mk container filters negated)
      let items ← loopItems name key v
      let run (inner : Scopes) := renderNodes template ctx self inner body
      let all := loopTexts run scopes value items.length 0 items
      match otherwise with
      | some nodes =>
        if items.isEmpty then renderNodes template ctx self scopes nodes else return (← all, scopes)
      | none => return (← all, scopes)
  | .choice branches _ => renderBranches template ctx self scopes branches

/-- The text of the first branch whose condition holds. -/
def renderBranches (template : String) (ctx : Context)
    (self : Scopes → Except Failure (List Char)) (scopes : Scopes) :
    List (Hyphens × Option Expr × List Node) → Except Failure (List Char × Scopes)
  | [] => return ([], scopes)
  | (_, none, body) :: _ => renderNodes template ctx self scopes body
  | (_, some e, body) :: rest => do
    if ← evalBool ⟨template, scopes, ctx⟩ e then renderNodes template ctx self scopes body
    else renderBranches template ctx self scopes rest
end

/-- The text of a whole template, which may insert itself to that depth. -/
def renderWhole (template : String) (ctx : Context) (nodes : List Node) :
    Nat → Scopes → Except Failure (List Char)
  | 0, _ => throw .tooDeep
  | depth + 1, scopes => do
    return (← renderNodes template ctx (renderWhole template ctx nodes depth) scopes nodes).1

/-- How often a template may insert itself inside itself. -/
def insertionDepth : Nat := 100

/-- Why a template source cannot be rendered. -/
inductive RenderFailure where
  | badSyntax
  | execution (cause : Failure)

/-- The text of a template source in a context. The name of the template stands in messages. -/
def render (template source : String) (ctx : Context) : Except RenderFailure String :=
  match parse? source.toList with
  | none => throw .badSyntax
  | some nodes =>
    match renderWhole template ctx nodes insertionDepth [⟨[], none⟩] with
    | .ok text => return String.ofList text
    | .error cause => throw (.execution cause)

end Scaffold.Template
