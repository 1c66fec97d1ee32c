import Scaffold.Template.Render
import Scaffold.Template.Store

/-! Rendering the template that a store has under an identifier. -/

namespace Scaffold.Template

inductive OutputError where
  | unrendered (id : String) (failure : RenderFailure)
  | unavailable (e : StoreError)

def OutputError.message : OutputError → String
  | .unrendered id .badSyntax =>
    "template '" ++ id ++ "' has a syntax error: Failed to parse '" ++ id ++ "'"
  | .unrendered id (.execution cause) =>
    "template '" ++ id ++ "' failed to render: Failed to render '" ++ id ++ "': " ++ cause.message
  | .unavailable e => e.message

def OutputError.template : OutputError → String
  | .unrendered id _ => id
  | .unavailable (.notFound id) => id
  | .unavailable (.io id _ _) => id

/-- The output of a source that is known under an identifier. -/
def outputOf (id source : String) (ctx : Context) : Except OutputError String :=
  (render id source ctx).mapError (.unrendered id)

/-- The output of the template that the store has under that identifier. -/
def output {m : Type → Type} [Monad m] (store : Store m) (id : String) (ctx : Context) :
    m (Except OutputError String) := do
  match ← store id with
  | .ok source => pure (outputOf id source ctx)
  | .error e => pure (.error (.unavailable e))

end Scaffold.Template
