import Scaffold.Json.Writer
import Scaffold.Template.Outline

/-! Why a template cannot be rendered, and the wording. -/

namespace Scaffold.Template

/-- What goes wrong while a template is rendered. -/
inductive Failure where
  | noVariable (path template : String)
  /-- a path with brackets leads nowhere; `evaluated` is what it came to -/
  | noElement (path template evaluated : String)
  | badIndex (path : String) (cause : Failure)
  | indexType (index path : String)
  | noFunction (name : String)
  | noFilter (name : String)
  | noTest (name : String)
  | noTemplates (names : List String)
  | functionCall (name : String) (cause : Failure)
  | filterCall (name : String) (cause : Failure)
  | noDefault
  | notNumber (path : String)
  | functionNotNumber (name : String)
  | filteredNotNumber
  | mathOnText (s : String)
  | mathOnBool (b : Bool)
  | mathOnTest (name : String)
  | mathOnOther
  | outOfBounds (left : Int) (sign : String) (right : Int)
  | moduloByZero (left right : Expr)
  /-- arithmetic fails: of its failure only the headline is told -/
  | arithmetic (failure : Failure)
  | notBoolean (function : String)
  | concatPath (path : String)
  | concatFunction (name : String)
  | notIterable (name : String)
  | noPairs (name : String)
  | needsKey (name : String)
  | badContainer (container : Value)
  | filterValue (filter : String) (value : Json)
  | filterArgument (filter argument : String) (value : Json)
  | missingArgument (filter argument : String)
  | noLength
  | tooDeep
  /-- a function or filter of the context refuses its input -/
  | refused (message : String)

/-- The wording of a failure without what caused it. -/
def Failure.headline : Failure → String
  | .noVariable path template =>
    "Variable `" ++ path ++ "` not found in context while rendering '" ++ template ++ "'"
  | .noElement path template evaluated =>
    "Variable `" ++ path ++ "` not found in context while rendering '" ++ template
      ++ "': the evaluated version was `" ++ evaluated ++ "`. Maybe the index is out of bounds?"
  | .badIndex path cause =>
    "Variable " ++ path ++ " can not be evaluated because: " ++ cause.headline
  | .indexType index path =>
    "Only variables evaluating to String or Number can be used as index (`" ++ index ++ "` of `"
      ++ path ++ "`)"
  | .noFunction name => "Function '" ++ name ++ "' not found"
  | .noFilter name => "Filter '" ++ name ++ "' not found"
  | .noTest name => "Test '" ++ name ++ "' not found"
  | .noTemplates names => "Template '[" ++ String.intercalate ", " names ++ "]' not found"
  | .functionCall name _ => "Function call '" ++ name ++ "' failed"
  | .filterCall name _ => "Filter call '" ++ name ++ "' failed"
  | .noDefault => "The `default` filter requires a `value` argument."
  | .notNumber path => "Variable `" ++ path ++ "` was used in a math operation but is not a number"
  | .functionNotNumber name =>
    "Function `" ++ name ++ "` was used in a math operation but is not returning a number"
  | .filteredNotNumber => "Tried to do math with an expression not resulting in a number"
  | .mathOnText s => "Tried to do math with a string: `" ++ s ++ "`"
  | .mathOnBool b =>
    "Tried to do math with a boolean: `" ++ (if b then "true" else "false") ++ "`"
  | .mathOnTest name => "Tried to do math with a test: " ++ name
  | .mathOnOther => "Tried to do math with a value that is no number"
  | .outOfBounds left sign right =>
    toString left ++ " " ++ sign ++ " " ++ toString right ++ " results in an out of bounds i64"
  | .moduloByZero left right =>
    "Tried to do a modulo by zero: " ++ left.outline ++ "/" ++ right.outline
  | .arithmetic failure => failure.headline
  | .notBoolean function =>
    "Function `" ++ function ++ "` was used in a logic operation but is not returning a bool"
  | .concatPath path =>
    "Tried to concat a value that is not a string or a number from ident " ++ path
  | .concatFunction name =>
    "Tried to concat a value that is not a string or a number from function call " ++ name
  | .notIterable name =>
    "Tried to iterate on a container (`" ++ name ++ "`) that has a unsupported type"
  | .noPairs name =>
    "Tried to iterate using key value on variable `" ++ name ++ "`, but it isn't an object/map"
  | .needsKey name =>
    "Tried to iterate using key value on variable `" ++ name ++ "`, but it is missing a key"
  | .badContainer container =>
    "Forloop containers have to be an ident or a function call (tried to iterate on '"
      ++ container.outline ++ "')"
  | .filterValue filter value =>
    "Filter `" ++ filter ++ "` was called on an incorrect value: got `" ++ value.compact
      ++ "` but expected a String"
  | .filterArgument filter argument value =>
    "Filter `" ++ filter ++ "` received an incorrect type for arg `" ++ argument ++ "`: got `"
      ++ value.compact ++ "` but expected a String"
  | .missingArgument filter argument =>
    "Filter `" ++ filter ++ "` expected an arg called `" ++ argument ++ "`"
  | .noLength =>
    "Filter `length` was used on a value that isn't an array, an object, or a string."
  | .tooDeep => "Templates are nested too deeply"
  | .refused message => message

/-- The wording of a failure, causes after a colon. -/
def Failure.message : Failure → String
  | .functionCall name cause => (Failure.functionCall name cause).headline ++ ": " ++ cause.message
  | .filterCall name cause => (Failure.filterCall name cause).headline ++ ": " ++ cause.message
  | failure => failure.headline

end Scaffold.Template
