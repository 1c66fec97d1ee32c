import Scaffold.Yaml.Cell

/-! The tokens of a YAML text. -/

namespace Scaffold.Yaml

inductive Style where
  | plain
  | single
  | double
  | literal
  | folded
  deriving DecidableEq, Repr

inductive TokenKind where
  | streamEnd
  | version (major minor : Nat)
  | handle (name start : String)
  | documentStart
  | documentEnd
  | blockSequence
  | blockMapping
  | blockEnd
  | openSequence
  | closeSequence
  | openMapping
  | closeMapping
  | blockEntry
  | flowEntry
  | key
  | value
  | alias (name : String)
  | anchor (name : String)
  | tag (handle suffix : String)
  | scalar (text : String) (style : Style)
  deriving DecidableEq, Repr

/-- A token with the places where it starts and where the text goes on after it. -/
structure Token where
  kind : TokenKind
  start : Mark
  stop : Mark

end Scaffold.Yaml
