import Scaffold.Json.Token

/-! Reading JSON: tokens are folded into a document over a stack of the arrays and objects that are
    still open. -/

namespace Scaffold.Json

/-- An array or object that is still open, its items in reverse. -/
inductive Frame where
  | arr (items : List Json)
  | obj (fields : List (String × Json)) (name : String)

/-- What may come next. -/
inductive Expecting where
  | value
  | firstItem
  | firstName (fields : List (String × Json))
  | nextName (fields : List (String × Json))
  | colon (fields : List (String × Json)) (name : String)
  | separator
  | nothing (document : Json)

/-- The open arrays and objects, innermost first, and what may come next. -/
structure Assembly where
  frames : List Frame
  expecting : Expecting

/-- Puts a finished value into the innermost frame. -/
def deliver (v : Json) : List Frame → Assembly
  | [] => ⟨[], .nothing v⟩
  | .arr items :: frames => ⟨.arr (v :: items) :: frames, .separator⟩
  | .obj fields name :: frames => ⟨.obj ((name, v) :: fields) name :: frames, .separator⟩

/-- One more token. -/
def Assembly.accept (a : Assembly) (t : Token) : Option Assembly :=
  match a.expecting, t with
  | .value, .atom v | .firstItem, .atom v => some (deliver v a.frames)
  | .value, .openArray | .firstItem, .openArray => some ⟨.arr [] :: a.frames, .firstItem⟩
  | .value, .openObject | .firstItem, .openObject => some ⟨a.frames, .firstName []⟩
  | .firstItem, .closeArray =>
    match a.frames with
    | .arr items :: frames => some (deliver (.arr items.reverse) frames)
    | _ => none
  | .firstName fields, .atom (.str name) | .nextName fields, .atom (.str name) =>
    some ⟨a.frames, .colon fields name⟩
  | .firstName fields, .closeObject => some (deliver (.obj fields.reverse) a.frames)
  | .colon fields name, .colon => some ⟨.obj fields name :: a.frames, .value⟩
  | .separator, .comma =>
    match a.frames with
    | .arr items :: frames => some ⟨.arr items :: frames, .value⟩
    | .obj fields _ :: frames => some ⟨frames, .nextName fields⟩
    | [] => none
  | .separator, .closeArray =>
    match a.frames with
    | .arr items :: frames => some (deliver (.arr items.reverse) frames)
    | _ => none
  | .separator, .closeObject =>
    match a.frames with
    | .obj fields _ :: frames => some (deliver (.obj fields.reverse) frames)
    | _ => none
  | _, _ => none

/-- The document of a complete token list. -/
def ofTokens? (tokens : List Token) : Option Json := do
  let a ← tokens.foldlM Assembly.accept ⟨[], .value⟩
  match a.expecting with
  | .nothing v => some v
  | _ => none

/-- The document that the text is. -/
def parse? (s : String) : Option Json := do
  ofTokens? (← tokensFrom .between s.toList)

end Scaffold.Json
