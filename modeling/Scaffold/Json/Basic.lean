import Scaffold.Keyed
import Scaffold.Number.Decimal

/-! JSON documents. The fields of an object keep the order in which they stand and may repeat. -/

namespace Scaffold

inductive Json where
  | null
  | bool (b : Bool)
  | int (n : Int)
  | float (x : Binary64)
  | str (s : String)
  | arr (items : List Json)
  | obj (fields : List (String × Json))
  deriving Inhabited

namespace Json

/-- The value of the last field of that name. -/
def field? (name : String) : Json → Option Json
  | .obj fields => fields.reverse.lookup name
  | _ => none

def fields : Json → List (String × Json)
  | .obj fields => fields
  | _ => []

def str? : Json → Option String
  | .str s => some s
  | _ => none

def strs (items : List String) : Json := .arr (items.map .str)

mutual
/-- The document with the fields of its objects sorted and the last of equal names kept. -/
def canonical : Json → Json
  | .arr items => .arr (canonicalItems items)
  | .obj fields => .obj (canonicalFields fields [])
  | .null => .null
  | .bool b => .bool b
  | .int n => .int n
  | .float x => .float x
  | .str s => .str s

def canonicalItems : List Json → List Json
  | [] => []
  | v :: rest => canonical v :: canonicalItems rest

/-- The fields inserted one after another into `done`. -/
def canonicalFields : List (String × Json) → List (String × Json) → List (String × Json)
  | [], done => done
  | (name, v) :: rest, done => canonicalFields rest (Keyed.insertEntry name (canonical v) done)
end

end Json

end Scaffold
