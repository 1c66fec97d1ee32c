import Scaffold.Json.Reader
import Scaffold.Json.Writer
import Scaffold.Keyed
import Scaffold.Time.Instant

/-! The ledger of an output root: what was generated last for each path, by digest, and when. It is
    kept as JSON. -/

namespace Scaffold

/-- Digests by path, and the time of the run that recorded them. -/
structure Ledger where
  generatedAt : Instant
  digests : Keyed String
  deriving DecidableEq, Repr

namespace Ledger

/-- The ledger of a root for which nothing was generated. -/
def empty (now : Instant) : Ledger := ⟨now, .empty⟩

def digest? (l : Ledger) (path : String) : Option String := l.digests.get? path

def record (l : Ledger) (path digest : String) : Ledger :=
  { l with digests := l.digests.insert path digest }

def toJson (l : Ledger) : Json :=
  .obj [("generated_at", .str l.generatedAt.toText),
    ("files", .obj (l.digests.entries.map fun (path, digest) => (path, .str digest)))]

def toText (l : Ledger) : String := l.toJson.pretty

/-- Digests by path, the last of which counts for its path. -/
def digestsOf? (v : Json) : Option (Keyed String) :=
  match v with
  | .obj fields => do
    return Keyed.ofList (← fields.mapM fun (path, v) => v.str?.map (path, ·))
  | _ => none

def ofParts? (time digests : Json) : Option Ledger := do
  return ⟨← Instant.parse? (← time.str?), ← digestsOf? digests⟩

/-- The only field of that name. -/
def onlyField? (fields : List (String × Json)) (name : String) : Option Json :=
  match fields.filter (·.1 = name) with
  | [(_, v)] => some v
  | _ => none

/-- The ledger that a JSON document is: an object, in which other fields do not matter, or the two
    parts in an array. -/
def ofJson? : Json → Option Ledger
  | .obj fields => do ofParts? (← onlyField? fields "generated_at") (← onlyField? fields "files")
  | .arr [time, digests] => ofParts? time digests
  | _ => none

def parse? (text : String) : Option Ledger := (Json.parse? text).bind ofJson?

end Ledger

end Scaffold
