import Scaffold.Yaml.Event

/-! From events to a tree. A document may break off in the middle; the tree then holds a mark of the
    place, so that what stands before it can still be looked at in order. -/

namespace Scaffold.Yaml

inductive Node where
  | scalar (s : Scalar) (mark : Mark)
  | sequence (tag : Option String) (items : List Node) (mark : Mark)
  /-- keys and values in turn -/
  | mapping (tag : Option String) (entries : List Node) (mark : Mark)
  /-- the node with that anchor number -/
  | alias (number : Nat) (mark : Mark)
  /-- the text is no YAML from here on -/
  | broken
  deriving Inhabited

/-- A document: its node, the nodes that have anchor numbers, how many events it is made of, and
    whether nothing follows it. -/
structure Document where
  root : Node
  anchored : List (Nat × Node)
  size : Nat
  /-- whether the document and the stream end as they should -/
  alone : Bool

structure Frame where
  isMapping : Bool
  number : Option Nat
  /-- how many events came before it -/
  start : Nat
  tag : Option String
  mark : Mark
  nodes : List Node

structure Composer where
  frames : List Frame
  root : Option Node
  /-- the number of each anchor name -/
  names : List (String × Nat)
  /-- anchor numbers with their nodes and where these start -/
  anchored : List (Nat × Nat × Node)
  size : Nat

namespace Composer

def close (f : Frame) : Node :=
  if f.isMapping then .mapping f.tag f.nodes.reverse f.mark
  else .sequence f.tag f.nodes.reverse f.mark

/-- Puts a node into the innermost open collection. -/
def deliver (c : Composer) (n : Node) : Composer :=
  match c.frames with
  | [] => { c with root := some n }
  | f :: frames => { c with frames := { f with nodes := n :: f.nodes } :: frames }

/-- Notes the node of an anchor number; of several the one that starts last counts. -/
def anchor (c : Composer) (number : Option Nat) (start : Nat) (n : Node) : Composer :=
  match number with
  | none => c
  | some k =>
    if c.anchored.any fun (k', start', _) => k' = k && start < start' then c
    else { c with anchored := (k, start, n) :: c.anchored.filter (·.1 ≠ k) }

/-- Gives a name its number, which is how many names there are. -/
def name (c : Composer) : Option String → Composer × Option Nat
  | none => (c, none)
  | some a =>
    let names := (a, c.names.length) :: c.names.filter (·.1 ≠ a)
    ({ c with names := names }, some c.names.length)

def openFrame (c : Composer) (isMapping : Bool) (anchorName tag : Option String) (m : Mark) :
    Composer :=
  let (c, number) := c.name anchorName
  { c with frames := ⟨isMapping, number, c.size, tag, m, []⟩ :: c.frames, size := c.size + 1 }

def closeFrame (c : Composer) : Composer :=
  match c.frames with
  | [] => c
  | f :: frames =>
    let c := { c with frames := frames, size := c.size + 1 }
    (c.anchor f.number f.start (close f)).deliver (close f)

/-- Closes what is open after the text broke off. -/
def breakOff (c : Composer) : List Frame → Composer
  | [] => c
  | _ :: frames => breakOff c.closeFrame frames

/-- The document once its events are at an end. -/
def document (c : Composer) (broken alone : Bool) : Document :=
  let whole := if broken then
      (if c.root.isSome then c else c.deliver .broken).breakOff c.frames
    else c
  ⟨whole.root.getD .broken, whole.anchored.map fun (k, _, n) => (k, n), c.size, alone⟩

end Composer

/-- The document that the events make up; `c` is what has come in so far. -/
def composeFrom (c : Composer) : List Event → Document
  | [] => c.document true false
  | ⟨kind, m⟩ :: rest =>
    match kind with
    | .streamEnd => ⟨.scalar ⟨none, "", .plain⟩ m, [], 1, true⟩
    | .documentStart => composeFrom c rest
    -- whatever stands behind the document makes it one of several
    | .documentEnd => c.document false (match rest with | [⟨.streamEnd, _⟩] => true | _ => false)
    | .alias a =>
      match c.names.lookup a with
      | some number => composeFrom ({ c with size := c.size + 1 }.deliver (.alias number m)) rest
      | none => c.document true false
    | .scalar anchorName s =>
      let (c, number) := c.name anchorName
      let c := c.anchor number c.size (.scalar s m)
      composeFrom ({ c with size := c.size + 1 }.deliver (.scalar s m)) rest
    | .sequenceStart anchorName tag => composeFrom (c.openFrame false anchorName tag m) rest
    | .mappingStart anchorName tag => composeFrom (c.openFrame true anchorName tag m) rest
    | .sequenceEnd | .mappingEnd => composeFrom c.closeFrame rest

/-- The first document of a text; an empty stream holds an empty scalar. -/
def Document.ofText (text : String) : Document :=
  if text.toList.all isAllowed then
    composeFrom ⟨[], none, [], [], 0⟩ (eventsOf (Tokens.ofChars text.toList).tokens)
  else ⟨.broken, [], 0, false⟩

end Scaffold.Yaml
