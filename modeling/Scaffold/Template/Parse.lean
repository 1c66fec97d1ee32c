import Scaffold.Template.Piece
import Scaffold.Text.Blank

/-! From pieces to a template: conditions and loops are nested, and the blanks next to hyphens are
    removed. -/

namespace Scaffold.Template

inductive Frame where
  | choice (branches : List (Hyphens × Option Expr × List Node)) (h : Hyphens)
      (condition : Option Expr)
  | loop (start : Hyphens) (key : Option String) (value : String) (container : Expr)
      (body : Option (List Node))

/-- The open conditions and loops, innermost first, each with the nodes in front of it, and the
    nodes of the innermost one. -/
structure Assembly where
  opened : List (Frame × List Node)
  nodes : List Node

/-- One more piece. Of the branches of a loop that begin with `else` the last one counts. -/
def Assembly.accept (a : Assembly) (p : Piece) : Option Assembly :=
  match p, a.opened with
  | .node n, _ => some { a with nodes := n :: a.nodes }
  | .ifTag h e, frames => some ⟨(.choice [] h (some e), a.nodes) :: frames, []⟩
  | .forTag h key value container, frames =>
    some ⟨(.loop h key value container none, a.nodes) :: frames, []⟩
  | .elifTag h e, (.choice branches h' (some c), before) :: frames =>
    some ⟨(.choice ((h', some c, a.nodes.reverse) :: branches) h (some e), before) :: frames, []⟩
  | .elseTag h, (.choice branches h' (some c), before) :: frames =>
    some ⟨(.choice ((h', some c, a.nodes.reverse) :: branches) h none, before) :: frames, []⟩
  | .elseTag _, (.loop start key value container body, before) :: frames =>
    let body := body.getD a.nodes.reverse
    some ⟨(.loop start key value container (some body), before) :: frames, []⟩
  | .endifTag h, (.choice branches h' condition, before) :: frames =>
    let all := ((h', condition, a.nodes.reverse) :: branches).reverse
    some ⟨frames, .choice all h :: before⟩
  | .endforTag h, (.loop start key value container none, before) :: frames =>
    some ⟨frames, .loop start key value container a.nodes.reverse none h :: before⟩
  | .endforTag h, (.loop start key value container (some body), before) :: frames =>
    some ⟨frames, .loop start key value container body (some a.nodes.reverse) h :: before⟩
  | _, _ => none

/-- The hyphens at the outer ends of a node. -/
def Node.hyphens : Node → Hyphens
  | .text _ => ⟨false, false⟩
  | .comment h | .output h _ | .assign h _ _ | .insertion h _ _ => h
  | .raw start _ finish => ⟨start.left, finish.right⟩
  | .loop start _ _ _ _ _ finish => ⟨start.left, finish.right⟩
  | .choice branches finish => ⟨branches.head?.any (·.1.left), finish.right⟩

/-- Whether the node after these has a hyphen at its left end. -/
def hyphenAhead (closing : Bool) : List Node → Bool
  | [] => closing
  | n :: _ => n.hyphens.left

/-- Whether the tag of the next branch, or the closing tag, has a hyphen at its left end. -/
def branchAhead (closing : Bool) : List (Hyphens × Option Expr × List Node) → Bool
  | [] => closing
  | (h, _, _) :: _ => h.left

mutual
/-- The nodes with blanks removed where a hyphen stands next to a text. `left` says whether one
    stands in front of the first node, and `right` whether one stands behind the last. -/
def trimNodes (left right : Bool) : List Node → List Node
  | [] => []
  | .text s :: rest =>
    let s := if left then Text.trimStart s else s
    let s := if hyphenAhead right rest then Text.trimEnd s else s
    let rest := trimNodes false right rest
    if s.isEmpty then rest else .text s :: rest
  | .comment h :: rest => .comment h :: trimNodes h.right right rest
  | .output h e :: rest => .output h e :: trimNodes h.right right rest
  | .assign h name e :: rest => .assign h name e :: trimNodes h.right right rest
  | .insertion h names ignored :: rest => .insertion h names ignored :: trimNodes h.right right rest
  | .raw start s finish :: rest =>
    let s := if start.right then Text.trimStart s else s
    let s := if finish.left then Text.trimEnd s else s
    .raw start s finish :: trimNodes finish.right right rest
  | .loop start key value container body otherwise finish :: rest =>
    -- what stands for no items keeps its blanks
    .loop start key value container (trimNodes start.right finish.left body) otherwise finish
      :: trimNodes finish.right right rest
  | .choice branches finish :: rest =>
    .choice (trimBranches finish.left branches) finish :: trimNodes finish.right right rest

/-- The branches of a condition, each trimmed at its start by its own tag and at its end by the
    next. -/
def trimBranches (closing : Bool) :
    List (Hyphens × Option Expr × List Node) → List (Hyphens × Option Expr × List Node)
  | [] => []
  | (h, c, body) :: rest =>
    (h, c, trimNodes h.right (branchAhead closing rest) body) :: trimBranches closing rest
end

/-- The nodes of a template; none if its text does not follow the rules. Comments in front of
    everything else are dropped with their hyphens. -/
def parse? (source : List Char) : Option (List Node) := do
  let pieces ← Piece.all? (16 * source.length + 64) source.length source
  let a ← (pieces.dropWhile Piece.isComment).foldlM Assembly.accept ⟨[], []⟩
  if a.opened.isEmpty then return trimNodes false false a.nodes.reverse else none

end Scaffold.Template
