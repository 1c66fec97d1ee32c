import Scaffold.Text.Columns
import Scaffold.Text.Split

/-! Tables for a terminal: a frame with round corners, a rule under the header, and a blank on
    either side of every cell. A cell may have several lines. -/

namespace Scaffold.Table

/-- A cell by lines. -/
abbrev Cell := List (List Char)

def cell (s : String) : Cell := Text.splitOn '\n' s.toList

/-- How many columns of the terminal a cell takes. -/
def cellWidth (c : Cell) : Nat := (c.map Text.columns).foldl max 0

def widths (rows : List (List Cell)) : List Nat :=
  match rows with
  | [] => []
  | first :: rest =>
    rest.foldl (fun ws row => List.zipWith max ws (row.map cellWidth)) (first.map cellWidth)

/-- A line with blanks after it up to a width. -/
def padTo (width : Nat) (line : List Char) : List Char :=
  line ++ List.replicate (width - Text.columns line) ' '

/-- A horizontal line of the frame. -/
def rule (left middle right : Char) (ws : List Nat) : List Char :=
  left :: Text.joinWith [middle] (ws.map fun w => List.replicate (w + 2) '─') ++ [right, '\n']

def rowLine (ws : List Nat) (row : List Cell) (i : Nat) : List Char :=
  let texts := List.zipWith (fun w c => ' ' :: padTo w (List.getD c i []) ++ [' ']) ws row
  '│' :: Text.joinWith ['│'] texts ++ ['│', '\n']

/-- A row, as high as its highest cell. -/
def rowChars (ws : List Nat) (row : List Cell) : List Char :=
  (List.range ((row.map List.length).foldl max 0)).flatMap (rowLine ws row)

def render (header : List String) (rows : List (List String)) : String :=
  let header := header.map cell
  let rows := rows.map (·.map cell)
  let ws := widths (header :: rows)
  String.ofList
    (rule '╭' '┬' '╮' ws ++ rowChars ws header ++ rule '├' '┼' '┤' ws
      ++ rows.flatMap (rowChars ws) ++ rule '╰' '┴' '╯' ws)

end Scaffold.Table
