/-! Sets of characters as runs of evenly spaced code points, the form in which the tables of the
    Unicode standard are kept here. -/

namespace Scaffold.Text

/-- The code points `first, first + step, …, last`. -/
structure CodeRun where
  first : Nat
  last : Nat
  step : Nat

def CodeRun.contains (r : CodeRun) (n : Nat) : Bool :=
  r.first ≤ n && n ≤ r.last && (n - r.first) % r.step == 0

def inRuns (runs : List CodeRun) (n : Nat) : Bool := runs.any (·.contains n)

end Scaffold.Text
