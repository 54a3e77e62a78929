import FlowCanvas.Canvas.Basic
import FlowCanvas.Diagram.Vocabulary
import FlowCanvas.Table

namespace FlowCanvas.Layout

class Coordinate (κ : Type) extends Add κ, Sub κ where
  ofNat : Nat → κ
  before : κ → κ → Bool

instance : Coordinate Float where
  ofNat := Float.ofNat
  before a b := a < b

instance : Coordinate Rat where
  ofNat n := n
  before a b := a < b

abbrev Positions (κ : Type := Float) := Table (Point κ)

def columnWidth : Nat := 280

def rowHeight : Nat := 160

/-- The least number whose square is at least `n`. -/
def columns (n : Nat) : Nat :=
  ((List.range n).find? fun c => n ≤ c * c).getD n

/-- Column and row of the node at an index. A horizontal flow fills columns instead of rows. -/
def cell (columns index : Nat) (direction : Direction) : Nat × Nat :=
  if direction.isHorizontal then (index / columns, index % columns)
  else (index % columns, index / columns)

variable {κ : Type} [Coordinate κ]

def cellPoint (c : Nat × Nat) : Point κ :=
  ⟨Coordinate.ofNat (c.1 * columnWidth), Coordinate.ofNat (c.2 * rowHeight)⟩

def gridFrom (columns index : Nat) (direction : Direction) (positions : Positions κ) :
    List String → Positions κ
  | [] => positions
  | id :: r =>
    gridFrom columns (index + 1) direction
      (positions.put id (cellPoint (cell columns index direction))) r

/-- A position for every id; an id that comes again moves to its last place. -/
def grid (ids : List String) (direction : Direction) : Positions κ :=
  gridFrom (columns ids.length) 0 direction [] ids

end FlowCanvas.Layout
