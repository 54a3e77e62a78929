import FlowCanvas.Layout.Error
import FlowCanvas.Layout.Grid
import FlowCanvas.Layout.Options
import FlowCanvas.Value.Convert

namespace FlowCanvas.Layout

inductive EngineFailure where
  | reported (error : Error)
  | timedOut
  | crashed (message : String)

variable {κ : Type} [Coordinate κ]

/-- All nodes placed, whether on the grid in place of an engine, and what the engine failed with. -/
structure Placement (κ : Type := Float) where
  nodes : List (Node κ)
  isFallback : Bool
  error : Option Error

def pending (nodes : List (Node κ)) : List (Node κ) :=
  nodes.filter (·.position.isNone)

def kept (nodes : List (Node κ)) : List (Point κ) :=
  nodes.filterMap (·.position)

def greatest (first : κ) (rest : List κ) : κ :=
  rest.foldl (fun best c => if Coordinate.before best c then c else best) first

def least (first : κ) (rest : List κ) : κ :=
  rest.foldl (fun best c => if Coordinate.before c best then c else best) first

/-- Moves positions one row past the lowest of the given points, or for a horizontal flow one column
past the rightmost. -/
def placeAfter (points : List (Point κ)) (positions : Positions κ) (direction : Direction) :
    Positions κ :=
  match points, positions with
  | [], _ | _, [] => positions
  | point :: points, first :: rest =>
    if direction.isHorizontal then
      let start := greatest point.x (points.map (·.x)) + Coordinate.ofNat columnWidth
      let left := least first.2.x (rest.map (·.2.x))
      positions.map fun (id, p) => (id, ⟨p.x - left + start, p.y⟩)
    else
      let start := greatest point.y (points.map (·.y)) + Coordinate.ofNat rowHeight
      let top := least first.2.y (rest.map (·.2.y))
      positions.map fun (id, p) => (id, ⟨p.x, p.y - top + start⟩)

/-- Gives every node without a position the one under its id. -/
def withPositions (positions : Positions κ) (nodes : List (Node κ)) : List (Node κ) :=
  nodes.map fun n => { n with position := n.position.or (positions.get? n.id) }

def restrict (positions : Positions κ) (nodes : List (Node κ)) : Positions κ :=
  nodes.foldl (fun table n => match positions.get? n.id with
    | some p => table.put n.id p
    | none => table) []

def onGrid (options : Options) (nodes : List (Node κ)) (error : Error) : Placement κ where
  nodes := withPositions
    (placeAfter (kept nodes) (grid ((pending nodes).map (·.id)) options.direction)
      options.direction)
    nodes
  isFallback := true
  error := some error

/-- Places nodes without an engine where that can be done: if all have a position, or if the time
limit cannot be kept because it is past the range of doubles. -/
def withoutEngine? (options : Options) (nodes : List (Node κ)) : Option (Placement κ) :=
  if (pending nodes).isEmpty then some ⟨nodes, false, none⟩
  else if options.timeout.toFloat?.isNone then
    some (onGrid options nodes (.crashed Misfit.tooLarge.message))
  else none

/-- A time limit that is not a number has always run out. -/
def hasRunOut (options : Options) : Bool :=
  match options.timeout with
  | .float x => x.isNaN
  | .int _ => false

/-- Why the answer of an engine cannot be used, if so. -/
def engineError? (options : Options) (nodes : List (Node κ))
    (outcome : Except EngineFailure (Positions κ)) : Option Error :=
  if hasRunOut options then some (.timedOut options.timeout)
  else match outcome with
    | .error (.reported error) => some error
    | .error .timedOut => some (.timedOut options.timeout)
    | .error (.crashed message) => some (.crashed message)
    | .ok positions =>
      let missing := ((pending nodes).map (·.id)).filter (!positions.has ·)
      if missing.isEmpty then none else some (.unplaced missing)

def byEngine (options : Options) (nodes : List (Node κ))
    (outcome : Except EngineFailure (Positions κ)) : Placement κ :=
  match engineError? options nodes outcome, outcome with
  | some error, _ => onGrid options nodes error
  | none, .error _ => ⟨nodes, false, none⟩
  | none, .ok positions =>
    let placed := restrict positions (pending nodes)
    ⟨withPositions (placeAfter (kept nodes) placed options.direction) nodes, false, none⟩

/-- Places nodes, given what the engine would answer. -/
def place (options : Options) (nodes : List (Node κ))
    (outcome : Except EngineFailure (Positions κ)) : Placement κ :=
  (withoutEngine? options nodes).getD (byEngine options nodes outcome)

end FlowCanvas.Layout
