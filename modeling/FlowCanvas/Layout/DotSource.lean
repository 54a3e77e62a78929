import FlowCanvas.Canvas.Basic
import FlowCanvas.Layout.Digraph
import FlowCanvas.Layout.Footprint
import FlowCanvas.Layout.Options

namespace FlowCanvas.Layout

def escapeLabel (cs : List Char) : List Char :=
  cs.flatMap fun c =>
    if c = '\\' then ['\\', '\\'] else if c = '\n' then ['\\', 'n'] else [c]

def inches (d : Decimal) : List Char :=
  Decimal.sixDigitForm.write d

/-- The DOT name of the node at an index; canvas ids may hold characters with a meaning of their
own. -/
def dotName (index : Nat) : String :=
  "n" ++ toString index

variable {κ : Type}

def numberedNodes (index : Nat) : List (Node κ) → List (String × Node κ)
  | [] => []
  | n :: r => (dotName index, n) :: numberedNodes (index + 1) r

def dotNames (nodes : List (Node κ)) : List (String × String) :=
  (numberedNodes 0 nodes).map fun (name, n) => (name, n.id)

/-- The DOT name of an id; of several nodes with one id the last stands for it. -/
def nameOf? (names : List (String × String)) (id : String) : Option String :=
  (names.reverse.find? (·.2 = id)).map (·.1)

def kindAttributes (kind : NodeKind) : Digraph.Attributes :=
  [("height", inches kind.footprint.height), ("shape", kind.shape.toList),
    ("width", inches kind.footprint.width)]

def drawnNode (name : String) (n : Node κ) : Except Misfit Digraph.Node := do
  let kind ← NodeKind.ofDrawn n.kind
  return ⟨name, escapeLabel n.label.toList, kindAttributes kind⟩

def edgeLabel (v : Value) : Except Misfit (Option (List Char)) :=
  if v.isEmpty then .ok none
  else match v with
    | .text s => .ok (some (escapeLabel s.toList))
    | v => .error (.notText v.kindName "replace")

/-- An edge between nodes of the diagram; others are left out. -/
def drawnEdge? (names : List (String × String)) (e : Edge) :
    Except Misfit (Option Digraph.Edge) :=
  match nameOf? names e.source, nameOf? names e.target with
  | some tail, some head => do return some ⟨tail, head, ← edgeLabel e.label⟩
  | _, _ => .ok none

def seed : String := "1"

def graphAttributes (direction : Direction) (spacing : Spacing) : Digraph.Attributes :=
  [("nodesep", inches spacing.betweenNodes), ("ordering", "out".toList),
    ("rankdir", direction.name.toList), ("ranksep", inches spacing.betweenRanks),
    ("start", seed.toList)]

/-- Nodes keep the size they are given, whatever their labels. -/
def sizeAttributes : Digraph.Attributes :=
  [("fixedsize", "true".toList)]

def digraph (nodes : List (Node κ)) (edges : List Edge) (direction : Direction)
    (spacing : Spacing) : Except Misfit Digraph := do
  let drawnNodes ← (numberedNodes 0 nodes).mapM fun (name, n) => drawnNode name n
  let drawnEdges ← edges.mapM (drawnEdge? (dotNames nodes))
  return {
    attributes := graphAttributes direction spacing
    nodeAttributes := sizeAttributes
    nodes := drawnNodes
    edges := drawnEdges.filterMap id }

def dotSource (write : Digraph → String) (nodes : List (Node κ)) (edges : List Edge)
    (direction : Direction) (spacing : Spacing) : Except Misfit String :=
  (digraph nodes edges direction spacing).map write

end FlowCanvas.Layout
