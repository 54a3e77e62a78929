import FlowCanvas.Diagram.Vocabulary

namespace FlowCanvas

/-- A declared node. Without an explicit id the label names it. -/
structure NodeDecl where
  id : String
  label : String
  kind : NodeKind
  subLabel : Option String
  /-- The kind as it was written. -/
  word : String
  explicitId : Bool
  line : Nat
  deriving DecidableEq, Repr

structure EdgeDecl where
  source : String
  target : String
  label : Option String
  style : Option LineStyle
  animated : Option Bool
  color : Option String
  width : Option Float
  line : Nat
  deriving Repr

structure Document where
  direction : Direction
  title : Option String
  nodes : List NodeDecl
  edges : List EdgeDecl
  deriving Repr

def Document.ids (d : Document) : List String :=
  d.nodes.map (·.id)

end FlowCanvas
