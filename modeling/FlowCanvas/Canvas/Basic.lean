import FlowCanvas.Value.Basic

namespace FlowCanvas

structure Point (κ : Type := Float) where
  x : κ
  y : κ

/-- A drawn node. Its kind and sub-label are whatever the canvas holds; without a position it is
yet to be placed. -/
structure Node (κ : Type := Float) where
  id : String
  kind : Value
  label : String
  subLabel : Value
  position : Option (Point κ)
  style : Fields

structure Edge where
  id : String
  source : String
  target : String
  kind : Value
  animated : Bool
  label : Value
  style : Fields

structure Snapshot where
  nodes : List Node
  edges : List Edge

def Snapshot.empty : Snapshot := ⟨[], []⟩

end FlowCanvas
