import FlowCanvas.Layout.Options

namespace FlowCanvas

structure EdgeDefaults where
  kind : String := "smoothstep"
  animated : Bool := true
  width : Number := .float 2.0
  color : Option String := none

structure Settings where
  edges : EdgeDefaults := {}
  layout : Layout.Options := {}
  /-- Whether a node that stays on the canvas stays in its place. -/
  keepPositions : Bool := false
  /-- Whether the direction comes from the diagram rather than from the layout options. -/
  followDocument : Bool := true

def Settings.layoutFor (s : Settings) (direction : Direction) : Layout.Options :=
  if s.followDocument then { s.layout with direction } else s.layout

end FlowCanvas
