import FlowCanvas.Identity
import FlowCanvas.Settings.Basic

namespace FlowCanvas.Styling
open Identity

/-- The connector that a line style asks for. A dashed line keeps the connector of the settings. -/
def connector (style : Option LineStyle) (defaults : EdgeDefaults) : String :=
  match style with
  | some .straight => "straight"
  | some .curved => "default"
  | some .dashed | none => defaults.kind

def dashes : String := "5 5"

def colorOf (decl : EdgeDecl) (defaults : EdgeDefaults) : Option String :=
  ((decl.color.filter (!·.isEmpty)).or defaults.color).filter (!·.isEmpty)

def lineFields (decl : EdgeDecl) (defaults : EdgeDefaults) : Fields :=
  let width := match decl.width with
    | some w => Number.float w
    | none => defaults.width
  let color := match colorOf decl defaults with
    | some c => [(Key.text "stroke", Value.text c)]
    | none => []
  let dash :=
    if decl.style = some .dashed then [(Key.text "strokeDasharray", Value.text dashes)] else []
  (Key.text "strokeWidth", Value.number width) :: (color ++ dash)

def edgeOf (defaults : EdgeDefaults) (l : Link) : Edge where
  id := l.id
  source := l.source
  target := l.target
  kind := .text (connector l.decl.style defaults)
  animated := l.decl.animated = some true || defaults.animated
  label := match l.decl.label with
    | some s => .text s
    | none => .null
  style := lineFields l.decl defaults

end FlowCanvas.Styling
