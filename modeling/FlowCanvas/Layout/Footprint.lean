import FlowCanvas.Decimal.Layout
import FlowCanvas.Diagram.Vocabulary
import FlowCanvas.Value.Convert

namespace FlowCanvas

structure Footprint where
  width : Decimal
  height : Decimal
  deriving DecidableEq, Repr

def NodeKind.footprint : NodeKind → Footprint
  | start | finish => ⟨⟨16, -1⟩, ⟨7, -1⟩⟩
  | process | system => ⟨⟨22, -1⟩, ⟨8, -1⟩⟩
  | decision => ⟨⟨2, 0⟩, ⟨13, -1⟩⟩
  | note => ⟨⟨24, -1⟩, ⟨1, 0⟩⟩
  | group => ⟨⟨32, -1⟩, ⟨16, -1⟩⟩
  | browser => ⟨⟨32, -1⟩, ⟨22, -1⟩⟩
  | mobile => ⟨⟨16, -1⟩, ⟨28, -1⟩⟩
  | button => ⟨⟨16, -1⟩, ⟨6, -1⟩⟩
  | field => ⟨⟨24, -1⟩, ⟨6, -1⟩⟩
  | icon => ⟨⟨8, -1⟩, ⟨8, -1⟩⟩
  | image => ⟨⟨2, 0⟩, ⟨16, -1⟩⟩

def NodeKind.shape : NodeKind → String
  | start | finish => "ellipse"
  | decision => "diamond"
  | note => "note"
  | icon => "circle"
  | system => "box3d"
  | process | group | browser | mobile | button | field | image => "box"

/-- The kind by which a node on the canvas is drawn; an empty or unknown one is drawn as a
process. -/
def NodeKind.ofDrawn (v : Value) : Except Misfit NodeKind :=
  match v.orElse (.text "process") with
  | .text s => .ok ((NodeKind.read? s).getD .process)
  | v => .error (.notText v.kindName "lower")

end FlowCanvas
