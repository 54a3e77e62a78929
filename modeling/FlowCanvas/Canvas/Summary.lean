import FlowCanvas.Canvas.Interchange
import FlowCanvas.Value.Json.Writer

namespace FlowCanvas

def Node.summary (n : Node) : Value :=
  .record ([("id", .text n.id), ("type", n.kind), ("label", .text n.label)] ++
    optionalField "description" n.subLabel ++
    match n.position with
    | some p => [("x", .float p.x), ("y", .float p.y)]
    | none => [])

def Edge.summary (e : Edge) : Value :=
  .record
    ([("source", .text e.source), ("target", .text e.target)] ++ optionalField "label" e.label)

def Snapshot.summary (s : Snapshot) : String :=
  if s.nodes.isEmpty then ""
  else
    Json.compact (.record [
      ("nodes", .list (s.nodes.map Node.summary)), ("edges", .list (s.edges.map Edge.summary))])

end FlowCanvas
