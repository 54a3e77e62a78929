import FlowCanvas.Canvas.Basic
import FlowCanvas.Value.Convert

namespace FlowCanvas

namespace Point

def toValue (p : Point) : Value :=
  .record [("x", .float p.x), ("y", .float p.y)]

def origin : Point := ⟨0, 0⟩

def coordinate (name : String) (fields : Fields) : Except Misfit Float :=
  match fields.find? (.text name) with
  | some v => v.asFloat
  | none => .ok 0

/-- Reads a position; anything but an object means that there is none. -/
def ofValue : Value → Except Misfit (Option Point)
  | .object fields => do
    let x ← coordinate "x" fields
    let y ← coordinate "y" fields
    return some ⟨x, y⟩
  | _ => .ok none

end Point

def Fields.required (name : String) (fields : Fields) : Except Misfit String :=
  match fields.find? (.text name) with
  | some v => .ok v.plain
  | none => .error (.missingField name)

/-- A field that is written only if it holds something. -/
def optionalField (name : String) (v : Value) : List (String × Value) :=
  if v.isEmpty then [] else [(name, v)]

namespace Node

def toValue (n : Node) : Value :=
  .record ([
    ("id", .text n.id),
    ("type", n.kind),
    ("data", .record (("label", .text n.label) :: optionalField "subLabel" n.subLabel)),
    ("position", (n.position.getD Point.origin).toValue)] ++
    optionalField "style" (.object n.style))

def ofValue (entry : Value) : Except Misfit Node := do
  let fields ← entry.asObject
  let data := (fields.get "data").orNoFields
  let id ← fields.required "id"
  let details ← data.asObject
  let label := ((details.get "label").orElse (fields.get "label")).orElse (.text "")
  let position ← Point.ofValue (fields.get "position")
  let style ← (fields.get "style").orNoFields.asFields
  return {
    id
    kind := (fields.get "type").orElse (.text "process")
    label := label.plain
    subLabel := details.get "subLabel"
    position
    style }

end Node

namespace Edge

def toValue (e : Edge) : Value :=
  .record ([
    ("id", .text e.id),
    ("source", .text e.source),
    ("target", .text e.target),
    ("type", e.kind),
    ("animated", .flag e.animated),
    ("style", .object e.style)] ++
    optionalField "label" e.label)

def ofValue (entry : Value) : Except Misfit Edge := do
  let fields ← entry.asKeyed
  let id ← fields.required "id"
  let source ← fields.required "source"
  let target ← fields.required "target"
  let style ← (fields.get "style").orNoFields.asFields
  return {
    id
    source
    target
    kind := (fields.get "type").orElse (.text "default")
    animated := !(fields.get "animated").isEmpty
    label := fields.get "label"
    style }

end Edge

namespace Snapshot

def toValue (s : Snapshot) : Value :=
  .record [("nodes", .list (s.nodes.map Node.toValue)), ("edges", .list (s.edges.map Edge.toValue))]

def entries (name : String) (fields : Fields) : Except Misfit (List Value) :=
  ((fields.get name).orElse (.list [])).items

def ofFields (fields : Fields) : Except Misfit Snapshot := do
  let nodes ← (← entries "nodes" fields).mapM Node.ofValue
  let edges ← (← entries "edges" fields).mapM Edge.ofValue
  return ⟨nodes, edges⟩

def ofValue (payload : Value) : Except Misfit Snapshot := do
  ofFields (← payload.asObject)

end Snapshot
end FlowCanvas
