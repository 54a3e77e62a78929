import FlowCanvas.Canvas.Basic

namespace FlowCanvas

/-- A copy of a value. It is made level by level, and breaks off where a list or object stands
deeper than it can go. -/
def Value.copy : Nat → Value → Option Value
  | 0, _ => none
  | depth + 1, .list items => (items.mapM (copy depth)).map .list
  | depth + 1, .object fields =>
    (fields.mapM fun f => (copy depth f.2).map (f.1, ·)).map .object
  | _ + 1, v => some v

def Fields.copy : Nat → Fields → Option Fields
  | 0, _ => none
  | depth + 1, fields => fields.mapM fun f => (f.2.copy depth).map (f.1, ·)

def Node.copy (depth : Nat) (n : Node) : Option Node := do
  let kind ← n.kind.copy depth
  let subLabel ← n.subLabel.copy depth
  let style ← n.style.copy depth
  return { n with kind, subLabel, style }

def Edge.copy (depth : Nat) (e : Edge) : Option Edge := do
  let kind ← e.kind.copy depth
  let label ← e.label.copy depth
  let style ← e.style.copy depth
  return { e with kind, label, style }

def Snapshot.copy (depth : Nat) (s : Snapshot) : Option Snapshot := do
  let nodes ← s.nodes.mapM (Node.copy depth)
  let edges ← s.edges.mapM (Edge.copy depth)
  return ⟨nodes, edges⟩

end FlowCanvas
