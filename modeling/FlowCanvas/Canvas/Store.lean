import FlowCanvas.Canvas.Copy
import FlowCanvas.Canvas.Interchange
import FlowCanvas.Value.Json.Reader
import FlowCanvas.Value.Json.Writer

namespace FlowCanvas

structure Store where
  nodes : List Node
  edges : List Edge
  /-- How many commits have been accepted. -/
  commits : Nat
  /-- While a reason is set, every commit is refused with it. -/
  lock : Option String

namespace Store

def ofSnapshot (s : Snapshot) : Store := ⟨s.nodes, s.edges, 0, none⟩

def empty : Store := ofSnapshot .empty

/-- What is on the canvas. Who reads the canvas is given a copy of it, which is the same where it
can be made at all. -/
def snapshot (s : Store) : Snapshot := ⟨s.nodes, s.edges⟩

def copy (depth : Nat) (s : Store) : Option Snapshot := s.snapshot.copy depth

inductive Rejection where
  | locked (reason : String)
  | outsideEdge (id : String)
  | unplacedNode (id : String)
  deriving DecidableEq, Repr

def Rejection.message : Rejection → String
  | locked reason => reason
  | outsideEdge id => "Edge " ++ id ++ " references a node outside the commit"
  | unplacedNode id => "Node " ++ id ++ " has no position"

def joins (nodes : List Node) (e : Edge) : Bool :=
  let ids := nodes.map (·.id)
  ids.contains e.source && ids.contains e.target

def rejection? (s : Store) (nodes : List Node) (edges : List Edge) : Option Rejection :=
  match s.lock, edges.find? (!joins nodes ·), nodes.find? (·.position.isNone) with
  | some reason, _, _ => some (.locked reason)
  | none, some e, _ => some (.outsideEdge e.id)
  | none, none, some n => some (.unplacedNode n.id)
  | none, none, none => none

def commit (s : Store) (nodes : List Node) (edges : List Edge) : Except Rejection Store :=
  match s.rejection? nodes edges with
  | some r => .error r
  | none => .ok { s with nodes, edges, commits := s.commits + 1 }

inductive LoadError where
  | notJson (error : Json.Error)
  | notObject
  | invalid (misfit : Misfit)
  deriving DecidableEq, Repr

def LoadError.message (file : String) : LoadError → String
  | notJson error => error.message
  | notObject => "Canvas file " ++ file ++ " must contain a JSON object"
  | invalid .tooLarge => Misfit.tooLarge.message
  | invalid misfit => "Invalid canvas file " ++ file ++ ": " ++ misfit.message

def load (text : String) : Except LoadError Store :=
  match Json.parse text with
  | .error error => .error (.notJson error)
  | .ok (.object fields) => ((Snapshot.ofFields fields).map ofSnapshot).mapError .invalid
  | .ok _ => .error .notObject

def save (s : Store) : String :=
  Json.pretty s.snapshot.toValue

end Store
end FlowCanvas
