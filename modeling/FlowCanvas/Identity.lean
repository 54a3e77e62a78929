import FlowCanvas.Canvas.Basic
import FlowCanvas.Diagram.Document
import FlowCanvas.Diagram.Label

namespace FlowCanvas.Identity

/-- The live nodes by label key; the first node with a key stands for it, and blank labels for
none. -/
def labelIndex : List Node → List (String × Node)
  | [] => []
  | n :: r =>
    let key := Label.matchKey n.label
    if key.isEmpty then labelIndex r
    else (key, n) :: (labelIndex r).filter (·.1 ≠ key)

/-- Pairs each declaration with the live node it stands for, if any, given the ids already spoken
for. The first declaration wins. -/
def pair (index : List (String × Node)) :
    List String → List NodeDecl → List (NodeDecl × Option Node)
  | _, [] => []
  | claimed, d :: r =>
    match (index.lookup (Label.matchKey d.label)).filter (!claimed.contains ·.id) with
    | some live => (d, some live) :: pair index (live.id :: claimed) r
    | none => (d, none) :: pair index claimed r

abbrev Counters := List (String × Nat)

def Counters.last (counters : Counters) (base : String) : Nat :=
  (counters.lookup base).getD 0

def Counters.set (counters : Counters) (base : String) (n : Nat) : Counters :=
  (base, n) :: counters

def numbered (base : String) (k : Nat) : String :=
  base ++ "_" ++ toString k

/-- The least number above the counter whose id is free. One more candidate than there are claimed
ids is enough. -/
def nextFree (base : String) (claimed : List String) (last : Nat) : Nat :=
  (((List.range (claimed.length + 1)).map (last + 1 + ·)).find? fun k =>
    !claimed.contains (numbered base k)).getD (last + 1 + claimed.length)

/-- A new id: the base itself if it is free, else the base with the next free number. -/
def mint (base : String) (claimed : List String) (counters : Counters) : String × Counters :=
  if claimed.contains base then
    let k := nextFree base claimed (counters.last base)
    (numbered base k, counters.set base k)
  else (base, counters)

structure Assignment where
  decl : NodeDecl
  /-- The live node whose identity it takes over. -/
  live : Option Node
  id : String

/-- Gives ids to the paired declarations in order. -/
def assign : List String → Counters → List (NodeDecl × Option Node) → List Assignment
  | _, _, [] => []
  | claimed, counters, (d, some live) :: r =>
    ⟨d, some live, live.id⟩ :: assign (live.id :: claimed) counters r
  | claimed, counters, (d, none) :: r =>
    let (id, counters) := mint d.id claimed counters
    ⟨d, none, id⟩ :: assign (id :: claimed) counters r

/-- The node that an assignment puts on the canvas. A node that lives on keeps its style, and its
position if it is to. -/
def Assignment.node (keepPositions : Bool) (a : Assignment) : Node where
  id := a.id
  kind := .text a.decl.kind.name
  label := a.decl.label
  subLabel := match a.decl.subLabel with
    | some s => .text s
    | none => .null
  position := if keepPositions then a.live.bind (·.position) else none
  style := match a.live with
    | some live => live.style
    | none => []

structure Link where
  id : String
  source : String
  target : String
  decl : EdgeDecl

def linkId (source target : String) (index : Nat) : String :=
  "e-" ++ source ++ "-" ++ target ++ "-" ++ toString index

structure Reconciliation where
  assignments : List Assignment
  nodes : List Node
  links : List Link

namespace Reconciliation

def identity (r : Reconciliation) : List (String × String) :=
  r.assignments.map fun a => (a.decl.id, a.id)

def reused (r : Reconciliation) : List String :=
  (r.assignments.filter (·.live.isSome)).map (·.id)

def created (r : Reconciliation) : List String :=
  (r.assignments.filter (·.live.isNone)).map (·.id)

end Reconciliation

def canvasId (assignments : List Assignment) (declared : String) : String :=
  ((assignments.find? (·.decl.id = declared)).map (·.id)).getD declared

def linkFrom (assignments : List Assignment) (index : Nat) : List EdgeDecl → List Link
  | [] => []
  | e :: r =>
    let source := canvasId assignments e.source
    let target := canvasId assignments e.target
    ⟨linkId source target index, source, target, e⟩ :: linkFrom assignments (index + 1) r

/-- Gives every declared node its canvas id and rewrites the connections, whose endpoints are all
declared. -/
def reconcile (document : Document) (edges : List EdgeDecl) (live : Snapshot)
    (keepPositions : Bool) : Reconciliation :=
  let pairs := pair (labelIndex live.nodes) [] document.nodes
  let claimed := pairs.filterMap fun p => p.2.map (·.id)
  let assignments := assign claimed [] pairs
  { assignments
    nodes := assignments.map (·.node keepPositions)
    links := linkFrom assignments 0 edges }

end FlowCanvas.Identity
