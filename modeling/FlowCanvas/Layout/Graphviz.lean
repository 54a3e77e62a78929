import FlowCanvas.Layout.DotSource
import FlowCanvas.Layout.Placement
import FlowCanvas.Value.Json.Reader

namespace FlowCanvas.Layout.Graphviz

structure Call where
  arguments : List String
  source : String

inductive Behaviour where
  | absent
  | timesOut
  | finishes (code : Int) (stdout stderr : String)

def pointsPerInch : Float := 72.0

/-- A point from two numbers separated by a comma; more may follow. -/
def pointOf? : Value → Option Point
  | .text s =>
    match Text.pieces (· = ',') s.toList with
    | x :: y :: _ => do
      return ⟨← Decimal.floatOfText? x, ← Decimal.floatOfText? y⟩
    | _ => none
  | _ => none

/-- The height of the bounding box, zero if it is not given by four numbers. -/
def boxHeight (reply : Fields) : Float :=
  match reply.get "bb" with
  | .text s =>
    match (Text.pieces (· = ',') s.toList).mapM Decimal.floatOfText? with
    | some [_, bottom, _, top] => top - bottom
    | _ => 0
  | _ => 0

def isText (word : String) : Value → Bool
  | .text s => s == word
  | _ => false

/-- Whether an object of the reply is a cluster, which lists nodes of its own. -/
def isCluster : Value → Except Misfit Bool
  | .object fields => .ok (Fields.find? (.text "nodes") fields).isSome
  | .list items => .ok (items.any (isText "nodes"))
  | .text s => .ok (Text.occurs "nodes".toList s.toList)
  | v => .error (.notContainer v.kindName)

def lengthOf (name : String) (fields : Fields) : Except Misfit Float := do
  let inches ← match fields.find? (.text name) with
    | some v => v.asFloat
    | none => .ok 0
  return inches * pointsPerInch

def nodeId? (names : List (String × String)) (fields : Fields) : Except Misfit (Option String) :=
  match fields.find? (.text "name") with
  | none => .ok (names.lookup "")
  | some (.text name) => .ok (names.lookup name)
  | some v =>
    match Key.ofValue? v with
    | some _ => .ok none
    | none => .error (.badKey v.kindName)

/-- The position that an object of the reply gives to a node. A reply has centre points with y
upwards, and a canvas top left corners with y downwards. -/
def placed? (height : Float) (names : List (String × String)) (item : Value) :
    Except Misfit (Option (String × Point)) := do
  if ← isCluster item then return none
  let fields ← item.asObject
  match ← nodeId? names fields, pointOf? (fields.get "pos") with
  | some id, some centre =>
    let width ← lengthOf "width" fields
    let nodeHeight ← lengthOf "height" fields
    let x := Decimal.roundToCents (centre.x - width / 2)
    let y := Decimal.roundToCents ((height - centre.y) - nodeHeight / 2)
    return some (id, ⟨x, y⟩)
  | _, _ => return none

/-- The positions in a reply; of several for one node the last counts. -/
def positionsOf (reply : Value) (names : List (String × String)) : Except Misfit Positions := do
  let fields ← reply.asObject
  let height := boxHeight fields
  let objects ← ((fields.find? (.text "objects")).getD (.list [])).items
  let placed ← objects.mapM (placed? height names)
  return (placed.filterMap id).foldl (fun table (id, p) => Table.put id p table) []

inductive Failure where
  | layout (error : Error)
  | misfit (misfit : Misfit)
  /-- The reply goes past a limit of what is read. -/
  | limit (error : Json.Error)

/-- What the program is asked for a diagram, given what writes its graph. -/
def call (write : Digraph → String) (nodes : List Node) (edges : List Edge) (options : Options) :
    Except Misfit Call := do
  let source ← dotSource write nodes edges options.direction options.spacing
  return ⟨["dot", "-K" ++ options.algorithm.engine.name, "-Tjson"], source⟩

def answer (limit : Number) : Behaviour → Except Failure Value
  | .absent => .error (.layout .unavailable)
  | .timesOut =>
    if limit.toFloat?.isNone then .error (.misfit .tooLarge) else .error (.layout (.timedOut limit))
  | .finishes code stdout stderr =>
    if code ≠ 0 ∨ stdout.isEmpty then
      .error (.layout (.refused (String.ofList (Text.trim stderr.toList))))
    else match Json.parse stdout with
      | .ok v => .ok v
      | .error error =>
        .error (if error.reason.isLimit then .limit error else .layout (.unreadableReply error))

/-- Lays out a diagram; one without nodes is not sent to the program. -/
def layout (nodes : List Node) (edges : List Edge) (options : Options) (behaviour : Behaviour) :
    Except Failure Positions := do
  if nodes.isEmpty then return []
  let _ ← (digraph nodes edges options.direction options.spacing).mapError Failure.misfit
  let reply ← answer options.timeout behaviour
  (positionsOf reply (dotNames nodes)).mapError Failure.misfit

def calls (write : Digraph → String) (nodes : List Node) (edges : List Edge) (options : Options)
    (behaviour : Behaviour) : List Call :=
  match behaviour, call write nodes edges options with
  | .absent, _ | _, .error _ => []
  | _, .ok c => if nodes.isEmpty then [] else [c]

def Failure.asEngine : Failure → EngineFailure
  | layout error => .reported error
  | misfit m => .crashed m.message
  | limit error => .crashed error.message

def engine (behaviour : Behaviour) (nodes : List Node) (edges : List Edge) (options : Options) :
    Except EngineFailure Positions :=
  (layout nodes edges options behaviour).mapError Failure.asEngine

end FlowCanvas.Layout.Graphviz
