import FlowCanvas.Settings.Basic
import FlowCanvas.Text.Blank
import FlowCanvas.Value.Convert

namespace FlowCanvas.Settings

inductive Section where
  | edges
  | layout
  | top
  deriving DecidableEq, Repr

def Section.name : Section → String
  | edges => "edge_defaults"
  | layout => "layout"
  | top => "pipeline"

def Section.known : Section → List String
  | edges => ["type", "animated", "stroke_width", "color"]
  | layout => ["direction", "algorithm", "spacing", "timeout"]
  | top => ["edge_defaults", "layout", "keep_positions", "follow_document_direction"]

inductive Error where
  | edgeKind (got : Value)
  | edgeAnimated (got : Value)
  | edgeWidth (got : Value)
  | edgeColor (got : Value)
  | layoutText (option : String) (got : Value)
  | direction (name : String)
  | spacing (name : String)
  | algorithm (name : String)
  | timeout (got : Value)
  | switch (option : String) (got : Value)
  | notMapping (group : Section) (kind : String)
  | unknownOptions (group : Section) (names : List String)
  /-- Unknown options of which at least one is not named by a text. -/
  | unnamedOption (group : Section)
  /-- The settings as a whole are no mapping. -/
  | misfit (misfit : Misfit)

def Error.message : Error → String
  | edgeKind got => "Edge type must be a non-empty string, got " ++ got.literal
  | edgeAnimated got => "Edge animated flag must be true or false, got " ++ got.literal
  | edgeWidth got => "Edge stroke width must be a positive number, got " ++ got.literal
  | edgeColor got => "Edge color must be a string, got " ++ got.literal
  | layoutText option got => "Layout " ++ option ++ " must be a string, got " ++ got.literal
  | direction name => "Unsupported layout direction: " ++ name
  | spacing name => "Unsupported layout spacing: " ++ name
  | algorithm name => "Unsupported layout algorithm: " ++ name
  | timeout got => "Layout timeout must be a positive number of seconds, got " ++ got.literal
  | switch option got => option ++ " must be true or false, got " ++ got.literal
  | notMapping group kind => group.name ++ " options must be a mapping, got " ++ kind
  | unknownOptions group names =>
    "Unknown " ++ group.name ++ " option(s): " ++ ", ".intercalate names
  | unnamedOption group => "Unknown " ++ group.name ++ " option(s) without a name"
  | misfit m => m.message

/-- The fields of a group, all of them known; null stands for no fields. -/
def group (s : Section) (v : Value) : Except Error Fields :=
  match v with
  | .null => .ok []
  | .object fields =>
    let unknown := (fields.map (·.1)).filter fun key =>
      !s.known.any fun name => key.same (.text name)
    let names := unknown.filterMap fun
      | .text name => some name
      | _ => none
    if unknown.isEmpty then .ok fields
    else if names.length < unknown.length then .error (.unnamedOption s)
    else .error (.unknownOptions s (names.mergeSort fun a b => a ≤ b))
  | v => .error (.notMapping s v.kindName)

def option {α : Type} (fields : Fields) (name : String) (default : α)
    (read : Value → Except Error α) : Except Error α :=
  match fields.find? (.text name) with
  | some v => read v
  | none => .ok default

def readKind : Value → Except Error String
  | .text s => if (Text.trim s.toList).isEmpty then .error (.edgeKind (.text s)) else .ok s
  | v => .error (.edgeKind v)

def readFlag (error : Value → Error) : Value → Except Error Bool
  | .flag b => .ok b
  | v => .error (error v)

def readPositive (error : Value → Error) : Value → Except Error Number
  | .number n => if n.atMostZero then .error (error (.number n)) else .ok n
  | v => .error (error v)

def readColor : Value → Except Error (Option String)
  | .null => .ok none
  | .text s => .ok (some s)
  | v => .error (.edgeColor v)

def readEdges (v : Value) : Except Error EdgeDefaults := do
  let fields ← group .edges v
  let kind ← option fields "type" ({} : EdgeDefaults).kind readKind
  let animated ← option fields "animated" ({} : EdgeDefaults).animated (readFlag .edgeAnimated)
  let width ← option fields "stroke_width" ({} : EdgeDefaults).width (readPositive .edgeWidth)
  let color ← option fields "color" none readColor
  return { kind, animated, width, color }

def readText (name : String) : Value → Except Error String
  | .text s => .ok s
  | v => .error (.layoutText name v)

def readName {α : Type} (ofName? : String → Option α) (error : String → Error) (s : String) :
    Except Error α :=
  match ofName? s with
  | some a => .ok a
  | none => .error (error s)

def readLayout (v : Value) : Except Error Layout.Options := do
  let fields ← group .layout v
  let defaults : Layout.Options := {}
  let direction ← option fields "direction" defaults.direction.name (readText "direction")
  let algorithm ← option fields "algorithm" defaults.algorithm.name (readText "algorithm")
  let spacing ← option fields "spacing" defaults.spacing.name (readText "spacing")
  let direction ← readName Direction.ofName? .direction direction
  let spacing ← readName Layout.Spacing.ofName? .spacing spacing
  let algorithm ← readName Layout.Algorithm.ofName? .algorithm algorithm
  let timeout ← option fields "timeout" defaults.timeout (readPositive .timeout)
  return { direction, algorithm, spacing, timeout }

/-- Reads settings from their fields: the groups first, then the switches. -/
def ofFields (fields : Fields) : Except Error Settings := do
  let edges ← readEdges (fields.get "edge_defaults")
  let layout ← readLayout (fields.get "layout")
  let fields ← group .top (.object fields)
  let keepPositions ←
    option fields "keep_positions" ({} : Settings).keepPositions
      (readFlag (.switch "keep_positions"))
  let followDocument ←
    option fields "follow_document_direction" ({} : Settings).followDocument
      (readFlag (.switch "follow_document_direction"))
  return { edges, layout, keepPositions, followDocument }

def ofValue (payload : Value) : Except Error Settings := do
  ofFields (← payload.orNoFields.asFields.mapError .misfit)

def edgesValue (e : EdgeDefaults) : Value :=
  .record [("type", .text e.kind), ("animated", .flag e.animated),
    ("stroke_width", .number e.width),
    ("color", match e.color with
      | some c => .text c
      | none => .null)]

def layoutValue (l : Layout.Options) : Value :=
  .record [("direction", .text l.direction.name), ("algorithm", .text l.algorithm.name),
    ("spacing", .text l.spacing.name), ("timeout", .number l.timeout)]

def toValue (s : Settings) : Value :=
  .record [("edge_defaults", edgesValue s.edges), ("layout", layoutValue s.layout),
    ("keep_positions", .flag s.keepPositions),
    ("follow_document_direction", .flag s.followDocument)]

end FlowCanvas.Settings
