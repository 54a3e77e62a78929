import FlowCanvas.Diagram.Attribute
import FlowCanvas.Diagram.Document
import FlowCanvas.Diagram.Error
import FlowCanvas.Diagram.Line

namespace FlowCanvas.Diagram
open Text

structure Header where
  direction : Direction := .down
  title : Option String := none
  deriving DecidableEq, Repr

/-- The word of a header line and its value, without the colons before it. -/
def headerParts (cs : List Char) : List Char × List Char :=
  let (word, value) := (cutAt? (· = ' ') cs).getD (cs, [])
  -- A colon cuts the word that a blank has cut already, so the rest of that word goes to the value.
  let (word, value) := match cutAt? (· = ':') word with
    | some (w, rest) => (w, trim (rest ++ ' ' :: value))
    | none => (word, value)
  (word, trim ((trim value).dropWhile (· = ':')))

/-- Reads a header line into the header. Every word but the one for the title sets the direction. -/
def readHeader (cs : List Char) (header : Header) : Except Fault Header :=
  let (word, value) := headerParts cs
  if word = ['f', 'l', 'o', 'w'] then
    if value.isEmpty then .ok header
    else .ok { header with title := some (String.ofList (Label.clean value)) }
  else
    match Direction.read? (String.ofList value) with
    | some direction => .ok { header with direction }
    | none => .error (.unknownDirection (String.ofList value))

def splitKind? : List Char → Option (List Char × List Char)
  | '[' :: r => (cutAt? (· = ']') r).map fun (kind, rest) => (kind, trimStart rest)
  | _ => none

def isIdStart (c : Char) : Bool :=
  c.isAlphanum || c = '_'

def isIdChar (c : Char) : Bool :=
  isIdStart c || c = '.' || c = '-'

def isId : List Char → Bool
  | [] => false
  | c :: r => isIdStart c && r.all isIdChar

/-- The explicit id before the first colon, if what stands there is one and a label follows, and the
rest of the declaration. -/
def splitId (body : List Char) : Option String × List Char :=
  match cutAt? (· = ':') body with
  | some (candidate, rest) =>
    if isId (trim candidate) && !(trim rest).isEmpty then
      (some (String.ofList (trim candidate)), rest)
    else (none, body)
  | none => (none, body)

def subLabelKeys : List String := ["sub", "sublabel", "description"]

def readNode (line : Nat) (cs : List Char) : Except Fault NodeDecl :=
  match splitKind? cs with
  | none => .error .noKind
  | some (kindText, rest) =>
    let word := trim kindText
    let (body, block) := splitBlock rest
    let attributes := attributesOf (block.getD [])
    let (id, labelText) := splitId body
    let label := String.ofList (Label.clean labelText)
    if label.isEmpty then .error .noLabel
    else
      let kind := NodeKind.ofWord word
      .ok {
        id := id.getD label
        label
        kind
        subLabel := subLabelKeys.findSome? (filled? attributes)
        word := if word.isEmpty then kind.name else String.ofList word
        explicitId := id.isSome
        line }

def styleOf (attributes : Attributes) : Except Fault (Option LineStyle) :=
  match Table.get? "style" attributes with
  | some value =>
    let name := String.ofList (lower value.toList)
    match LineStyle.ofName? name with
    | some style => .ok (some style)
    | none => .error (.unknownStyle name)
  | none => .ok (LineStyle.all.find? fun style => Table.has style.name attributes)

def readEndpoint (segment : List Char) : Except Fault String :=
  let name := Label.clean segment
  if name.isEmpty then .error .missingEndpoint
  else if name.head? = some '[' || name.contains '|' then .error .inlineNode
  else .ok (String.ofList name)

def arrowLabel (afterArrow : List Char) : List Char × List Char :=
  match trimStart afterArrow with
  -- A bar that is never closed begins no label and stays in the endpoint.
  | '|' :: r => (cutAt? (· = '|') r).getD ([], afterArrow)
  | _ => ([], afterArrow)

theorem length_arrowLabel_le (cs : List Char) : (arrowLabel cs).2.length ≤ cs.length := by
  unfold arrowLabel
  split
  · next r h =>
    cases hc : cutAt? (· = '|') r with
    | none => simp
    | some p =>
      obtain ⟨c, -, hr⟩ := eq_append_of_cutAt? (b := p.1) (a := p.2) hc
      have hlen : (trimStart cs).length ≤ cs.length := (List.dropWhile_sublist _).length_le
      rw [h, hr] at hlen
      simp at hlen ⊢
      omega
  · simp

/-- A connection line cut at its arrows: the first segment, then each arrow's label with the
segment after it. -/
def splitArrows (cs : List Char) : List Char × List (List Char × List Char) :=
  match cs with
  | [] => ([], [])
  | '-' :: '>' :: r =>
    -- What stands between the bars is no place for an arrow.
    let next := splitArrows (arrowLabel r).2
    ([], ((arrowLabel r).1, next.1) :: next.2)
  | c :: r =>
    let next := splitArrows r
    (c :: next.1, next.2)
termination_by cs.length
decreasing_by
  · have := length_arrowLabel_le r
    simp
    omega
  · simp

/-- What all connections of a line share. -/
structure Look where
  style : Option LineStyle
  animated : Option Bool
  color : Option String
  width : Option Float
  deriving Repr

def lookOf (attributes : Attributes) : Except Fault Look := do
  return {
    style := ← styleOf attributes
    animated := (Table.get? "animated" attributes).map flagOf
    color := (filled? attributes "color").or (Table.get? "stroke" attributes)
    width :=
      ((filled? attributes "width").or (Table.get? "strokewidth" attributes)).bind numberIn? }

/-- One connection for each arrow, from the endpoint before it to the one after it. -/
def connect (look : Look) (line : Nat) (source : String) :
    List (List Char × String) → List EdgeDecl
  | [] => []
  | (labelText, target) :: r =>
    let label := String.ofList (Label.clean labelText)
    { source, target
      label := if label.isEmpty then none else some label
      style := look.style
      animated := look.animated
      color := look.color
      width := look.width
      line } :: connect look line target r

def readEdges (line : Nat) (cs : List Char) : Except Fault (List EdgeDecl) := do
  let (body, block) := splitBlock cs
  let look ← lookOf (attributesOf (block.getD []))
  let (first, hops) := splitArrows body
  let source ← readEndpoint first
  let targets ← hops.mapM fun (label, segment) => do return (label, ← readEndpoint segment)
  return connect look line source targets

inductive Phase where
  | headers
  | nodes
  | edges
  deriving DecidableEq, Repr

structure Draft where
  header : Header := {}
  phase : Phase := .headers
  nodes : List NodeDecl := []
  edges : List EdgeDecl := []
  deriving Repr

def Line.check {α : Type} (line : Line) (read : Except Fault α) : Except Error α :=
  read.mapError (.malformed · line.number line.text)

def Draft.add (draft : Draft) (line : Line) : Except Error Draft :=
  let cs := line.text.toList
  match line.kind with
  | .blank | .comment => .ok draft
  | .header =>
    if draft.phase ≠ .headers then .error (.malformed .lateHeader line.number line.text)
    else (line.check (readHeader cs draft.header)).map ({ draft with header := · })
  | .node =>
    if draft.phase = .edges then .error (.misplacedNode line.number line.text)
    else do
      -- A line that cannot be read is refused before its id is looked up.
      let node ← line.check (readNode line.number cs)
      match draft.nodes.find? (·.id = node.id) with
      | some first => .error (.repeatedId node.id line.number first.line)
      | none => .ok { draft with phase := .nodes, nodes := draft.nodes ++ [node] }
  | .edge => do
    let edges ← line.check (readEdges line.number cs)
    return { draft with phase := .edges, edges := draft.edges ++ edges }
  | .unknown => .error (.malformed .unrecognised line.number line.text)

def Draft.document (draft : Draft) : Document where
  direction := draft.header.direction
  title := draft.header.title
  nodes := draft.nodes
  edges := draft.edges

def parse (text : String) : Except Error Document :=
  ((linesOf text).foldlM Draft.add {}).map Draft.document

end FlowCanvas.Diagram
