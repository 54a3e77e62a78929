import FlowCanvas.Text.Lines

namespace FlowCanvas.Diagram
open Text

inductive LineKind where
  | header
  | node
  | edge
  | comment
  | blank
  | unknown
  deriving DecidableEq, Repr

structure Line where
  kind : LineKind
  number : Nat
  text : String
  deriving DecidableEq, Repr

def arrow : List Char := ['-', '>']

def hasArrow (cs : List Char) : Bool :=
  occurs arrow cs

def startsWithKind : List Char → Bool
  | '[' :: r => r.contains ']'
  | _ => false

/-- The text after a label between bars at its head, if there is one. -/
def afterLabel? : List Char → Option (List Char)
  | '|' :: r => (cutAt? (· = '|') r).map (·.2)
  | _ => none

/-- Whether a node declaration follows an arrow: its opening bracket, possibly after a label. -/
def opensNode (afterArrow : List Char) : Bool :=
  let r := trimStart afterArrow
  let r := match afterLabel? r with
    | some s => trimStart s
    | none => r
  r.head? = some '['

/-- Whether some arrow leads to a node declaration. -/
def hasInlineNode : List Char → Bool
  | '-' :: '>' :: r => opensNode r || hasInlineNode ('>' :: r)
  | _ :: r => hasInlineNode r
  | [] => false

def headerWords : List (List Char) :=
  [['f', 'l', 'o', 'w'], ['d', 'i', 'r', 'e', 'c', 't', 'i', 'o', 'n']]

/-- Whether a text is a header word, followed by a blank, a colon or nothing. -/
def startsHeader (cs : List Char) : Bool :=
  headerWords.any fun word => word.isPrefixOf cs &&
    match cs.drop word.length with
    | [] => true
    | c :: _ => isBlank c || c = ':'

/-- What a trimmed line is. An arrow makes a connection of it, unless the line declares a node and
no arrow leads to another declaration; then the arrow belongs to the label. -/
def classify (cs : List Char) : LineKind :=
  match cs with
  | [] => .blank
  | '#' :: _ => .comment
  | _ =>
    if hasArrow cs then
      if startsWithKind cs && !hasInlineNode cs then .node else .edge
    else if startsHeader cs then .header
    else if startsWithKind cs then .node
    else .unknown

def Line.of (number : Nat) (raw : List Char) : Line :=
  let cs := trim raw
  ⟨classify cs, number, String.ofList cs⟩

def numberFrom (n : Nat) : List (List Char) → List Line
  | [] => []
  | l :: r => Line.of n l :: numberFrom (n + 1) r

def linesOf (text : String) : List Line :=
  numberFrom 1 (tidyLines text.toList)

end FlowCanvas.Diagram
