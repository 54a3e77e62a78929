namespace FlowCanvas.Layout

namespace Digraph

/-- Attributes by name, in the order in which they are written. -/
abbrev Attributes := List (String × List Char)

structure Node where
  name : String
  label : List Char
  attributes : Attributes

structure Edge where
  tail : String
  head : String
  label : Option (List Char)

end Digraph

/-- A graph as it is handed to the library that writes it as DOT. -/
structure Digraph where
  attributes : Digraph.Attributes
  nodeAttributes : Digraph.Attributes
  nodes : List Digraph.Node
  edges : List Digraph.Edge

section Values

def isNameStart (c : Char) : Bool :=
  c.isAlpha || c = '_'

def isPlainName : List Char → Bool
  | [] => false
  | c :: r => isNameStart c && r.all fun d => isNameStart d || d.isDigit

def isPlainNumber (cs : List Char) : Bool :=
  let body := match cs with
    | '-' :: r => r
    | r => r
  match body.takeWhile Char.isDigit, body.dropWhile Char.isDigit with
  | [], '.' :: fraction => !fraction.isEmpty && fraction.all Char.isDigit
  | _ :: _, [] => true
  | _ :: _, '.' :: fraction => fraction.all Char.isDigit
  | _, _ => false

def keywords : List String := ["node", "edge", "graph", "digraph", "subgraph", "strict"]

def isKeyword (cs : List Char) : Bool :=
  keywords.contains (String.ofList (cs.map Char.toLower))

/-- Whether a value is taken for markup, from one angle bracket to the other. -/
def isMarkup : List Char → Bool
  | '<' :: r => r.getLast? = some '>'
  | _ => false

/-- Whether a value is written as it is although it is no markup. -/
def isBare (cs : List Char) : Bool :=
  (isPlainName cs || isPlainNumber cs) && !isKeyword cs

/-- Escapes quotation marks, after a run of backslashes of the given length. -/
def escapeQuotes (run : Nat) : List Char → List Char
  | [] => List.replicate run '\\'
  | c :: r =>
    if c = '\\' then escapeQuotes (run + 1) r
    -- An odd backslash before a mark already escapes it.
    else if c = '"' then List.replicate (run - run % 2) '\\' ++ '\\' :: '"' :: escapeQuotes 0 r
    else List.replicate run '\\' ++ c :: escapeQuotes 0 r

def attributeValue (cs : List Char) : List Char :=
  if isMarkup cs then cs
  else if isBare cs then cs
  else '"' :: escapeQuotes 0 cs ++ ['"']

def attributeList (attributes : Digraph.Attributes) : String :=
  " ".intercalate
    (attributes.map fun (key, value) => key ++ "=" ++ String.ofList (attributeValue value))

end Values

namespace Digraph

def bracketed : Attributes → String
  | [] => ""
  | attributes => " [" ++ attributeList attributes ++ "]"

def graphLine : Attributes → String
  | [] => ""
  | attributes => "\t" ++ attributeList attributes ++ "\n"

def nodesLine : Attributes → String
  | [] => ""
  | attributes => "\tnode" ++ bracketed attributes ++ "\n"

def Node.line (n : Node) : String :=
  "\t" ++ n.name ++ bracketed (("label", n.label) :: n.attributes) ++ "\n"

def Edge.line (e : Edge) : String :=
  "\t" ++ e.tail ++ " -> " ++ e.head ++ bracketed (e.label.toList.map (("label", ·))) ++ "\n"

/-- The documented text of a graph, one statement a line. -/
def text (g : Digraph) : String :=
  "digraph G \x7b\n" ++ graphLine g.attributes ++ nodesLine g.nodeAttributes ++
    String.join (g.nodes.map Node.line) ++ String.join (g.edges.map Edge.line) ++ "\x7d\n"

/-- Whether attributes are in the order of their names, and neither names nor line breaks among them
ask for more than quotes around a value. -/
def ArePlain (attributes : Attributes) : Prop :=
  (attributes.map (·.1)).Pairwise (· < ·) ∧
    ∀ p ∈ attributes, isBare p.1.toList = true ∧ '\n' ∉ p.2

instance (attributes : Attributes) : Decidable (ArePlain attributes) :=
  inferInstanceAs (Decidable (_ ∧ _))

/-- Whether nothing but values has to be quoted to write a graph. A bare name has no port. -/
structure IsPlain (g : Digraph) : Prop where
  attributes : ArePlain g.attributes
  nodeAttributes : ArePlain g.nodeAttributes
  nodes : ∀ n ∈ g.nodes, isBare n.name.toList = true ∧ '\n' ∉ n.label ∧ ArePlain n.attributes
  edges : ∀ e ∈ g.edges, isBare e.tail.toList = true ∧ isBare e.head.toList = true ∧
    ∀ label, e.label = some label → '\n' ∉ label

/-- What is assumed of the library that writes graphs. -/
def IsDocumented (write : Digraph → String) : Prop :=
  ∀ g : Digraph, g.IsPlain → write g = g.text

theorem isDocumented_text : IsDocumented text :=
  fun _ _ => rfl

end Digraph
end FlowCanvas.Layout
