import FlowCanvas.Diagram.Vocabulary

namespace FlowCanvas.Diagram

/-- What can be wrong with one line. -/
inductive Fault where
  | unknownDirection (word : String)
  | noKind
  | noLabel
  | unknownStyle (word : String)
  | missingEndpoint
  | inlineNode
  | lateHeader
  | unrecognised
  deriving DecidableEq, Repr

def Fault.reason : Fault → String
  | unknownDirection word =>
    "unknown direction '" ++ word ++ "' (expected one of " ++
      ", ".intercalate (Direction.all.map Direction.name) ++ ")"
  | noKind => "expected '[type] label'"
  | noLabel => "node declaration has no label"
  | unknownStyle word =>
    "unknown edge style '" ++ word ++ "' (expected one of " ++
      ", ".intercalate (LineStyle.all.map LineStyle.name) ++ ")"
  | missingEndpoint => "connection is missing an endpoint"
  | inlineNode => "connections must reference declared nodes; declare nodes on their own lines"
  | lateHeader => "header directives must come before nodes and connections"
  | unrecognised => "expected a header, '[type] label' node or 'A -> B' connection"

inductive Error where
  /-- A line that is malformed or stands in the wrong place. -/
  | malformed (fault : Fault) (line : Nat) (text : String)
  /-- A node declared after the first connection. -/
  | misplacedNode (line : Nat) (text : String)
  /-- A node id declared before, on `firstLine`. -/
  | repeatedId (id : String) (line firstLine : Nat)
  deriving DecidableEq, Repr

namespace Error

def line : Error → Nat
  | malformed _ line _ | misplacedNode line _ | repeatedId _ line _ => line

def reason : Error → String
  | malformed fault _ _ => fault.reason
  | misplacedNode _ _ =>
    "node declarations must come before all connections (found a node after the first edge)"
  | repeatedId id _ firstLine =>
    "node id '" ++ id ++ "' is already declared on line " ++ toString firstLine

def message (e : Error) : String :=
  "Line " ++ toString e.line ++ ": " ++ e.reason

end Error
end FlowCanvas.Diagram
