import FlowCanvas.Diagram.Document

namespace FlowCanvas

/-- A connection that was left out, and the undeclared ids that it names. -/
structure DanglingReference where
  source : String
  target : String
  missing : List String
  line : Nat
  deriving DecidableEq, Repr

def DanglingReference.message (d : DanglingReference) : String :=
  let names := ", ".intercalate (d.missing.map fun name => "'" ++ name ++ "'")
  let place := if d.line = 0 then "" else "Line " ++ toString d.line ++ ": "
  place ++ "Skipped connection " ++ d.source ++ " -> " ++ d.target ++ ": undeclared node " ++ names

namespace Document

def missing (d : Document) (e : EdgeDecl) : List String :=
  ([e.source, e.target].filter (!d.ids.contains ·)).eraseDups

def soundEdges (d : Document) : List EdgeDecl :=
  d.edges.filter (d.missing · = [])

def dangling (d : Document) : List DanglingReference :=
  (d.edges.filter (d.missing · ≠ [])).map fun e => ⟨e.source, e.target, d.missing e, e.line⟩

end Document
end FlowCanvas
