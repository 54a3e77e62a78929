import FlowCanvas.Text.Pieces
import FlowCanvas.Value.Basic
import FlowCanvas.Value.Yaml.Lexer
import FlowCanvas.Value.Yaml.Node
import FlowCanvas.Value.Yaml.Scalar

namespace FlowCanvas.Yaml

def mergeKey : String := "<<"

def valueKey : String := "="

namespace Node

def isMerge : Node → Bool
  | .text content true => content == mergeKey
  | _ => false

def scalar (content : String) (isPlain : Bool) : Except Error Value :=
  if !isPlain then .ok (.text content)
  else if content = mergeKey ∨ content = valueKey then .error .malformed
  else Scalar.value content

def key : Node → Except Error Key
  | .text content isPlain =>
    if isPlain && content != valueKey then do
      match Key.ofValue? (← Scalar.value content) with
      | some k => return k
      | none => throw .malformed
    else .ok (.text content)
  | .list _ | .map _ => .error .malformed

def check : Node → Except Error Unit
  | .text content isPlain => (scalar content isPlain).map fun _ => ()
  | .list _ | .map _ => .ok ()

def isText : Node → Bool
  | .text _ _ => true
  | .list _ | .map _ => false

end Node

namespace Document

def own (entries : Entries) : Entries :=
  entries.filter fun e => !e.1.isMerge

def take? {α : Type} (place : Nat) : (l : List (Nat × α)) → Option (α × Rest l)
  | [] => none
  | (p, a) :: r =>
    if p = place then some (a, ⟨r, by simp⟩)
    else (take? place r).map fun (b, ⟨rest, h⟩) => (b, ⟨(p, a) :: rest, by simpa using h⟩)

/-- The entries of a map, with those that are merged in before its own; none if something else than
maps is to be merged. `others` are the maps that are not being merged into anything; a map that is
adds its own entries only. Of several maps in a list the first counts most. -/
def entriesIn? (d : Document) (others : List (Nat × Entries)) (place : Nat) : Option Entries :=
  match take? place others with
  | none => some (own ((d.maps.lookup place).getD []))
  | some (entries, ⟨others, _⟩) => do
    let merged ← (entries.filter (·.1.isMerge)).mapM fun e =>
      match e.2 with
      | .map p => d.entriesIn? others p
      | .list p => do
        let parts ← ((d.lists.lookup p).getD []).mapM fun
          | .map q => d.entriesIn? others q
          | .list _ | .text _ _ => none
        return parts.reverse.flatten
      | .text _ _ => none
    return merged.flatten ++ own entries
termination_by others.length

def entries? (d : Document) (place : Nat) : Option Entries :=
  d.entriesIn? d.maps place

def fields (d : Document) (place : Nat) (value : Key → Node → Value) : Fields :=
  Fields.ofPairs (((d.entries? place).getD []).map fun (k, v) =>
    let key := (Node.key k).toOption.getD .null
    (key, value key v))

/-- The value of a node. `lists` and `maps` are those that it is not inside of; one that it is
inside of is only hinted at. -/
def valueIn (d : Document) (lists : List (Nat × List Node)) (maps : List (Nat × Entries))
    (n : Node) : Value :=
  match n with
  | .text content isPlain => (Node.scalar content isPlain).toOption.getD .null
  | .list place =>
    match take? place lists with
    | some (items, ⟨lists, _⟩) => .list (items.map (d.valueIn lists maps))
    | none => .other (Value.list []).kindName "[...]"
  | .map place =>
    match take? place maps with
    | some (_, ⟨maps, _⟩) => .object (d.fields place fun _ => d.valueIn lists maps)
    | none => .other (Value.object []).kindName "\x7b...\x7d"
termination_by lists.length + maps.length

def value (d : Document) (n : Node) : Value :=
  d.valueIn d.lists d.maps n

/-- Checks what a list or map holds, and gives the lists and maps among it. -/
def inspect (d : Document) (n : Node) : Except Error (List Node) := do
  match n with
  | .text _ _ => return []
  | .list place =>
    let items := (d.lists.lookup place).getD []
    items.forM Node.check
    return items.filter (!·.isText)
  | .map place =>
    match d.entries? place with
    | none => throw .malformed
    | some entries =>
      entries.forM fun (k, v) => do
        let _ ← k.key
        v.check
      return (entries.map (·.2)).filter (!·.isText)

/-- Checks all lists and maps that can be reached from those in a queue: each once, in the order in
which they come up. -/
def checkAll (d : Document) (unseen : List Node) (queue : List Node) : Except Error Unit :=
  match queue with
  | [] => .ok ()
  | n :: queue =>
    if n ∈ unseen then do
      let more ← d.inspect n
      d.checkAll (unseen.erase n) (queue ++ more)
    else d.checkAll unseen queue
termination_by (unseen.length, queue.length)
decreasing_by
  · have := List.length_erase_of_mem ‹n ∈ unseen›
    have := List.length_pos_of_mem ‹n ∈ unseen›
    simp_wf
    omega
  · exact Prod.Lex.right _ (Nat.lt_succ_self _)

def check (d : Document) : Except Error Unit := do
  d.root.check
  d.checkAll (d.lists.map (.list ·.1) ++ d.maps.map (.map ·.1)) [d.root]

end Document

/-- The document that a YAML text holds. An empty text holds null. -/
def parse (text : String) : Except Error Document := do
  let d ← Document.ofTokens (tokens text.toList)
  d.check
  return d

end FlowCanvas.Yaml
