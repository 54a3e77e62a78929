import FlowCanvas.Table
import FlowCanvas.Value.Yaml.Token

namespace FlowCanvas.Yaml

inductive Node where
  | text (content : String) (isPlain : Bool)
  | list (place : Nat)
  | map (place : Nat)
  deriving DecidableEq, Repr

abbrev Entries := List (Node × Node)

/-- A node, and what the lists and maps of its text hold. -/
structure Document where
  root : Node
  lists : List (Nat × List Node)
  maps : List (Nat × Entries)

namespace Node

def empty : Node := .text "" true

/-- What has been read so far: the nodes that have an anchor, and the lists and maps that are
complete. -/
structure Found where
  anchors : Table Node := []
  lists : List (Nat × List Node) := []
  maps : List (Nat × Entries) := []

/-- A part that has been read, what has been found by then, and fewer than `n` tokens left. -/
abbrev Read (α : Type) (n : Nat) := α × Found × { r : List Token // r.length < n }

def Read.map {α β : Type} {m n : Nat} (f : α → β) (h : m ≤ n) : Read α m → Read β n
  | (a, found, ⟨rest, hr⟩) => (f a, found, ⟨rest, by omega⟩)

def Read.asList {m n : Nat} (place : Nat) (h : m ≤ n) : Read (List Node) m → Read Node n
  | (items, found, ⟨rest, hr⟩) =>
    (.list place, { found with lists := (place, items) :: found.lists }, ⟨rest, by omega⟩)

def Read.asMap {m n : Nat} (place : Nat) (h : m ≤ n) : Read Entries m → Read Node n
  | (entries, found, ⟨rest, hr⟩) =>
    (.map place, { found with maps := (place, entries) :: found.maps }, ⟨rest, by omega⟩)

/-- What may stand in a place: inside brackets no block lists and maps, and a list without
indentation of its own only for a key or a value. -/
inductive Position where
  | flow
  | block
  | entry
  deriving DecidableEq, Repr

def startingAt? (p : Position) (ts : List Token) : Option Node :=
  match ts with
  | .text content isPlain :: _ => some (.text content isPlain)
  | .flowList :: _ => some (.list ts.length)
  | .flowMap :: _ => some (.map ts.length)
  | .blockList :: _ => if p = .flow then none else some (.list ts.length)
  | .blockMap :: _ => if p = .flow then none else some (.map ts.length)
  | .item :: _ => if p = .entry then some (.list ts.length) else none
  | _ => none

def starts (p : Position) : List Token → Bool
  | .anchor _ :: _ | .alias _ :: _ => true
  | ts => (startingAt? p ts).isSome

def refuse {α : Type} : List Token → Except Error α
  | .fault e :: _ => .error e
  | _ => .error .malformed

/-- An entry inside brackets: a node, or a key and its value, and the place where it starts. -/
structure FlowEntry where
  place : Nat
  key : Node
  value : Option Node

/-- The items that the entries of a list make: one with a value is a map of its own. -/
def FlowEntry.items (entries : List FlowEntry) (found : Found) : List Node × Found :=
  (entries.map fun e => if e.value.isSome then .map e.place else e.key,
    { found with
      maps := entries.filterMap (fun e => e.value.map fun v => (e.place, [(e.key, v)])) ++
        found.maps })

def FlowEntry.pair (e : FlowEntry) : Node × Node :=
  (e.key, e.value.getD empty)

mutual

/-- Reads a node. Its anchor, which must be new, is known inside it. -/
def read (p : Position) (found : Found) (ts : List Token) : Except Error (Read Node ts.length) :=
  match ts with
  | .alias name :: r =>
    match found.anchors.get? name with
    | some n => .ok (n, found, ⟨r, by simp⟩)
    | none => .error .malformed
  | .anchor name :: r =>
    match r.head? with
    | some (.fault e) => .error e
    | _ =>
      if found.anchors.has name then .error .malformed
      else match startingAt? p r with
        | some n => do
          -- A list or map may refer to itself.
          let found := { found with anchors := found.anchors.put name n }
          return (← content p found r).map id (by simp)
        | none =>
          .ok (empty, { found with anchors := found.anchors.put name empty }, ⟨r, by simp⟩)
  | ts => content p found ts
termination_by (ts.length, 2)

def content (p : Position) (found : Found) (ts : List Token) :
    Except Error (Read Node ts.length) :=
  match ts with
  | .text content isPlain :: r => .ok (.text content isPlain, found, ⟨r, by simp⟩)
  | .flowList :: r => do
    let (entries, found, ⟨r1, _⟩) ← flowEntries .flowListEnd found r
    let (items, found) := FlowEntry.items entries found
    return Read.asList (r.length + 1) (Nat.le_refl _) (items, found, ⟨r1, by simp; omega⟩)
  | .flowMap :: r => do
    let read ← flowEntries .flowMapEnd found r
    return Read.asMap (r.length + 1) (by simp) (read.map (·.map FlowEntry.pair) (Nat.le_refl _))
  | .blockList :: r => do
    if p = .flow then throw .malformed
    return (← blockItems found r).asList (r.length + 1) (by simp)
  | .blockMap :: r => do
    if p = .flow then throw .malformed
    return (← blockEntries found r).asMap (r.length + 1) (by simp)
  | .item :: r => do
    -- A dash without indentation of its own makes a list only as a key or a value.
    if p ≠ .entry then throw .malformed
    let (n, found, ⟨r1, _⟩) ← orEmpty .block found r
    let read ← looseItems found r1
    return Read.asList (r.length + 1) (by simp; omega) (read.map (n :: ·) (Nat.le_refl _))
  | ts => refuse ts
termination_by (ts.length, 1)

def orEmpty (p : Position) (found : Found) (ts : List Token) :
    Except Error (Read Node (ts.length + 1)) :=
  if starts p ts then (read p found ts).map (·.map id (by omega))
  else .ok (empty, found, ⟨ts, by omega⟩)
termination_by (ts.length, 3)

def valueOrEmpty (p : Position) (found : Found) (ts : List Token) :
    Except Error (Read Node (ts.length + 1)) :=
  match ts with
  | .value :: r => (orEmpty p found r).map (·.map id (by simp))
  | ts => .ok (empty, found, ⟨ts, by omega⟩)
termination_by (ts.length, 0)

def blockItems (found : Found) (ts : List Token) : Except Error (Read (List Node) ts.length) :=
  match ts with
  | .blockEnd :: r => .ok ([], found, ⟨r, by simp⟩)
  | .item :: r => do
    let (n, found, ⟨r1, _⟩) ← orEmpty .block found r
    return (← blockItems found r1).map (n :: ·) (by simp; omega)
  | ts => refuse ts
termination_by (ts.length, 0)

def looseItems (found : Found) (ts : List Token) :
    Except Error (Read (List Node) (ts.length + 1)) :=
  match ts with
  | .item :: r => do
    let (n, found, ⟨r1, _⟩) ← orEmpty .block found r
    return (← looseItems found r1).map (n :: ·) (by simp; omega)
  | ts => .ok ([], found, ⟨ts, by omega⟩)
termination_by (ts.length, 0)

def blockEntries (found : Found) (ts : List Token) : Except Error (Read Entries ts.length) :=
  match ts with
  | .blockEnd :: r => .ok ([], found, ⟨r, by simp⟩)
  | .key :: r => do
    let (k, found, ⟨r1, _⟩) ← orEmpty .entry found r
    let (v, found, ⟨r2, _⟩) ← valueOrEmpty .entry found r1
    return (← blockEntries found r2).map ((k, v) :: ·) (by simp; omega)
  | ts => refuse ts
termination_by (ts.length, 0)

def flowEntry (found : Found) (ts : List Token) : Except Error (Read FlowEntry ts.length) :=
  match ts with
  | .key :: r => do
    let (k, found, ⟨r1, _⟩) ← orEmpty .flow found r
    return (← valueOrEmpty .flow found r1).map (fun v => ⟨r.length + 1, k, some v⟩)
      (by simp; omega)
  | ts => (read .flow found ts).map (·.map (⟨ts.length, ·, none⟩) (by omega))
termination_by (ts.length, 4)

def flowEntries (closing : Token) (found : Found) (ts : List Token) :
    Except Error (Read (List FlowEntry) ts.length) :=
  match ts with
  | [] => .error .malformed
  | t :: r =>
    if t = closing then .ok ([], found, ⟨r, by simp⟩)
    else do
      let (entry, found, ⟨r1, h⟩) ← flowEntry found (t :: r)
      match r1, h with
      | .comma :: r2, h =>
        have hr : r2.length < r.length := by simpa using h
        return (← flowEntries closing found r2).map (entry :: ·) (by simp; omega)
      | u :: r2, h =>
        if u = closing then .ok ([entry], found, ⟨r2, by simp at *; omega⟩) else refuse (u :: r2)
      | [], _ => .error .malformed
termination_by (ts.length, 5)

end

end Node

/-- Reads the only document of a text; a text without a document is a node left out. -/
def Document.ofTokens (ts : List Token) : Except Error Document := do
  let (root, found, rest) ← match ts with
    | [] => .ok (Node.empty, {}, [])
    | .documentStart :: r =>
      (Node.orEmpty .block {} r).map fun (n, found, ⟨rest, _⟩) => (n, found, rest)
    | ts => (Node.read .block {} ts).map fun (n, found, ⟨rest, _⟩) => (n, found, rest)
  match rest.dropWhile (· = Token.documentEnd) with
  | [] => return ⟨root, found.lists, found.maps⟩
  | rest => Node.refuse rest

end FlowCanvas.Yaml
