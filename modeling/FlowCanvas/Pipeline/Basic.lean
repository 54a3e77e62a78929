import FlowCanvas.Canvas.Summary
import FlowCanvas.Diagram.Fence
import FlowCanvas.Diagram.Parser
import FlowCanvas.Layout.Placement
import FlowCanvas.Pipeline.Result
import FlowCanvas.Prompt
import FlowCanvas.Styling

namespace FlowCanvas

structure Pipeline where
  store : Store
  settings : Settings
  history : List Message
  stage : Pipeline.Stage
  /-- The token of the latest call; tokens count up from one. -/
  latest : Nat

namespace Pipeline

def ofStore (store : Store) (settings : Settings) : Pipeline where
  store
  settings
  history := []
  stage := .idle
  latest := 0

structure Run where
  token : Nat
  /-- The canvas that the diagram was reconciled with. -/
  base : Snapshot
  options : Layout.Options
  nodes : List Node
  edges : List Edge
  dangling : List DanglingReference
  trail : List Stage

/-- The run of a document against a snapshot of the canvas: reconciled with it and styled, but not
yet laid out. -/
def Run.plan (settings : Settings) (document : Document) (token : Nat) (base : Snapshot) : Run :=
  let reconciliation :=
    Identity.reconcile document document.soundEdges base settings.keepPositions
  { token
    base
    options := settings.layoutFor document.direction
    nodes := reconciliation.nodes
    edges := reconciliation.links.map (Styling.edgeOf settings.edges)
    dangling := document.dangling
    trail := [.parsing, .validating, .reconciling, .styling, .layingOut] }

/-- A call that waits for the text generator, with what the generator is given. -/
structure Request where
  token : Nat
  base : Snapshot
  history : List Message
  prompt : String
  current : String
  image : Option String

inductive Reply where
  | text (text : Option String)
  /-- It reports that it failed. -/
  | refused (message : String)
  /-- It breaks down with an error of some kind. -/
  | crashed (kind message : String)

inductive Progress where
  | finished (result : Result)
  | awaitsEngine (run : Run)

inductive Opening where
  | finished (result : Result)
  | awaitsGenerator (request : Request)

def isCurrent (p : Pipeline) (token : Nat) : Bool :=
  token = p.latest

def clearHistory (p : Pipeline) : Pipeline :=
  { p with history := [] }

def enter (p : Pipeline) (stage : Stage) : Pipeline :=
  { p with stage }

/-- Starts a call: it takes the next token. -/
def issue (p : Pipeline) : Pipeline × Nat :=
  ({ p with latest := p.latest + 1 }, p.latest + 1)

/-- Ends a call with a failure. Nothing but the stage changes. -/
def fail (p : Pipeline) (failure : Failure) (token : Nat) (trail : List Stage) :
    Pipeline × Result :=
  (p.enter .idle, {
    status := .failed failure
    token
    nodes := []
    edges := []
    warnings := []
    dropped := 0
    fallback := false
    trail := trail ++ [.failed, .idle] })

/-- Ends a run whose nodes are placed. It commits unless a newer call has started. -/
def conclude (p : Pipeline) (run : Run) (placement : Layout.Placement) : Pipeline × Result :=
  let result (status : Status) (trail : List Stage) : Result := {
    status
    token := run.token
    nodes := placement.nodes
    edges := run.edges
    warnings := run.dangling.map .dangling ++ (placement.error.map .layout).toList
    dropped := run.dangling.length
    fallback := placement.isFallback
    trail }
  if p.isCurrent run.token then
    let trail := run.trail ++ [.committing]
    match p.store.commit placement.nodes run.edges with
    | .ok store =>
      ({ p with store, stage := .idle }, result .committed (trail ++ [.idle]))
    | .error rejection => p.fail (.rejected rejection.message) run.token trail
  else (p.enter .idle, result .superseded (run.trail ++ [.idle]))

/-- Takes a diagram text as far as the layout, against a snapshot of the canvas. -/
def execute (p : Pipeline) (text : String) (token : Nat) (base : Snapshot) : Pipeline × Progress :=
  match Diagram.parse (Diagram.unwrap text) with
  | .error error => (p.fail (.diagram error) token [.parsing]).map id .finished
  | .ok document =>
    let run := Run.plan p.settings document token base
    let p := p.enter .layingOut
    match Layout.withoutEngine? run.options run.nodes with
    | some placement => (p.conclude run placement).map id .finished
    | none => (p, .awaitsEngine run)

/-- Starts a run on a diagram text, fenced or not. -/
def run (p : Pipeline) (text : String) : Pipeline × Progress :=
  let (p, token) := p.issue
  p.execute text token p.store.snapshot

def resume (p : Pipeline) (run : Run)
    (outcome : Except Layout.EngineFailure Layout.Positions) : Pipeline × Result :=
  p.conclude run (Layout.byEngine run.options run.nodes outcome)

/-- A layout engine whose outcome depends only on what it is given. -/
abbrev LayoutEngine :=
  List Node → List Edge → Layout.Options → Except Layout.EngineFailure Layout.Positions

def runWith (p : Pipeline) (engine : LayoutEngine) (text : String) : Pipeline × Result :=
  match p.run text with
  | (p, .finished result) => (p, result)
  | (p, .awaitsEngine run) => p.resume run (engine run.nodes run.edges run.options)

/-- Starts a call that asks the text generator for a diagram. -/
def regenerate (p : Pipeline) (hasGenerator : Bool) (prompt : String) (image : Option String) :
    Pipeline × Opening :=
  let (p, token) := p.issue
  if hasGenerator then
    let base := p.store.snapshot
    (p, .awaitsGenerator ⟨token, base, p.history, prompt, base.summary, image⟩)
  else (p.fail (.generation "No text generator is configured") token []).map id .finished

def exchange (request : Request) (reply : String) : List Message :=
  let suffix := if (request.image.getD "").isEmpty then "" else Prompt.imageSuffix
  [⟨Prompt.userRole, request.prompt ++ suffix⟩, ⟨Prompt.modelRole, reply⟩]

/-- Goes on with a call when the generator has answered. An answer that is not blank is kept in the
conversation, whatever becomes of it. -/
def receive (p : Pipeline) (request : Request) (reply : Reply) : Pipeline × Progress :=
  match reply with
  | .refused message => failed message
  | .crashed kind message => failed (if message.isEmpty then kind else message)
  | .text answer =>
    let text := answer.getD ""
    if (Text.trim text.toList).isEmpty then
      failed "No content in response from the text generator."
    else
      let p := { p with history := p.history ++ exchange request text }
      p.execute text request.token request.base
where
  failed (message : String) : Pipeline × Progress :=
    (p.fail (.generation message) request.token []).map id .finished

end Pipeline
end FlowCanvas
