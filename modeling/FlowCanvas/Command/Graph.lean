import FlowCanvas.Command.Arguments
import FlowCanvas.Command.Ending
import FlowCanvas.Layout.Graphviz
import FlowCanvas.Pipeline.Basic

namespace FlowCanvas.Command.Graph

structure Arguments where
  input : Option String
  canvas : Option String
  settings : Option String
  direction : Option Direction
  algorithm : Option Layout.Algorithm
  spacing : Option Layout.Spacing
  commit : Bool

def grammar : Grammar where
  parameters := [
    { names := ["--in"], takes := .anything },
    { names := ["--canvas"], takes := .anything },
    { names := ["--config"], takes := .anything },
    { names := ["--direction"], takes := .oneOf (Direction.all.map Direction.name) },
    { names := ["--algorithm"], takes := .oneOf (Layout.Algorithm.all.map Layout.Algorithm.name) },
    { names := ["--spacing"], takes := .oneOf (Layout.Spacing.all.map Layout.Spacing.name) },
    { names := ["--commit"] },
    { names := ["--verbose", "-v"] }]
  hasOperand := false

def usageText : String :=
  "usage: [-h] --in FILE [--canvas FILE] [--config FILE] [--direction NAME] [--algorithm NAME] " ++
    "[--spacing NAME] [--commit] [-v]"

def Arguments.read (args : List String) : Except Refusal Arguments := do
  let g ← given grammar args
  if !g.has "--in" then throw .usage
  return {
    input := g.value? "--in"
    canvas := g.text? "--canvas"
    settings := g.text? "--config"
    direction := (g.value? "--direction").bind Direction.ofName?
    algorithm := (g.value? "--algorithm").bind Layout.Algorithm.ofName?
    spacing := (g.value? "--spacing").bind Layout.Spacing.ofName?
    commit := g.has "--commit" }

/-- The settings with what the arguments say. A direction that is given counts more than that of
the diagram. -/
def Arguments.refine (a : Arguments) (s : Settings) : Settings :=
  { s with
    layout := { s.layout with
      direction := a.direction.getD s.layout.direction
      algorithm := a.algorithm.getD s.layout.algorithm
      spacing := a.spacing.getD s.layout.spacing }
    followDocument := s.followDocument && a.direction.isNone }

structure Material where
  settings : Settings
  text : String
  store : Store

/-- Reads settings, diagram and canvas, in this order. A diagram file must have a name. -/
def material (yaml : Settings.Reader) (files : Files) (a : Arguments) :
    Except Failure Material := do
  let settings ← match a.settings with
    | some name => loadSettings yaml files name
    | none => .ok {}
  let text ← match a.input with
    | some name => (files.readText (Path.tidy name)).mapError .file
    | none => .error .nameless
  let store ← match a.canvas with
    | some name => loadCanvas files name
    | none => .ok .empty
  return ⟨a.refine settings, text, store⟩

def writeBack (files : Files) (a : Arguments) (store : Store) : Except Failure Files :=
  match a.canvas with
  | some name =>
    if a.commit then (files.write name store.save).mapError .save
    else .ok files
  | none => .ok files

/-- Runs the command, given how Graphviz behaves. The run copies the canvas first of all; what it
commits is no deeper than what it has copied, so that can be copied once more to be written. -/
def run (host : Host) (graphviz : Layout.Graphviz.Behaviour) (files : Files) (args : List String) :
    Ending :=
  match Arguments.read args with
  | .error .usage => .usage usageText files
  | .error .help => .helped usageText files
  | .ok a =>
    if a.commit && a.canvas.isNone then .error "--commit requires --canvas" files
    else match material host.yaml files a with
      | .error failure => .failed failure files
      | .ok m =>
        match m.store.copy host.copyDepth with
        | none => .failed .tooDeep files
        | some _ =>
          let (p, result) :=
            (Pipeline.ofStore m.store m.settings).runWith (Layout.Graphviz.engine graphviz) m.text
          match result.failure? with
          | some failure => .error failure.message files
          | none =>
            match writeBack files a p.store with
            | .error failure => .failed failure files
            | .ok after =>
              .exit 0 (Ending.lines [p.store.save])
                (Ending.lines (result.warnings.map ("Warning: " ++ ·.message))) after

end FlowCanvas.Command.Graph
