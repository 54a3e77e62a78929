import FlowCanvas.Command.Arguments
import FlowCanvas.Command.Batch

namespace FlowCanvas.Command.Convert

structure Arguments where
  input : Path
  output : Option Path
  batch : Bool
  settings : Option Path

def grammar : Grammar where
  parameters := [
    { names := ["--output", "-o"], takes := .anything },
    { names := ["--batch", "-b"] },
    { names := ["--config"], takes := .anything },
    { names := ["--verbose", "-v"] }]
  hasOperand := true

def usageText : String :=
  "usage: [-h] [-o PATH] [-b] [--config FILE] [-v] INPUT"

def Arguments.read (args : List String) : Except Refusal Arguments := do
  let g ← given grammar args
  match g.operand with
  | none => throw .usage
  | some input =>
    return {
      input := Path.ofText input
      output := (g.value? "--output").map Path.ofText
      batch := g.has "--batch"
      settings := (g.value? "--config").map Path.ofText }

def Arguments.outputPath (a : Arguments) : Path :=
  a.output.getD (a.input.withExtension ".json")

def defaultFolder : Path := ["output"]

def report (a : Arguments) (result : Pipeline.Result) : List String :=
  ["", "✓ Converted " ++ a.input.text,
   "  Nodes: " ++ toString result.nodes.length,
   "  Edges: " ++ toString result.edges.length,
   "  " ++ result.summary] ++
    result.warnings.map ("  ⚠ " ++ ·.message) ++
    ["  Output: " ++ a.outputPath.text]

def single (graphviz : Layout.Graphviz.Behaviour) (settings : Settings) (files : Files)
    (a : Arguments) : Ending :=
  match files.readText a.input.text with
  | .error error => .error error.message files
  | .ok text =>
    let result := convertText graphviz settings text
    match result.failure? with
    | some failure => .error failure.message files
    | none =>
      match files.write a.outputPath.text (Json.pretty result.toValue) with
      | .error error => .error error.message files
      | .ok after => .exit 0 (Ending.lines (report a result)) "" after

def unsuitable (a : Arguments) (wanted : String) (files : Files) : Ending :=
  .exit 1 (Ending.lines ["Error: " ++ a.input.text ++ " is not " ++ wanted]) "" files

/-- Runs the command, given how Graphviz behaves. A conversion starts on an empty canvas, which can
always be copied. -/
def run (host : Host) (graphviz : Layout.Graphviz.Behaviour) (files : Files) (args : List String) :
    Ending :=
  match Arguments.read args with
  | .error .usage => .usage usageText files
  | .error .help => .helped usageText files
  | .ok a =>
    match a.settings.mapM fun path => loadSettings host.yaml files path.text with
    | .error failure => .failed failure files
    | .ok settings =>
      let settings := settings.getD {}
      match files.look a.input.text, a.batch with
      | .error error, _ => .error error.message files
      | .ok .folder, true =>
        Batch.run ⟨graphviz, settings, a.input, a.output.getD defaultFolder⟩ files
      | .ok _, true => unsuitable a "a directory" files
      | .ok .file, false => single graphviz settings files a
      | .ok _, false => unsuitable a "a file" files

end FlowCanvas.Command.Convert
