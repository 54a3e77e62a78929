import FlowCanvas.Command.Ending
import FlowCanvas.Layout.Graphviz
import FlowCanvas.Pipeline.Basic

namespace FlowCanvas.Command

def convertText (graphviz : Layout.Graphviz.Behaviour) (settings : Settings) (text : String) :
    Pipeline.Result :=
  ((Pipeline.ofStore .empty settings).runWith (Layout.Graphviz.engine graphviz) text).2

namespace Batch

inductive Verdict where
  /-- It holds white space only and was left out. -/
  | blank
  | failed (message : String)
  | converted (result : Pipeline.Result)

structure Entry where
  id : String
  verdict : Verdict

structure Job where
  graphviz : Layout.Graphviz.Behaviour
  settings : Settings
  input : Path
  output : Path

namespace Job

def outputName (job : Job) (id : String) : String :=
  (job.output ++ [id ++ ".json"]).text

def summaryName (job : Job) : String :=
  (job.output ++ ["conversion_summary.json"]).text

/-- Converts one file of the folder and writes the result under its name. -/
def convert (job : Job) (files : Files) (name : String) : Files × Entry :=
  let id := Path.stem [name]
  match files.readText (job.input ++ [name]).text with
  | .error error => (files, ⟨id, .failed error.message⟩)
  | .ok text =>
    if (Text.trim text.toList).isEmpty then (files, ⟨id, .blank⟩)
    else
      let result := convertText job.graphviz job.settings text
      match result.failure? with
      | some failure => (files, ⟨id, .failed failure.message⟩)
      | none =>
        match files.write (job.outputName id) (Json.pretty result.toValue) with
        | .error error => (files, ⟨id, .failed error.message⟩)
        | .ok files => (files, ⟨id, .converted result⟩)

def convertAll (job : Job) (files : Files) : List String → Files × List Entry
  | [] => (files, [])
  | name :: r =>
    let (files, entry) := job.convert files name
    let (files, entries) := job.convertAll files r
    (files, entry :: entries)

end Job

def isDiagramFile (name : String) : Bool :=
  name.endsWith ".flow" || name.endsWith ".txt"

def diagramFiles (files : Files) (folder : Path) : List String :=
  let names := ((files.locate folder.text).map files.names).toOption.getD []
  (names.filter isDiagramFile).mergeSort fun a b => a ≤ b

structure Stats where
  total : Nat
  success : Nat
  failed : Nat
  empty : Nat
  deriving DecidableEq, Repr

def Verdict.isSuccess : Verdict → Bool
  | converted result => !result.nodes.isEmpty
  | blank | failed _ => false

def Verdict.isFailure : Verdict → Bool
  | failed _ => true
  | blank | converted _ => false

/-- A file without nodes counts as empty, blank or not. -/
def Verdict.isEmpty : Verdict → Bool
  | blank => true
  | converted result => result.nodes.isEmpty
  | failed _ => false

def stats (entries : List Entry) : Stats where
  total := entries.length
  success := entries.countP (·.verdict.isSuccess)
  failed := entries.countP (·.verdict.isFailure)
  empty := entries.countP (·.verdict.isEmpty)

def count (n : Nat) : Value := .int n

def Entry.record? (e : Entry) : Option Value :=
  match e.verdict with
  | .blank => none
  | .failed message => some (.record [("id", .text e.id), ("error", .text message)])
  | .converted result =>
    some (.record [("id", .text e.id), ("nodes", count result.nodes.length),
      ("edges", count result.edges.length), ("warnings", count result.warnings.length)])

def summary (entries : List Entry) : Value :=
  let s := stats entries
  .record [
    ("stats", .record [("total", count s.total), ("success", count s.success),
      ("failed", count s.failed), ("empty", count s.empty)]),
    ("results", .list (entries.filterMap Entry.record?))]

def Entry.report (number : Nat) (e : Entry) : List String :=
  ["", "[" ++ toString number ++ "] Processing: " ++ e.id] ++
    match e.verdict with
    | .blank => ["  ⊘ Skipped: empty file"]
    | .failed message => ["  ✗ Failed: " ++ message]
    | .converted result =>
      ["  Nodes: " ++ toString result.nodes.length ++ ", Edges: " ++ toString result.edges.length ++
        ", Warnings: " ++ toString result.warnings.length,
       "  " ++ result.summary,
       if result.nodes.isEmpty then "  ⊘ Empty" else "  ✓ Success"]

def reportsFrom (number : Nat) : List Entry → List String
  | [] => []
  | e :: r => e.report number ++ reportsFrom (number + 1) r

def ruler : String :=
  String.ofList (List.replicate 70 '=')

def report (entries : List Entry) : List String :=
  let s := stats entries
  ["Found " ++ toString s.total ++ " DSL files", ruler] ++ reportsFrom 1 entries ++
    ["", ruler, "SUMMARY", ruler,
     "Total: " ++ toString s.total ++ ", Success: " ++ toString s.success ++ ", Failed: " ++
       toString s.failed ++ ", Empty: " ++ toString s.empty]

def run (job : Job) (files : Files) : Ending :=
  match files.makeFolder job.output with
  | .error error => .error error.message files
  | .ok files =>
    -- The output folder is made first, so it is there even when there is nothing to convert.
    match diagramFiles files job.input with
    | [] => .exit 0 (Ending.lines ["No DSL files found in " ++ job.input.text]) "" files
    | names =>
      let (files, entries) := job.convertAll files names
      match files.write job.summaryName (Json.pretty (summary entries)) with
      | .error error =>
        .exit 1 (Ending.lines (report entries)) (Ending.lines ["Error: " ++ error.message]) files
      | .ok files =>
        .exit 0
          (Ending.lines (report entries ++
            ["", "Output: " ++ job.output.text, "Summary: " ++ job.summaryName]))
          "" files

end Batch
end FlowCanvas.Command
