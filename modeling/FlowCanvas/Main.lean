import FlowCanvas.Command.Convert
import FlowCanvas.Command.Graph
import FlowCanvas.Settings.Yaml

namespace FlowCanvas

def namesIn (path : Path) : IO (Option (List String)) := do
  try
    let place ← IO.FS.realPath path.text
    return some ((← place.readDir).toList.map (·.fileName))
  catch _ => return none

def gather (files : Files) (path : Path) : IO Files := do
  let place := Place.ofText path.text
  match ← namesIn path with
  | some _ => return { files with made := files.made ++ [place] }
  | none =>
    try return files.set place (← IO.FS.readBinFile path.text).toList
    catch _ => return files

/-- The paths that an argument may mean: the whole of it, what follows an equality sign, or what
follows the letter of a switch. -/
def meant (arg : String) : List Path :=
  let cs := arg.toList
  let attached := match Text.cutAt? (· = '=') cs with
    | some (_, value) => [value]
    | none => []
  ([cs, cs.drop 2] ++ attached).map fun name => Path.ofText (String.ofList name)

def way (path : Path) : List Path :=
  (List.range (path.length + 1)).map path.take

/-- The files that arguments may mean, and those in the folders that they may mean. -/
def load (args : List String) : IO Files := do
  let paths := args.flatMap meant
  let inner ← paths.mapM fun path => do
    return ((← namesIn path).getD []).map (path ++ [·])
  ((paths.flatMap way ++ inner.flatten).eraseDups).foldlM gather { contents := [] }

def store (before after : Files) : IO Unit := do
  for place in after.made do
    unless before.made.contains place do IO.FS.createDirAll (Path.text place)
  for (place, bytes) in before.changes after do
    IO.FS.writeBinFile (Path.text place) (ByteArray.mk bytes.toArray)

def finish (before : Files) : Command.Ending → IO UInt32
  | .exit code stdout stderr after => do
    store before after
    IO.print stdout
    IO.eprint stderr
    return code.toUInt32
  | .broken failure => do
    IO.eprintln failure.message
    return 1

/-- What the command line is run on. A level of a copied value takes two of a thousand nested calls,
of which a few are taken before. -/
def host : Command.Host := ⟨Yaml.settings, 485⟩

end FlowCanvas

open FlowCanvas in
/-- Runs the command that the first argument names. No Graphviz is called, so nodes are placed on
the grid. -/
def main (args : List String) : IO UInt32 := do
  match args with
  | "graph" :: args =>
    let files ← load args
    finish files (Command.Graph.run host .absent files args)
  | "convert" :: args =>
    let files ← load args
    finish files (Command.Convert.run host .absent files args)
  | _ =>
    IO.eprintln "usage: graph ARGUMENTS | convert ARGUMENTS"
    return 2
