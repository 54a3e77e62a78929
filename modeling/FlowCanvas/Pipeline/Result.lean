import FlowCanvas.Canvas.Store
import FlowCanvas.Diagram.Error
import FlowCanvas.Diagram.Reference
import FlowCanvas.Layout.Error

namespace FlowCanvas.Pipeline

inductive Stage where
  | idle
  | parsing
  | validating
  | reconciling
  | styling
  | layingOut
  | committing
  | failed
  deriving DecidableEq, Repr

def Stage.name : Stage → String
  | idle => "idle"
  | parsing => "parsing"
  | validating => "validating"
  | reconciling => "reconciling"
  | styling => "styling"
  | layingOut => "laying_out"
  | committing => "committing"
  | failed => "failed"

inductive Failure where
  | diagram (error : Diagram.Error)
  | generation (message : String)
  | rejected (reason : String)
  deriving DecidableEq, Repr

def Failure.message : Failure → String
  | diagram error => error.message
  | generation message => message
  | rejected reason => "Canvas rejected the diagram: " ++ reason

inductive Warning where
  | dangling (reference : DanglingReference)
  | layout (error : Layout.Error)

def Warning.message : Warning → String
  | dangling reference => reference.message
  | layout error => error.message

inductive Status where
  | committed
  | failed (failure : Failure)
  | superseded
  deriving DecidableEq, Repr

def Status.name : Status → String
  | committed => "committed"
  | failed _ => "failed"
  | superseded => "superseded"

structure Result where
  status : Status
  token : Nat
  nodes : List Node
  edges : List Edge
  warnings : List Warning
  /-- How many connections were left out. -/
  dropped : Nat
  /-- Whether the grid was used instead of an engine. -/
  fallback : Bool
  /-- The stages that the run went through. -/
  trail : List Stage

namespace Result

def failure? (r : Result) : Option Failure :=
  match r.status with
  | .failed failure => some failure
  | .committed | .superseded => none

def isCommitted (r : Result) : Bool :=
  r.status = .committed

def summary (r : Result) : String :=
  match r.status with
  | .failed failure => "Failed to generate: " ++ failure.message
  | .superseded => "Discarded: a newer request replaced this diagram"
  | .committed =>
    let skipped :=
      if r.dropped = 0 then ""
      else
        ", " ++ toString r.dropped ++ (if r.dropped = 1 then " connection" else " connections") ++
          " skipped"
    "Diagram generated" ++ skipped ++ if r.fallback then " (grid layout used)" else ""

def toValueWith (warning : Warning → Value) (r : Result) : List (String × Value) :=
  [("status", .text r.status.name), ("summary", .text r.summary),
    ("nodes", .list (r.nodes.map Node.toValue)), ("edges", .list (r.edges.map Edge.toValue)),
    ("warnings", .list (r.warnings.map warning)),
    ("error", match r.failure? with
      | some failure => .text failure.message
      | none => .null)]

def toValue (r : Result) : Value :=
  .record (r.toValueWith fun w => .text w.message)

end Result
end FlowCanvas.Pipeline
