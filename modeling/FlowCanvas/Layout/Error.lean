import FlowCanvas.Decimal.Layout
import FlowCanvas.Value.Json.Error
import FlowCanvas.Value.Literal

namespace FlowCanvas.Layout

inductive Error where
  /-- Graphviz is not installed. -/
  | unavailable
  /-- Graphviz gave no output, with what it wrote to its error stream. -/
  | refused (stderr : String)
  | unreadableReply (error : Json.Error)
  /-- The engine broke down. -/
  | crashed (message : String)
  /-- The engine left nodes without a position. -/
  | unplaced (ids : List String)
  /-- A failure in the engine's own words. -/
  | reported (message : String)
  | timedOut (limit : Number)

/-- The time limit as it is shown: at most six significant digits. -/
def limitText (limit : Number) : String :=
  match limit.toFloat? with
  | some x => Decimal.sixDigitText x
  | none => limit.text

def Error.message : Error → String
  | unavailable => "Graphviz 'dot' executable is not available in PATH"
  | refused stderr => if stderr.isEmpty then "Graphviz layout failed" else stderr
  | unreadableReply error => "Graphviz returned invalid JSON: " ++ error.message
  | crashed message => "Layout engine failed: " ++ message
  | unplaced ids => "Layout engine returned no position for " ++ ", ".intercalate ids
  | reported message => message
  | timedOut limit => "Layout did not finish within " ++ limitText limit ++ "s"

end FlowCanvas.Layout
