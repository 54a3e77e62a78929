import FlowCanvas.Text.Blank
import FlowCanvas.Text.Case

namespace FlowCanvas.Label
open Text

/-- A text without the quotation marks around it, if it has them on both sides. -/
def unquote (mark : Char) (cs : List Char) : List Char :=
  match cs with
  | [] => []
  | c :: r => if c = mark ∧ r.getLast? = some mark then r.dropLast else cs

/-- Trims a label, takes one pair of double and then one pair of single quotation marks off, and
leaves one space between its words. -/
def clean (cs : List Char) : List Char :=
  squeeze (unquote '\'' (unquote '"' (trim cs)))

/-- Labels with the same key name the same node: neither case nor the amount of white space
counts. -/
def matchKey (label : String) : String :=
  String.ofList (fold (squeeze label.toList))

end FlowCanvas.Label
