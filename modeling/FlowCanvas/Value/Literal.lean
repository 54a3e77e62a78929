import FlowCanvas.Text.Printable
import FlowCanvas.Text.Utf8
import FlowCanvas.Value.Basic

namespace FlowCanvas

namespace Text

def quoteChar (mark c : Char) : List Char :=
  if c = mark ∨ c = '\\' then ['\\', c]
  else if c = '\n' then ['\\', 'n']
  else if c = '\r' then ['\\', 'r']
  else if c = '\t' then ['\\', 't']
  else if isPrintable c then [c]
  else
    let n := c.toNat
    if n < 0x100 then '\\' :: 'x' :: (Utf8.hex 2 n).toList
    else if n < 0x10000 then '\\' :: 'u' :: (Utf8.hex 4 n).toList
    else '\\' :: 'U' :: (Utf8.hex 8 n).toList

/-- A text in single quotes; in double quotes if it holds single quotes and no double ones. -/
def quoted (s : String) : String :=
  let cs := s.toList
  let mark := if cs.contains '\'' && !cs.contains '"' then '"' else '\''
  String.ofList (mark :: cs.flatMap (quoteChar mark) ++ [mark])

end Text

def Number.text : Number → String
  | .int n => toString n
  | .float x => Decimal.shortestText x Decimal.shortWords

def Key.literal : Key → String
  | .null => "None"
  | .flag b => if b then "True" else "False"
  | .number n => n.text
  | .text s => Text.quoted s
  | .other _ literal => literal

namespace Value

mutual

def literal : Value → String
  | .null => "None"
  | .flag b => if b then "True" else "False"
  | .number n => n.text
  | .text s => Text.quoted s
  | .list items => "[" ++ ", ".intercalate (literals items) ++ "]"
  | .object fields => "\x7b" ++ ", ".intercalate (fieldLiterals fields) ++ "\x7d"
  | .other _ literal => literal

def literals : List Value → List String
  | [] => []
  | v :: r => literal v :: literals r

def fieldLiterals : List (Key × Value) → List String
  | [] => []
  | (k, v) :: r => (k.literal ++ ": " ++ literal v) :: fieldLiterals r

end

def plain : Value → String
  | .text s => s
  | v => v.literal

end Value
end FlowCanvas
