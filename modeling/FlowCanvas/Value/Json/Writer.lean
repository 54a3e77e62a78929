import FlowCanvas.Text.Utf8
import FlowCanvas.Value.Literal

namespace FlowCanvas.Json

def escapeChar (c : Char) : List Char :=
  if c = '"' ∨ c = '\\' then ['\\', c]
  else if c = '\n' then ['\\', 'n']
  else if c = '\r' then ['\\', 'r']
  else if c = '\t' then ['\\', 't']
  else if c = Char.ofNat 8 then ['\\', 'b']
  else if c = Char.ofNat 12 then ['\\', 'f']
  else if c.toNat < 32 then '\\' :: 'u' :: (Text.Utf8.hex 4 c.toNat).toList
  else [c]

def textJson (s : String) : String :=
  String.ofList ('"' :: s.toList.flatMap escapeChar ++ ['"'])

def numberJson : Number → String
  | .int n => toString n
  | .float x => Decimal.shortestText x Decimal.longWords

def flagJson (b : Bool) : String :=
  if b then "true" else "false"

def keyJson : Key → String
  | .null => textJson "null"
  | .flag b => textJson (flagJson b)
  | .number n => textJson (numberJson n)
  | .text s => textJson s
  | .other _ literal => textJson literal

mutual

def compact : Value → String
  | .null => "null"
  | .flag b => flagJson b
  | .number n => numberJson n
  | .text s => textJson s
  | .list items => "[" ++ ",".intercalate (compactItems items) ++ "]"
  | .object fields => "\x7b" ++ ",".intercalate (compactFields fields) ++ "\x7d"
  | .other _ literal => textJson literal

def compactItems : List Value → List String
  | [] => []
  | v :: r => compact v :: compactItems r

def compactFields : List (Key × Value) → List String
  | [] => []
  | (k, v) :: r => (keyJson k ++ ":" ++ compact v) :: compactFields r

end

def newLine (level : Nat) : String :=
  String.ofList ('\n' :: List.replicate (2 * level) ' ')

def bracket (left right : String) (level : Nat) (items : List String) : String :=
  if items.isEmpty then left ++ right
  else
    left ++ newLine (level + 1) ++ ("," ++ newLine (level + 1)).intercalate items ++
      newLine level ++ right

mutual

def prettyAt (level : Nat) : Value → String
  | .null => "null"
  | .flag b => flagJson b
  | .number n => numberJson n
  | .text s => textJson s
  | .list items => bracket "[" "]" level (prettyItems (level + 1) items)
  | .object fields => bracket "\x7b" "\x7d" level (prettyFields (level + 1) fields)
  | .other _ literal => textJson literal

def prettyItems (level : Nat) : List Value → List String
  | [] => []
  | v :: r => prettyAt level v :: prettyItems level r

def prettyFields (level : Nat) : List (Key × Value) → List String
  | [] => []
  | (k, v) :: r => (keyJson k ++ ": " ++ prettyAt level v) :: prettyFields level r

end

def pretty (v : Value) : String :=
  prettyAt 0 v

end FlowCanvas.Json
