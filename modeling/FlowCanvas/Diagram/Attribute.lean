import FlowCanvas.Decimal.Numeral
import FlowCanvas.Diagram.Label
import FlowCanvas.Diagram.Vocabulary
import FlowCanvas.Table

namespace FlowCanvas.Diagram
open Text

abbrev Attributes := Table String

def filled? (attributes : Attributes) (key : String) : Option String :=
  (Table.get? key attributes).filter (!·.isEmpty)

def attributeKeys : List String :=
  ["sub", "sublabel", "description", "style", "animated", "color", "stroke", "width", "strokewidth"]

def isEntrySeparator (c : Char) : Bool :=
  c = ';' || c = ','

def isAssignment (c : Char) : Bool :=
  c = ':' || c = '='

def keyName (cs : List Char) : String :=
  String.ofList (lower (trim cs))

/-- Whether an entry of a block is an attribute: a known key with a value, the bare word for an
animated line, or a bare line style. -/
def isAttribute (entry : List Char) : Bool :=
  let key := keyName (entry.takeWhile (!isAssignment ·))
  if attributeKeys.contains key then entry.any isAssignment || key = "animated"
  else key = keyName entry && (LineStyle.ofName? key).isSome

def entriesOf (block : List Char) : List (List Char) :=
  (pieces isEntrySeparator block).filter fun entry => !(trim entry).isEmpty

/-- Splits the attribute block off the end of a declaration. Braces are read as one only if every
entry inside is an attribute. -/
def splitBlock (text : List Char) : List Char × Option (List Char) :=
  let stripped := trimEnd text
  match stripped.getLast?, cutAtLast? (· = '\x7b') stripped with
  | some '\x7d', some (body, inside) =>
    let block := trim inside.dropLast
    let entries := entriesOf block
    -- One entry that is no attribute leaves the whole block in the label.
    if entries.isEmpty || !entries.all isAttribute then (stripped, none)
    else (trimEnd body, some block)
  | _, _ => (stripped, none)

/-- Adds one entry: a key and its value, separated by a colon or else by an equals sign, or a bare
word. -/
def addEntry (attributes : Attributes) (entry : List Char) : Attributes :=
  let put (key value : List Char) :=
    Table.put (keyName key) (String.ofList (Label.clean value)) attributes
  match cutAt? (· = ':') entry, cutAt? (· = '=') entry with
  | some (key, value), _ => put key value
  | none, some (key, value) => put key value
  | none, none => Table.put (String.ofList (lower entry)) "true" attributes

def attributesOf (block : List Char) : Attributes :=
  ((entriesOf block).map trim).foldl addEntry []

def trueWords : List String := ["true", "yes", "on", "1"]

def flagOf (value : String) : Bool :=
  trueWords.contains (keyName value.toList)

def numberIn? (text : String) : Option Float :=
  (Decimal.firstNumeral? text.toList).bind Decimal.floatOfText?

end FlowCanvas.Diagram
