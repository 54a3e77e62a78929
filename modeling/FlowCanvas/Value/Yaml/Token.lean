import FlowCanvas.Value.Yaml.Error

namespace FlowCanvas.Yaml

inductive Token where
  | documentStart
  | documentEnd
  | blockList
  | blockMap
  | blockEnd
  | flowList
  | flowListEnd
  | flowMap
  | flowMapEnd
  | item
  | comma
  /-- Announces a key. -/
  | key
  /-- Announces a value. -/
  | value
  | anchor (name : String)
  | alias (name : String)
  | text (content : String) (isPlain : Bool)
  /-- Here the text cannot be cut any further. -/
  | fault (error : Error)
  deriving DecidableEq, Repr

end FlowCanvas.Yaml
