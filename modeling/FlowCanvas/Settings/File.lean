import FlowCanvas.Settings.Reading

namespace FlowCanvas.Settings

/-- Why a reader of YAML gives no value for a text. -/
inductive ReadFault where
  /-- The text is no YAML document. -/
  | malformed (reason : String)
  /-- Something in it is written like a value that there is none of. -/
  | noValue (message : String)
  /-- The reader breaks down with an error of some other kind. -/
  | crashed (kind message : String)

/-- A reader of YAML. It is not part of the program, which works with any. -/
abbrev Reader := String → Except ReadFault Value

inductive FileError where
  | notYaml (fault : ReadFault)
  | notMapping
  | invalid (error : Error)

def FileError.message (file : String) : FileError → String
  | notYaml (.malformed reason) => "Invalid YAML in config file " ++ file ++ ": " ++ reason
  | notYaml (.noValue message) | notYaml (.crashed _ message) => message
  | notMapping => "Config file " ++ file ++ " must contain a mapping"
  | invalid error => error.message

def ofText (yaml : Reader) (text : String) : Except FileError Settings := do
  match ← (yaml text).mapError .notYaml with
  | .object fields => (ofFields fields).mapError .invalid
  | v => if v.isEmpty then (ofFields []).mapError .invalid else throw .notMapping

end FlowCanvas.Settings
