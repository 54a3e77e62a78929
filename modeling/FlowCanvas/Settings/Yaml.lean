import FlowCanvas.Settings.File
import FlowCanvas.Value.Yaml.Reader

namespace FlowCanvas.Yaml

def Error.toFault (e : Error) : Settings.ReadFault :=
  if e = .malformed then .malformed e.message
  else if e.isOverflow then .crashed "OverflowError" e.message
  else .noValue e.message

/-- The value of a setting. A list or map that holds itself is cut off where it comes up again, and
the options of a group are read each on its own. -/
def setting (d : Document) (key : Key) (n : Node) : Value :=
  let isGroup := [Settings.Section.edges, .layout].any fun s => key.same (.text s.name)
  match isGroup, n with
  | true, .map place => .object (d.fields place fun _ => d.value)
  | _, n => d.value n

def settings (text : String) : Except Settings.ReadFault Value := do
  let d ← (parse text).mapError Error.toFault
  match d.root with
  | .map place => return .object (d.fields place (setting d))
  | n => return d.value n

end FlowCanvas.Yaml
