import FlowCanvas.Proofs.Command.Batch
import FlowCanvas.Proofs.Text.Utf8

namespace FlowCanvas.Command.Batch

section Documents

variable {before later : List Entry} {e : Entry} {id : String}

end Documents

section Texts
open Json

end Texts

section Left
variable {job : Job} {fs files ready : Files} {source target : Place} {names : List String}
  {name : String}

end Left

end FlowCanvas.Command.Batch
