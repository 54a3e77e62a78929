import Mathlib.Data.List.Nodup
import FlowCanvas.Command.Batch
import FlowCanvas.Proofs.Files.Folders
import FlowCanvas.Proofs.Text.Cuts
import FlowCanvas.Proofs.Text.Spacing

namespace FlowCanvas.Command.Batch

section Names
variable {name : String}

def outputFile (id : String) : String :=
  id ++ ".json"

end Names

section Listing
variable (fs : Files) (folder : Path)

variable {fs}

end Listing

section Converting
variable {job : Job} {fs fs' : Files} {source target : Place} {name : String}

/-- The verdict on a file, from its text and from the place that its result is to have. -/
def Job.verdict (job : Job) (fs : Files) (name : String) : Verdict :=
  match fs.readText (job.input ++ [name]).text with
  | .error error => .failed error.message
  | .ok text =>
    if (Text.trim text.toList).isEmpty then .blank
    else
      let result := convertText job.graphviz job.settings text
      match result.failure? with
      | some failure => .failed failure.message
      | none =>
        match fs.placeFor (job.outputName (Path.stem [name])) with
        | .error fault => .failed (FileError.message ⟨fault, job.outputName (Path.stem [name])⟩)
        | .ok _ => .converted result

end Converting

section ConvertingAll
variable {job : Job} {fs fs' : Files} {source target : Place} {names : List String}

structure Grown (target : Place) (before after : Files) : Prop where
  isFolder : ∀ place, after.isFolder place = before.isFolder place
  lookup : ∀ place, (∀ id, place ≠ target ++ [outputFile id]) →
    after.contents.lookup place = before.contents.lookup place

theorem Grown.refl (target : Place) (fs : Files) : Grown target fs fs :=
  ⟨fun _ => rfl, fun _ _ => rfl⟩

theorem Grown.trans {fs'' : Files} (h : Grown target fs fs') (h' : Grown target fs' fs'') :
    Grown target fs fs'' where
  isFolder place := (h'.isFolder place).trans (h.isFolder place)
  lookup place hplace := (h'.lookup place hplace).trans (h.lookup place hplace)

end ConvertingAll

section Accounting
variable {job : Job} {files ready : Files}

section Records
variable {fs : Files} {name : String}

end Records

end Accounting

end FlowCanvas.Command.Batch
