import Mathlib
import FlowCanvas.Command.Ending
import FlowCanvas.Proofs.Files
import FlowCanvas.Proofs.Settings.Reading

namespace FlowCanvas

namespace Settings

/-- Whether an error says what is wrong with an option or a group. -/
def Error.isRefusal : Error → Bool
  | unnamedOption _ | misfit _ => false
  | _ => true

def Refuses {α : Type} (x : Except Error α) : Prop :=
  ∀ e, x = .error e → e.isRefusal = true

section Steps
variable {α β : Type}

theorem Refuses.bind {x : Except Error α} {f : α → Except Error β} (hx : Refuses x)
    (hf : ∀ a, Refuses (f a)) : Refuses (x >>= f) := by
  intro e h
  rcases bind_eq_error_iff.1 h with h | ⟨a, -, h⟩
  · exact hx e h
  · exact hf a e h

end Steps

section Unnamed
variable {g : Section} {v : Value} {fields : Fields} {e : Error}

end Unnamed

end Settings

namespace Command
open Settings
variable {yaml : Reader} {files : Files} {file text : String} {fields : Fields} {e : Settings.Error}

end Command
end FlowCanvas
