import FlowCanvas.Decimal.Layout
import FlowCanvas.Diagram.Vocabulary
import FlowCanvas.Value.Basic

namespace FlowCanvas.Layout

inductive Engine where
  | dot
  | fdp
  | neato
  | twopi
  | circo
  deriving DecidableEq, Repr

def Engine.name : Engine → String
  | dot => "dot"
  | fdp => "fdp"
  | neato => "neato"
  | twopi => "twopi"
  | circo => "circo"

/-- The names under which an arrangement can be asked for. -/
inductive Algorithm where
  | layered
  | mrtree
  | dot
  | force
  | fdp
  | stress
  | neato
  | radial
  | twopi
  | circular
  | circo
  deriving DecidableEq, Repr

namespace Algorithm

def all : List Algorithm :=
  [layered, mrtree, dot, force, fdp, stress, neato, radial, twopi, circular, circo]

def name : Algorithm → String
  | layered => "layered"
  | mrtree => "mrtree"
  | dot => "dot"
  | force => "force"
  | fdp => "fdp"
  | stress => "stress"
  | neato => "neato"
  | radial => "radial"
  | twopi => "twopi"
  | circular => "circular"
  | circo => "circo"

def ofName? (s : String) : Option Algorithm :=
  all.find? (·.name == s)

def engine : Algorithm → Engine
  | layered | mrtree | dot => .dot
  | force | fdp => .fdp
  | stress | neato => .neato
  | radial | twopi => .twopi
  | circular | circo => .circo

@[simp] theorem ofName?_name (a : Algorithm) : ofName? a.name = some a := by
  cases a <;> decide

end Algorithm

inductive Spacing where
  | compact
  | normal
  | loose
  deriving DecidableEq, Repr

namespace Spacing

def all : List Spacing := [compact, normal, loose]

def name : Spacing → String
  | compact => "compact"
  | normal => "normal"
  | loose => "loose"

def ofName? (s : String) : Option Spacing :=
  all.find? (·.name == s)

@[simp] theorem ofName?_name (s : Spacing) : ofName? s.name = some s := by
  cases s <;> decide

/-- The distance in inches between nodes of a rank. -/
def betweenNodes : Spacing → Decimal
  | compact => ⟨3, -1⟩
  | normal => ⟨5, -1⟩
  | loose => ⟨9, -1⟩

def betweenRanks : Spacing → Decimal
  | compact => ⟨4, -1⟩
  | normal => ⟨75, -2⟩
  | loose => ⟨12, -1⟩

end Spacing

structure Options where
  direction : Direction := .down
  algorithm : Algorithm := .mrtree
  spacing : Spacing := .loose
  /-- How many seconds the engine may take. -/
  timeout : Number := .float 10.0

end FlowCanvas.Layout
