import FlowCanvas.Text.Blank
import FlowCanvas.Text.Case

namespace FlowCanvas

/-- Where the flow of a diagram runs to. -/
inductive Direction where
  | down
  | right
  | up
  | left
  deriving DecidableEq, Repr

namespace Direction

def all : List Direction := [down, right, up, left]

def name : Direction → String
  | down => "TB"
  | right => "LR"
  | up => "BT"
  | left => "RL"

def ofName? (s : String) : Option Direction :=
  all.find? (·.name == s)

def read? (s : String) : Option Direction :=
  ofName? (String.ofList (Text.upper s.toList))

def isHorizontal : Direction → Bool
  | right | left => true
  | down | up => false

theorem mem_all (d : Direction) : d ∈ all := by
  cases d <;> decide

@[simp] theorem ofName?_name (d : Direction) : ofName? d.name = some d := by
  cases d <;> decide

end Direction

/-- What a node stands for. -/
inductive NodeKind where
  | start
  | finish
  | process
  | decision
  | system
  | note
  | group
  | browser
  | mobile
  | button
  | field
  | icon
  | image
  deriving DecidableEq, Repr

namespace NodeKind

def all : List NodeKind :=
  [start, finish, process, decision, system, note, group, browser, mobile, button, field, icon,
    image]

def name : NodeKind → String
  | start => "start"
  | finish => "end"
  | process => "process"
  | decision => "decision"
  | system => "system"
  | note => "note"
  | group => "section"
  | browser => "browser"
  | mobile => "mobile"
  | button => "button"
  | field => "input"
  | icon => "icon"
  | image => "image"

def ofName? (s : String) : Option NodeKind :=
  all.find? (·.name == s)

def read? (s : String) : Option NodeKind :=
  ofName? (String.ofList (Text.lower s.toList))

/-- The kind that a written word stands for; an unknown word stands for a process. -/
def ofWord (cs : List Char) : NodeKind :=
  (ofName? (String.ofList (Text.lower (Text.trim cs)))).getD process

theorem mem_all (k : NodeKind) : k ∈ all := by
  cases k <;> decide

@[simp] theorem ofName?_name (k : NodeKind) : ofName? k.name = some k := by
  cases k <;> decide

end NodeKind

inductive LineStyle where
  | straight
  | curved
  | dashed
  deriving DecidableEq, Repr

namespace LineStyle

def all : List LineStyle := [straight, curved, dashed]

def name : LineStyle → String
  | straight => "straight"
  | curved => "curved"
  | dashed => "dashed"

def ofName? (s : String) : Option LineStyle :=
  all.find? (·.name == s)

@[simp] theorem ofName?_name (s : LineStyle) : ofName? s.name = some s := by
  cases s <;> decide

end LineStyle
end FlowCanvas
