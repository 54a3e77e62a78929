import FlowCanvas.Text.Digit
import FlowCanvas.Text.Pieces

namespace FlowCanvas.Command

inductive Taking where
  | nothing
  | anything
  | oneOf (choices : List String)
  deriving DecidableEq, Repr

def Taking.admits (value : String) : Taking → Bool
  | nothing => false
  | anything => true
  | oneOf choices => choices.contains value

/-- A parameter of a command; the first of its names stands for it. -/
structure Parameter where
  names : List String
  takes : Taking := .nothing

def Parameter.name (p : Parameter) : String :=
  p.names.headD ""

structure Grammar where
  parameters : List Parameter
  hasOperand : Bool

def help : Parameter := { names := ["--help", "-h"] }

def Grammar.all (g : Grammar) : List Parameter :=
  help :: g.parameters

def Grammar.named? (g : Grammar) (name : String) : Option Parameter :=
  g.all.find? (·.names.contains name)

inductive Word where
  /-- A parameter, perhaps with its value, after switches that are written together with it. -/
  | named (switches : List Parameter) (p : Parameter) (attached : Option String)
  | plain (text : String)
  | dashes
  | unknown
  /-- A name with something attached that it cannot have. -/
  | faulty

inductive Refusal where
  | usage
  | help
  deriving DecidableEq, Repr

/-- A parameter and the letters that follow it directly: its value, or further switches of which the
last may have a value. -/
def withLetters (g : Grammar) (switches : List Parameter) (p : Parameter) : List Char → Word
  | [] => .named switches p none
  | c :: r =>
    if p.takes ≠ .nothing then .named switches p (some (String.ofList (c :: r)))
    else match g.named? (String.ofList ['-', c]) with
      | some q => withLetters g (switches ++ [p]) q r
      | none => .faulty

/-- A name with a text after an equality sign: a value, or further switches after the letter of
one. -/
def withValue (g : Grammar) (name : List Char) (p : Parameter) (value : List Char) : Word :=
  if p.takes ≠ .nothing then .named [] p (some (String.ofList value))
  else if ['-', '-'].isPrefixOf name || value.isEmpty then .faulty
  else withLetters g [] p value

def isNegative (cs : List Char) : Bool :=
  match cs with
  | '-' :: r =>
    match r.dropWhile Text.isDigit with
    | [] => !r.isEmpty
    | '.' :: s => !s.isEmpty && s.all Text.isDigit
    | _ => false
  | _ => false

/-- What an argument is that does not spell out a name. -/
def shortened (g : Grammar) (arg : String) : Except Refusal Word :=
  let cs := arg.toList
  let (start, value) := match Text.cutAt? (· = '=') cs with
    | some (start, value) => (start, some value)
    | none => (cs, none)
  -- What no name fits is a value if it looks like a negative number or has a blank in it.
  let other : Word := if isNegative cs ∨ cs.contains ' ' then .plain arg else .unknown
  match cs with
  | '-' :: '-' :: _ =>
    -- The start of a name will do, as long as it is the start of one only.
    let long := g.all.flatMap fun p =>
      (p.names.filter fun n => start.isPrefixOf n.toList).map fun _ => p
    match long, value with
    | [], _ => .ok other
    | [p], none => .ok (.named [] p none)
    | [p], some value => .ok (withValue g start p value)
    | _, _ => .error .usage
  | '-' :: c :: r =>
    match g.named? (String.ofList ['-', c]) with
    | some p => .ok (withLetters g [] p r)
    | none => .ok other
  | _ => .ok other

def wordOf (g : Grammar) (arg : String) : Except Refusal Word :=
  match arg.toList with
  | '-' :: _ :: _ =>
    match g.named? arg, Text.cutAt? (· = '=') arg.toList with
    | some p, _ => .ok (.named [] p none)
    -- A whole name goes before a name cut short.
    | none, none => shortened g arg
    | none, some (start, value) =>
      match g.named? (String.ofList start) with
      | some p => .ok (withValue g start p value)
      | none => shortened g arg
  | _ => .ok (.plain arg)

def words (g : Grammar) : List String → Except Refusal (List Word)
  | [] => .ok []
  | arg :: r =>
    -- Behind two dashes every argument is taken as it stands.
    if arg = "--" then .ok (.dashes :: r.map .plain)
    else do return (← wordOf g arg) :: (← words g r)

structure Given where
  parameters : List (String × Option String) := []
  operand : Option String := none
  /-- Whether something was given that the command does not take. -/
  excess : Bool := false

namespace Given

def has (name : String) (given : Given) : Bool :=
  given.parameters.any (·.1 = name)

def value? (name : String) (given : Given) : Option String :=
  (given.parameters.reverse.lookup name).join

/-- The value of a parameter unless it is empty. -/
def text? (name : String) (given : Given) : Option String :=
  (given.value? name).filter (· ≠ "")

def take (switches : List Parameter) (p : Parameter) (value : Option String) (given : Given) :
    Except Refusal Given :=
  if (switches ++ [p]).any (·.name = help.name) then .error .help
  else if value.all p.takes.admits then
    .ok { given with
      parameters := given.parameters ++ switches.map (·.name, none) ++ [(p.name, value)] }
  else .error .usage

def takeOperand (g : Grammar) (value : String) (given : Given) : Given :=
  if g.hasOperand && given.operand.isNone then { given with operand := some value }
  else { given with excess := true }

end Given

/-- Takes the words of a command line one after the other. Two dashes belong to the operand beside
them. -/
def collect (g : Grammar) (given : Given) : List Word → Except Refusal Given
  | [] => if given.excess then .error .usage else .ok given
  | .faulty :: _ => .error .usage
  | .unknown :: r => collect g { given with excess := true } r
  | .named switches p attached :: r =>
    match p.takes, attached, r with
    | .nothing, _, r => do collect g (← given.take switches p none) r
    | _, some value, r => do
      collect g (← given.take switches p (some value |>.filter (· ≠ "--"))) r
    | _, none, .plain value :: r => do collect g (← given.take switches p (some value)) r
    | _, none, _ => .error .usage
  | .dashes :: .plain value :: r => collect g (given.takeOperand g value) r
  | .dashes :: r => collect g { given with excess := true } r
  | .plain value :: r =>
    if g.hasOperand && given.operand.isNone then
      match r with
      | .dashes :: r => collect g (given.takeOperand g value) r
      | r => collect g (given.takeOperand g value) r
    else collect g { given with excess := true } r

def given (g : Grammar) (args : List String) : Except Refusal Given := do
  collect g {} (← words g args)

end FlowCanvas.Command
