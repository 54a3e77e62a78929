import FlowCanvas.Decimal.Layout

namespace FlowCanvas

inductive Number where
  | int (n : Int)
  | float (x : Float)

inductive Key where
  | null
  | flag (b : Bool)
  | number (n : Number)
  | text (s : String)
  | other (kind literal : String)

inductive Value where
  | null
  | flag (b : Bool)
  | number (n : Number)
  | text (s : String)
  | list (items : List Value)
  | object (fields : List (Key × Value))
  /-- Something that is never looked into, such as a date: only its kind and its literal count. -/
  | other (kind literal : String)

instance : Inhabited Value := ⟨.null⟩

abbrev Fields := List (Key × Value)

namespace Number

/-- The double nearest to an integer; none if it lies past the largest double. -/
def ofInt? (n : Int) : Option Float :=
  let x := Decimal.toFloat ⟨n.natAbs, 0⟩
  if x.isInf then none else some (if n < 0 then -x else x)

def toFloat? : Number → Option Float
  | int n => ofInt? n
  | float x => some x

def atMostZero : Number → Bool
  | int n => n ≤ 0
  | float x => x ≤ 0

def isZero : Number → Bool
  | int n => n == 0
  | float x => x == 0

/-- Whether two numbers have the same value, integers and doubles compared exactly. Not-a-number is
the same as itself. -/
def same : Number → Number → Bool
  | int a, int b => a == b
  | float x, float y => x == y || (x.isNaN && y.isNaN)
  | int a, float x | float x, int a =>
    match Decimal.exact x with
    | .finite negative mantissa exponent =>
      let size := (Decimal.Ratio.power 2 exponent).scale mantissa
      (a.natAbs * size.den == size.num) && (a == 0 || (a < 0) == negative)
    | _ => false

end Number

namespace Key

def toValue : Key → Value
  | null => .null
  | flag b => .flag b
  | number n => .number n
  | text s => .text s
  | other kind literal => .other kind literal

def ofValue? : Value → Option Key
  | .null => some .null
  | .flag b => some (.flag b)
  | .number n => some (.number n)
  | .text s => some (.text s)
  | .other kind literal => some (.other kind literal)
  | .list _ | .object _ => none

/-- A flag counts as the number one or zero. -/
def number? : Key → Option Number
  | number n => some n
  | flag b => some (.int (if b then 1 else 0))
  | null | text _ | other _ _ => none

def same (a b : Key) : Bool :=
  match a, b with
  | null, null => true
  | text s, text t => s == t
  | other kind literal, other kind' literal' => kind == kind' && literal == literal'
  | _, _ => match a.number?, b.number? with
    | some m, some n => m.same n
    | _, _ => false

end Key

namespace Fields

def find? (key : Key) (fields : Fields) : Option Value :=
  (List.find? (fun f => f.1.same key) fields).map (·.2)

def get (name : String) (fields : Fields) : Value :=
  (find? (.text name) fields).getD .null

/-- Sets a field: an old one keeps its place and its key, a new one comes last. -/
def put (key : Key) (value : Value) : Fields → Fields
  | [] => [(key, value)]
  | (k, v) :: r => if k.same key then (k, value) :: r else (k, v) :: put key value r

def ofPairs (pairs : List (Key × Value)) : Fields :=
  pairs.foldl (fun fields p => put p.1 p.2 fields) []

end Fields

namespace Value

def int (n : Int) : Value := .number (.int n)

def float (x : Float) : Value := .number (.float x)

def record (fields : List (String × Value)) : Value :=
  .object (fields.map fun f => (.text f.1, f.2))

def isEmpty : Value → Bool
  | null => true
  | flag b => !b
  | number n => n.isZero
  | text s => s.isEmpty
  | list items => items.isEmpty
  | object fields => fields.isEmpty
  | other _ _ => false

def orElse (a b : Value) : Value :=
  if a.isEmpty then b else a

def kindName : Value → String
  | null => "NoneType"
  | flag _ => "bool"
  | number (.int _) => "int"
  | number (.float _) => "float"
  | text _ => "str"
  | list _ => "list"
  | object _ => "dict"
  | other kind _ => kind

end Value
end FlowCanvas
