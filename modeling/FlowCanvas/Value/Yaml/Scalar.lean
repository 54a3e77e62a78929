import FlowCanvas.Decimal.Numeral
import FlowCanvas.Value.Yaml.Error

namespace FlowCanvas.Yaml.Scalar
open Decimal Text

def trueWords : List String :=
  ["yes", "Yes", "YES", "true", "True", "TRUE", "on", "On", "ON"]

def falseWords : List String :=
  ["no", "No", "NO", "false", "False", "FALSE", "off", "Off", "OFF"]

def nullWords : List String :=
  ["", "~", "null", "Null", "NULL"]

def infinityWords : List String :=
  [".inf", ".Inf", ".INF"]

def nanWords : List String :=
  [".nan", ".NaN", ".NAN"]

def isDigitOf (base : Nat) (c : Char) : Bool :=
  match hexValue? c with
  | some d => d < base
  | none => false

def areDigits (base : Nat) (cs : List Char) : Bool :=
  cs.all fun c => isDigitOf base c || c = '_'

def isRun (cs : List Char) : Bool :=
  cs.head?.any isAsciiDigit && areDigits 10 cs

def withoutUnderscores (cs : List Char) : List Char :=
  cs.filter (· ≠ '_')

def valueIn (base : Nat) (cs : List Char) : Nat :=
  cs.foldl (fun n c => match hexValue? c with
    | some d => base * n + d
    | none => n) 0

def signed (cs : List Char) : Bool × List Char :=
  match cs with
  | '-' :: r => (true, r)
  | '+' :: r => (false, r)
  | r => (false, r)

def isSixtieth (cs : List Char) : Bool :=
  match cs with
  | [c] => isAsciiDigit c
  | [c, d] => isDigitOf 6 c && isAsciiDigit d
  | _ => false

/-- The base that a prefix stands for: two after `0b`, sixteen after `0x`. What follows is not
empty. -/
def prefixed? (cs : List Char) : Option (Nat × List Char) :=
  match cs with
  | '0' :: 'b' :: c :: r => some (2, c :: r)
  | '0' :: 'x' :: c :: r => some (16, c :: r)
  | _ => none

def decimal (cs : List Char) : Except Error Nat :=
  let digits := withoutUnderscores cs
  if mostDigits < digits.length then .error (.tooManyDigits digits.length)
  else .ok (digitsValue digits)

def based (base : Nat) (cs : List Char) : Except Error Nat :=
  if (withoutUnderscores cs).isEmpty then .error (.digitless base) else .ok (valueIn base cs)

/-- Reads an unsigned integer: in the base of its prefix, octal after another zero, else decimal.
None if the text has another form. -/
def natural? (cs : List Char) : Option (Except Error Nat) :=
  match prefixed? cs, cs with
  | some (base, digits), _ => if areDigits base digits then some (based base digits) else none
  | none, ['0'] => some (.ok 0)
  | none, '0' :: r => if areDigits 8 r then some (.ok (valueIn 8 r)) else none
  | none, cs =>
    match Text.pieces (· = ':') cs with
    | first :: parts =>
      if isRun first && parts.all isSixtieth then
        some ((decimal first).map fun n =>
          parts.foldl (fun n part => 60 * n + valueIn 10 part) n)
      else none
    | [] => none

def integer? (cs : List Char) : Option (Except Error Int) :=
  let (negative, body) := signed cs
  (natural? body).map (·.map fun n => if negative then -(n : Int) else n)

def isExponent (cs : List Char) : Bool :=
  match cs with
  | [] => true
  | e :: s :: d :: r => (e = 'e' || e = 'E') && (s = '-' || s = '+') && (d :: r).all isAsciiDigit
  | _ => false

def isFraction (cs : List Char) : Bool :=
  isExponent (cs.dropWhile fun c => isAsciiDigit c || c = '_')

def toFloat (cs : List Char) : Float :=
  (floatOfText? (withoutUnderscores cs)).getD 0

/-- Adds up parts that count in sixties, the last one first. -/
def sixtieths (parts : List (List Char)) : Except Error Float :=
  parts.reverse.zipIdx.foldlM (fun sum (part, i) =>
    match Number.ofInt? (Nat.pow 60 i) with
    | some unit => .ok (sum + toFloat part * unit)
    | none => .error .tooLarge) 0

def pointed? (cs : List Char) : Option (Except Error Float) :=
  match Text.cutAt? (· = '.') cs with
  | none => none
  | some (whole, fraction) =>
    match Text.pieces (· = ':') whole with
    | [run] => if isRun run && isFraction fraction then some (.ok (toFloat cs)) else none
    | first :: parts =>
      if isRun first && parts.all isSixtieth && areDigits 10 fraction then
        some (sixtieths (Text.pieces (· = ':') cs))
      else none
    | [] => none

def infinity : Float := 1.0 / 0.0

def float? (cs : List Char) : Option (Except Error Float) :=
  let (negative, body) := signed cs
  let withSign (x : Float) : Float := if negative then -x else x
  if infinityWords.contains (String.ofList body) then some (.ok (withSign infinity))
  else if nanWords.contains (String.ofList cs) then some (.ok (0.0 / 0.0))
  else match cs with
    | '.' :: c :: r =>
      if isAsciiDigit c && isFraction (c :: r) then some (.ok (toFloat cs)) else none
    | _ => (pointed? body).map (·.map withSign)

def moment (m : Moment) : Except Error Value :=
  match m.fault? with
  | some fault => .error (.impossible fault)
  | none => .ok m.toValue

/-- The value that a plain text stands for. -/
def value (s : String) : Except Error Value :=
  if nullWords.contains s then .ok .null
  else if trueWords.contains s then .ok (.flag true)
  else if falseWords.contains s then .ok (.flag false)
  else match float? s.toList, integer? s.toList, Moment.read? s.toList with
    | some x, _, _ => x.map .float
    | none, some n, _ => n.map .int
    | none, none, some m => moment m
    | none, none, none => .ok (.text s)

end FlowCanvas.Yaml.Scalar
