import FlowCanvas.Decimal.Numeral
import FlowCanvas.Value.Literal

namespace FlowCanvas

/-- A value that does not fit where it stands. -/
inductive Misfit where
  /-- Something without fields is asked for one. -/
  | noFields (kind : String)
  /-- Something without keys is looked into by a key. -/
  | notKeyed (kind : String)
  /-- Something that is no text is asked for its letters. -/
  | notText (kind operation : String)
  | notIterable (kind : String)
  | notContainer (kind : String)
  | notNumeric (kind : String)
  /-- An item of a list of fields that is no pair. -/
  | notPair (index : Nat)
  | badPair (index length : Nat)
  | badKey (kind : String)
  | badNumeral (text : String)
  | tooLarge
  | missingField (name : String)
  deriving DecidableEq, Repr

namespace Misfit

def isKindFault : Misfit → Bool
  | noFields _ | notKeyed _ | notText _ _ | notIterable _ | notContainer _ | notNumeric _
  | notPair _ | badKey _ => true
  | badPair _ _ | badNumeral _ | tooLarge | missingField _ => false

def message : Misfit → String
  | noFields kind => "'" ++ kind ++ "' object has no attribute 'get'"
  | notKeyed kind =>
    if kind = (Value.text "").kindName then "string indices must be integers, not 'str'"
    else if kind = (Value.list []).kindName then
      "list indices must be integers or slices, not str"
    else "'" ++ kind ++ "' object is not subscriptable"
  | notText kind operation => "'" ++ kind ++ "' object has no attribute '" ++ operation ++ "'"
  | notIterable kind => "'" ++ kind ++ "' object is not iterable"
  | notContainer kind => "argument of type '" ++ kind ++ "' is not iterable"
  | notNumeric kind => "float() argument must be a string or a real number, not '" ++ kind ++ "'"
  | notPair index =>
    "cannot convert dictionary update sequence element #" ++ toString index ++ " to a sequence"
  | badPair index length =>
    "dictionary update sequence element #" ++ toString index ++ " has length " ++
      toString length ++ "; 2 is required"
  | badKey kind => "unhashable type: '" ++ kind ++ "'"
  | badNumeral text => "could not convert string to float: " ++ Text.quoted text
  | tooLarge => "int too large to convert to float"
  | missingField name => Text.quoted name

end Misfit

namespace Number

def asFloat (n : Number) : Except Misfit Float :=
  match n.toFloat? with
  | some x => .ok x
  | none => .error .tooLarge

end Number

namespace Value

/-- Reads a number, a flag as one or zero, or the numeral in a text. -/
def asFloat : Value → Except Misfit Float
  | .number n => n.asFloat
  | .flag b => .ok (if b then 1.0 else 0.0)
  | .text s =>
    match Decimal.floatOfText? s.toList with
    | some x => .ok x
    | none => .error (.badNumeral s)
  | v => .error (.notNumeric v.kindName)

def asObject : Value → Except Misfit Fields
  | .object fields => .ok fields
  | v => .error (.noFields v.kindName)

def asKeyed : Value → Except Misfit Fields
  | .object fields => .ok fields
  | v => .error (.notKeyed v.kindName)

/-- What a value holds: the items of a list, the characters of a text, the keys of an object. -/
def items : Value → Except Misfit (List Value)
  | .list items => .ok items
  | .text s => .ok (s.toList.map fun c => .text c.toString)
  | .object fields => .ok (fields.map (·.1.toValue))
  | v => .error (.notIterable v.kindName)

def asPair (index : Nat) (item : Value) : Except Misfit (Key × Value) :=
  match item.items with
  | .error _ => .error (.notPair index)
  | .ok [key, value] =>
    match Key.ofValue? key with
    | some k => .ok (k, value)
    | none => .error (.badKey key.kindName)
  | .ok parts => .error (.badPair index parts.length)

def pairsFrom (index : Nat) : List Value → Except Misfit (List (Key × Value))
  | [] => .ok []
  | item :: r => do
    let pair ← asPair index item
    return pair :: (← pairsFrom (index + 1) r)

/-- Reads the fields of an object, or the fields that a list of pairs gives. -/
def asFields : Value → Except Misfit Fields
  | .object fields => .ok fields
  | v => do
    return Fields.ofPairs (← pairsFrom 0 (← v.items))

def orNoFields (v : Value) : Value :=
  v.orElse (.object [])

end Value
end FlowCanvas
