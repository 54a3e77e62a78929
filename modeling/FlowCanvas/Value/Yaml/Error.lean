import FlowCanvas.Value.Yaml.Moment

namespace FlowCanvas.Yaml

inductive Error where
  | malformed
  /-- A code that no character has. -/
  | noCharacter (code : Nat)
  /-- An integer that has a base and no digits. -/
  | digitless (base : Nat)
  /-- A decimal integer with more digits than are read. -/
  | tooManyDigits (count : Nat)
  /-- A number in sixties with a place value past the doubles. -/
  | tooLarge
  | impossible (fault : Moment.Fault)
  deriving DecidableEq, Repr

def codeLimit : Nat := 0x80000000

namespace Error

def message : Error → String
  | malformed => "not a YAML document"
  | noCharacter code =>
    if code < codeLimit then "chr() arg not in range(0x110000)"
    else "Python int too large to convert to C int"
  | digitless base => "invalid literal for int() with base " ++ toString base ++ ": ''"
  | tooManyDigits count => Decimal.tooManyDigitsText count
  | tooLarge => "int too large to convert to float"
  | impossible fault => fault.message

def isOverflow : Error → Bool
  | noCharacter code => codeLimit ≤ code
  | tooLarge => true
  | malformed | digitless _ | tooManyDigits _ | impossible _ => false

end Error
end FlowCanvas.Yaml
