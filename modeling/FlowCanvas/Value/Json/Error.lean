import FlowCanvas.Decimal.Numeral

namespace FlowCanvas.Json

inductive Reason where
  | noValue
  | noName
  | noColon
  | noComma
  | moreData
  | openText
  | controlCharacter
  | badEscape
  | badUnicodeEscape
  | byteOrderMark
  /-- An integer with more digits than are read. -/
  | tooManyDigits (count : Nat)
  /-- More lists and objects inside each other than are read; the innermost is a list or an
  object. -/
  | tooDeep (isList : Bool)
  deriving DecidableEq, Repr

def Reason.message : Reason → String
  | noValue => "Expecting value"
  | noName => "Expecting property name enclosed in double quotes"
  | noColon => "Expecting ':' delimiter"
  | noComma => "Expecting ',' delimiter"
  | moreData => "Extra data"
  | openText => "Unterminated string starting at"
  | controlCharacter => "Invalid control character at"
  | badEscape => "Invalid \\escape"
  | badUnicodeEscape => "Invalid \\uXXXX escape"
  | byteOrderMark => "Unexpected UTF-8 BOM (decode using utf-8-sig)"
  | tooManyDigits count => Decimal.tooManyDigitsText count
  | tooDeep isList =>
    "maximum recursion depth exceeded while decoding a JSON " ++
      (if isList then "array" else "object") ++ " from a unicode string"

def Reason.isLimit : Reason → Bool
  | tooManyDigits _ | tooDeep _ => true
  | noValue | noName | noColon | noComma | moreData | openText | controlCharacter | badEscape
  | badUnicodeEscape | byteOrderMark => false

def Reason.isDepth : Reason → Bool
  | tooDeep _ => true
  | _ => false

/-- A fault and how much of the text is left where it is. -/
structure Fault where
  reason : Reason
  left : Nat
  deriving DecidableEq, Repr

/-- A fault and its place: lines and columns count from one, characters from zero. -/
structure Error where
  reason : Reason
  line : Nat
  column : Nat
  position : Nat
  deriving DecidableEq, Repr

def Fault.within (text : List Char) (f : Fault) : Error :=
  let position := text.length - f.left
  let before := text.take position
  { reason := f.reason
    line := before.count '\n' + 1
    column := (before.reverse.takeWhile (· ≠ '\n')).length + 1
    position }

def Error.message (e : Error) : String :=
  if e.reason.isLimit then e.reason.message
  else
    e.reason.message ++ ": line " ++ toString e.line ++ " column " ++ toString e.column ++
      " (char " ++ toString e.position ++ ")"

end FlowCanvas.Json
