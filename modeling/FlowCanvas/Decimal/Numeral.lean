import FlowCanvas.Decimal.Basic
import FlowCanvas.Text.Blank
import FlowCanvas.Text.Case
import FlowCanvas.Text.Digit

namespace FlowCanvas.Decimal
open Text

def digitsValue (cs : List Char) : Nat :=
  cs.foldl (fun n c => 10 * n + (digitValue? c).getD 0) 0

/-- The most decimal digits that an integer is read from. -/
def mostDigits : Nat := 4300

def tooManyDigitsText (count : Nat) : String :=
  "Exceeds the limit (" ++ toString mostDigits ++ " digits) for integer string conversion: " ++
    "value has " ++ toString count ++ " digits; use sys.set_int_max_str_digits() to increase " ++
    "the limit"

/-- A text without its underscores; none if one does not stand between two digits. -/
def dropUnderscores? (previous : Char) : List Char → Option (List Char)
  | [] => some []
  | '_' :: c :: r =>
    if isDigit previous && isDigit c then (dropUnderscores? c r).map (c :: ·) else none
  | '_' :: [] => none
  | c :: r => (dropUnderscores? c r).map (c :: ·)

def signAt : List Char → List Char × List Char
  | '-' :: r => (['-'], r)
  | '+' :: r => (['+'], r)
  | r => ([], r)

/-- Reads an exponent, which may be absent, up to the end of the text. -/
def exponent? : List Char → Option Int
  | [] => some 0
  | e :: r =>
    if e ≠ 'e' ∧ e ≠ 'E' then none
    else
      let (mark, digits) := signAt r
      if digits.isEmpty || !digits.all isDigit then none
      else some (if mark = ['-'] then -(digitsValue digits : Int) else digitsValue digits)

def unsigned? (cs : List Char) : Option Decimal :=
  let whole := cs.takeWhile isDigit
  let rest := cs.dropWhile isDigit
  let (fraction, rest) := match rest with
    | '.' :: r => (r.takeWhile isDigit, r.dropWhile isDigit)
    | r => ([], r)
  if whole.isEmpty && fraction.isEmpty then none
  else (exponent? rest).map fun e => ⟨digitsValue (whole ++ fraction), e - fraction.length⟩

/-- Blanks that may surround a numeral: all but the record separators. -/
def isMargin (c : Char) : Bool :=
  isBlank c && !(28 ≤ c.toNat && c.toNat ≤ 31)

def trimMargin (cs : List Char) : List Char :=
  ((cs.dropWhile isMargin).reverse.dropWhile isMargin).reverse

/-- The double that a text denotes; besides numerals, infinity and not-a-number in words. -/
def floatOfText? (text : List Char) : Option Float :=
  let (mark, cs) := signAt (trimMargin text)
  let signed (x : Float) : Float := if mark = ['-'] then -x else x
  let name := String.ofList (cs.map Char.toLower)
  if name = "inf" ∨ name = "infinity" then some (signed (1.0 / 0.0))
  else if name = "nan" then some (0.0 / 0.0)
  else ((dropUnderscores? '_' cs).bind unsigned?).map fun d => signed d.toFloat

def fractionAt : List Char → List Char × List Char
  | '.' :: r =>
    if r.takeWhile isDigit = [] then ([], '.' :: r)
    else ('.' :: r.takeWhile isDigit, r.dropWhile isDigit)
  | r => ([], r)

/-- A complete exponent at the head of a text. -/
def exponentAt : List Char → List Char
  | [] => []
  | e :: r =>
    let (mark, rest) := signAt r
    let digits := rest.takeWhile isDigit
    if (e = 'e' ∨ e = 'E') ∧ digits ≠ [] then e :: mark ++ digits else []

/-- The longest numeral at the head of a text: an optional sign, digits with an optional point that
is followed by a digit, and an exponent if it is complete. -/
def numeralAt? (cs : List Char) : Option (List Char) :=
  let (sign, body) := signAt cs
  let whole := body.takeWhile isDigit
  let (fraction, rest) := fractionAt (body.dropWhile isDigit)
  if whole = [] ∧ fraction = [] then none
  else some (sign ++ (whole ++ fraction ++ exponentAt rest))

def firstNumeral? : List Char → Option (List Char)
  | [] => none
  | c :: r => match numeralAt? (c :: r) with
    | some numeral => some numeral
    | none => firstNumeral? r

end FlowCanvas.Decimal
