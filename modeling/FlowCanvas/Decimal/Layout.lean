import FlowCanvas.Decimal.Shortest

namespace FlowCanvas.Decimal

/-- The decisions of a written form: below which exponent of the leading digit the positional
notation ends, and whether a whole number shows a fraction. -/
structure Form where
  lowest : Int
  highest : Int
  wholeFraction : Bool
  deriving Repr

def shortestForm : Form := ⟨-4, 16, true⟩

def sixDigitForm : Form := ⟨-4, 6, false⟩

def zeros (n : Nat) : List Char :=
  List.replicate n '0'

def exponentText (e : Int) : List Char :=
  let digits := (toString e.natAbs).toList
  (if e < 0 then '-' else '+') :: (zeros (2 - digits.length) ++ digits)

def Form.write (f : Form) (d : Decimal) : List Char :=
  let digits := (toString d.coefficient).toList
  let leading : Int := digits.length + d.exponent - 1
  let whole := if f.wholeFraction then ['.', '0'] else []
  if d.coefficient = 0 then '0' :: whole
  else if leading < f.lowest ∨ f.highest ≤ leading then
    let fraction := digits.drop 1
    digits.take 1 ++ (if fraction.isEmpty then [] else '.' :: fraction) ++
      'e' :: exponentText leading
  else if 0 ≤ d.exponent then digits ++ zeros d.exponent.toNat ++ whole
  else if 0 ≤ leading then
    digits.take (leading + 1).toNat ++ '.' :: digits.drop (leading + 1).toNat
  else '0' :: '.' :: (zeros (-leading - 1).toNat ++ digits)

structure Words where
  infinite : String
  nan : String

def shortWords : Words := ⟨"inf", "nan"⟩

def longWords : Words := ⟨"Infinity", "NaN"⟩

def writeWith (f : Form) (w : Words) (digits : Nat → Int → Decimal) (x : Float) : String :=
  let signed (negative : Bool) (text : String) := if negative then "-" ++ text else text
  match exact x with
  | .nan => w.nan
  | .infinite negative => signed negative w.infinite
  | .finite negative mantissa exponent =>
    let d := if mantissa = 0 then ⟨0, 0⟩ else digits mantissa exponent
    signed negative (String.ofList (f.write d))

def shortestText (x : Float) (w : Words) : String :=
  writeWith shortestForm w shortest x

def sixDigitText (x : Float) : String :=
  writeWith sixDigitForm shortWords (significant 6) x

end FlowCanvas.Decimal
