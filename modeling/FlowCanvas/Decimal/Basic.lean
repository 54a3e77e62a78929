namespace FlowCanvas

/-- The number `coefficient · 10 ^ exponent`. -/
structure Decimal where
  coefficient : Nat
  exponent : Int
  deriving DecidableEq, Repr

namespace Decimal

/-- The exact value of a floating-point number: a finite one is `± mantissa · 2 ^ exponent`. -/
inductive Exact where
  | nan
  | infinite (negative : Bool)
  | finite (negative : Bool) (mantissa : Nat) (exponent : Int)
  deriving DecidableEq, Repr

/-- Reads sign, exponent and fraction off the 64 bits of a double. -/
def exact (x : Float) : Exact :=
  let bits : Nat := x.toBits.toNat
  let negative := bits / Nat.pow 2 63 == 1
  let biased : Nat := bits / Nat.pow 2 52 % 2048
  let fraction : Nat := bits % Nat.pow 2 52
  if biased = 2047 then
    if fraction = 0 then .infinite negative else .nan
  else if biased = 0 then .finite negative fraction (-1074)
  else .finite negative (fraction + Nat.pow 2 52) ((biased : Int) - 1075)

structure Ratio where
  num : Nat
  den : Nat
  deriving DecidableEq, Repr

namespace Ratio

def power (base : Nat) (e : Int) : Ratio :=
  ⟨Nat.pow base e.toNat, Nat.pow base (-e).toNat⟩

def scale (k : Nat) (r : Ratio) : Ratio :=
  ⟨k * r.num, r.den⟩

def div (a b : Ratio) : Ratio :=
  ⟨a.num * b.den, a.den * b.num⟩

def le (a b : Ratio) : Bool :=
  a.num * b.den ≤ b.num * a.den

def lt (a b : Ratio) : Bool :=
  a.num * b.den < b.num * a.den

def floor (r : Ratio) : Nat :=
  r.num / r.den

def round (r : Ratio) : Nat :=
  let k := r.num / r.den
  let twice := 2 * (r.num % r.den)
  if twice < r.den then k
  else if r.den < twice then k + 1
  else k + k % 2

/-- The exponent of the leading decimal digit of a ratio that is positive and above `10 ^ -400`. -/
def magnitude (r : Ratio) : Int :=
  ((toString (r.num * Nat.pow 10 400 / r.den)).length : Int) - 401

end Ratio

/-- The same number without trailing zeros in the coefficient. -/
def dropZeros (d : Decimal) : Decimal :=
  let rec strip (fuel coefficient : Nat) (exponent : Int) : Decimal :=
    match fuel with
    | 0 => ⟨coefficient, exponent⟩
    | fuel + 1 =>
      if coefficient ≠ 0 ∧ coefficient % 10 = 0 then strip fuel (coefficient / 10) (exponent + 1)
      else ⟨coefficient, exponent⟩
  strip (toString d.coefficient).length d.coefficient d.exponent

/-- The double nearest to a decimal number, infinite above the range and zero below it. -/
def toFloat (d : Decimal) : Float :=
  let leading := ((toString d.coefficient).length : Int) + d.exponent
  if d.coefficient = 0 ∨ leading < -400 then 0.0
  else if 400 < leading then 1.0 / 0.0
  else if d.exponent < 0 then Float.ofScientific d.coefficient true d.exponent.natAbs
  else Float.ofScientific d.coefficient false d.exponent.natAbs

/-- A double rounded to two decimal places on its exact value, a half to the even neighbour. The
sign stays, also that of a zero. -/
def roundToCents (x : Float) : Float :=
  match exact x with
  | .finite negative mantissa exponent =>
    let cents := ((Ratio.power 2 exponent).scale (100 * mantissa)).round
    let y := toFloat ⟨cents, -2⟩
    if negative then -y else y
  | _ => x

end Decimal
end FlowCanvas
