import FlowCanvas.Decimal.Basic

namespace FlowCanvas.Decimal

/-- The reals that round to `mantissa · 2 ^ exponent`, in quarters of its last place: from `low` to
`high`, ends included when the mantissa is even. -/
structure Cell where
  low : Nat
  high : Nat
  unit : Ratio
  closed : Bool

/-- Below a power of two the next smaller double is half as far away. -/
def cell (mantissa : Nat) (exponent : Int) : Cell where
  low := 4 * mantissa - if mantissa = Nat.pow 2 52 ∧ -1074 < exponent then 1 else 2
  high := 4 * mantissa + 2
  unit := Ratio.power 2 (exponent - 2)
  closed := mantissa % 2 = 0

def Cell.contains (c : Cell) (r : Ratio) : Bool :=
  let low := c.unit.scale c.low
  let high := c.unit.scale c.high
  if c.closed then low.le r && r.le high else low.lt r && r.lt high

/-- The two neighbours of `value` among the multiples of `10 ^ place` that lie in the cell; of two
the nearer is taken, of two equally near the even one. -/
def onGrid? (c : Cell) (value : Ratio) (place : Int) : Option Decimal :=
  let step := Ratio.power 10 place
  let scaled := value.div step
  let below := scaled.floor
  let nearest := scaled.round
  let hit (k : Nat) := k ≠ 0 && c.contains (step.scale k)
  if hit nearest then some ⟨nearest, place⟩
  else if hit below then some ⟨below, place⟩
  else if hit (below + 1) then some ⟨below + 1, place⟩
  else none

/-- The decimal with the fewest digits that reads back as the positive double
`mantissa · 2 ^ exponent`, the nearest one where several have as few. Seventeen digits always do. -/
def shortest (mantissa : Nat) (exponent : Int) : Decimal :=
  let value := (Ratio.power 2 exponent).scale mantissa
  let top := value.magnitude
  let found := (List.range 17).findSome? fun (i : Nat) =>
    onGrid? (cell mantissa exponent) value (top - (i : Int))
  (found.getD ⟨mantissa, exponent⟩).dropZeros

def significant (digits mantissa : Nat) (exponent : Int) : Decimal :=
  let value := (Ratio.power 2 exponent).scale mantissa
  let place := value.magnitude - (digits : Int) + 1
  Decimal.dropZeros ⟨(value.div (Ratio.power 10 place)).round, place⟩

end FlowCanvas.Decimal
