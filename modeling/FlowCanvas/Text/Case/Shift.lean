namespace FlowCanvas.Text.Case

/-- A run of characters, every `step`-th from `first` to `last`, whose counterparts all lie `shift`
code points away. -/
structure Shift where
  first : Nat
  last : Nat
  step : Nat
  shift : Int
  deriving Repr

def Shift.covers (s : Shift) (n : Nat) : Bool :=
  s.first ≤ n && n ≤ s.last && (n - s.first) % s.step == 0

/-- The counterpart of a character under a table of runs; a character in no run is its own. -/
def shiftBy (table : List Shift) (c : Char) : Char :=
  match table.find? (·.covers c.toNat) with
  | some s => Char.ofNat (c.toNat + s.shift).toNat
  | none => c

def expand? (table : List (Nat × List Nat)) (c : Char) : Option (List Char) :=
  (table.lookup c.toNat).map (·.map Char.ofNat)

end FlowCanvas.Text.Case
