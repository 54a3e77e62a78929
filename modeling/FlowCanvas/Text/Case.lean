import FlowCanvas.Text.Blank
import FlowCanvas.Text.Case.LowerTable
import FlowCanvas.Text.Case.UpperTable
import FlowCanvas.Text.Case.FoldTable
import FlowCanvas.Text.Case.SigmaTable

namespace FlowCanvas.Text
open Case

def capitalSigma : Char := 'Σ'

/-- Whether the nearest character that is not case-ignorable is cased. -/
def besideCased (cs : List Char) : Bool :=
  match cs.dropWhile (within ignorableRanges) with
  | c :: _ => within casedRanges c
  | [] => false

def lowerChar (c : Char) : List Char :=
  if c = 'İ' then ['i', Char.ofNat 0x307] else [shiftBy lowerShifts c]

/-- Lowers a text, given the text before it in reverse: a sigma after a cased letter and before
none ends its word. -/
def lowerAfter (before : List Char) : List Char → List Char
  | [] => []
  | c :: r =>
    let low :=
      if c = capitalSigma then if besideCased before && !besideCased r then ['ς'] else ['σ']
      else lowerChar c
    low ++ lowerAfter (c :: before) r

def lower (cs : List Char) : List Char :=
  lowerAfter [] cs

def upper (cs : List Char) : List Char :=
  cs.flatMap fun c => (expand? upperExpansions c).getD [shiftBy upperShifts c]

/-- Case folding: two texts that fold to the same one differ in case only. -/
def fold (cs : List Char) : List Char :=
  cs.flatMap fun c =>
    match expand? foldExpansions c with
    | some folded => folded
    | none => if foldShifts.any (·.covers c.toNat) then [shiftBy foldShifts c] else lowerChar c

end FlowCanvas.Text
