import FlowCanvas.Text.Blank

namespace FlowCanvas.Text

/-- The lines of a text, without their terminators. -/
def lines : List Char → List (List Char)
  | [] => [[]]
  | '\r' :: '\n' :: r => [] :: lines r
  | c :: r =>
    if c = '\n' ∨ c = '\r' then [] :: lines r
    else match lines r with
      | [] => [[c]]
      | l :: ls => (c :: l) :: ls

def unifyLines : List Char → List Char
  | [] => []
  | '\r' :: '\n' :: r => '\n' :: unifyLines r
  | c :: r => (if c = '\r' then '\n' else c) :: unifyLines r

def byteOrderMark : Char := Char.ofNat 0xFEFF

def dropMark (cs : List Char) : List Char :=
  match cs with
  | c :: r => if c = byteOrderMark then r else cs
  | [] => []

/-- The lines of a text without their trailing white space; a leading byte order mark is ignored. -/
def tidyLines (cs : List Char) : List (List Char) :=
  (lines (dropMark cs)).map trimEnd

@[simp] theorem lines_ne_nil (cs : List Char) : lines cs ≠ [] := by
  unfold lines
  split
  · simp
  · simp
  · split
    · simp
    · split <;> simp

end FlowCanvas.Text
