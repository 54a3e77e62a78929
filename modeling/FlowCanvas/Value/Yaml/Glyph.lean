import FlowCanvas.Text.Lines

namespace FlowCanvas.Yaml

structure Glyph where
  char : Char
  index : Nat
  line : Nat
  column : Nat
  deriving DecidableEq, Repr

def isBreak (c : Char) : Bool :=
  c = '\n' || c = '\r' || c.toNat = 0x85 || c.toNat = 0x2028 || c.toNat = 0x2029

def isSpace (c : Char) : Bool :=
  c = ' ' || c = '\t'

def isBlank (c : Char) : Bool :=
  isSpace c || isBreak c

def keptBreak (c : Char) : Char :=
  if c.toNat = 0x2028 ∨ c.toNat = 0x2029 then c else '\n'

/-- Places characters one after the other. A byte order mark takes no column. -/
def glyphsFrom (index line column : Nat) : List Char → List Glyph
  | [] => []
  | c :: r =>
    ⟨c, index, line, column⟩ ::
      if isBreak c then glyphsFrom (index + 1) (line + 1) 0 r
      else glyphsFrom (index + 1) line (if c = Text.byteOrderMark then column else column + 1) r

def glyphs (text : List Char) : List Glyph :=
  glyphsFrom 0 0 0 (Text.unifyLines (Text.dropMark text))

def endsWord : List Glyph → Bool
  | [] => true
  | g :: _ => isBlank g.char

/-- Whether a character followed by a given text stands for a structure: it is followed by a
blank. -/
def isMark (c : Char) : List Glyph → Bool
  | [] => false
  | g :: r => g.char = c && endsWord r

/-- Whether a line that separates documents starts here: three times the same character and then
a blank. -/
def isRule (c : Char) : List Glyph → Bool
  | f :: g :: h :: r => f.column = 0 && f.char = c && g.char = c && isMark c (h :: r)
  | _ => false

def separatesDocuments (gs : List Glyph) : Bool :=
  isRule '-' gs || isRule '.' gs

def isAllowed (c : Char) : Bool :=
  let n := c.toNat
  c = '\t' || c = '\n' || c = '\r' || n = 0x85 || (0x20 ≤ n && n ≤ 0x7E) ||
    (0xA0 ≤ n && n ≤ 0xFFFD) || 0x10000 ≤ n

end FlowCanvas.Yaml
