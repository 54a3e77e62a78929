import FlowCanvas.Text.Digit
import FlowCanvas.Value.Yaml.Error
import FlowCanvas.Value.Yaml.Glyph

namespace FlowCanvas.Yaml

inductive Gap where
  | spaces (cs : List Char)
  /-- At least one line end, with those that follow the first. -/
  | lines (first : Char) (more : List Char)
  /-- After a line end that a backslash takes away. -/
  | joined (more : List Char)
  deriving DecidableEq, Repr

namespace Gap

def none : Gap := spaces []

def text : Gap → List Char
  | spaces cs => cs
  | lines first more =>
    if first ≠ '\n' then first :: more else if more.isEmpty then [' '] else more
  | joined more => more

def isEmpty : Gap → Bool
  | spaces cs => cs.isEmpty
  | lines _ _ | joined _ => false

def hasBreak : Gap → Bool
  | spaces _ => false
  | lines _ _ | joined _ => true

def add (c : Char) : Gap → Gap
  | spaces cs => if isBreak c then lines (keptBreak c) [] else spaces (cs ++ [c])
  | lines first more => if isBreak c then lines first (more ++ [keptBreak c]) else lines first more
  | joined more => if isBreak c then joined (more ++ [keptBreak c]) else joined more

end Gap

def escape? (c : Char) : Option Char :=
  match c with
  | '0' => some (Char.ofNat 0)
  | 'a' => some (Char.ofNat 7)
  | 'b' => some (Char.ofNat 8)
  | 't' | '\t' => some '\t'
  | 'n' => some '\n'
  | 'v' => some (Char.ofNat 11)
  | 'f' => some (Char.ofNat 12)
  | 'r' => some '\r'
  | 'e' => some (Char.ofNat 27)
  | ' ' | '"' | '\\' | '/' => some c
  | 'N' => some (Char.ofNat 0x85)
  | '_' => some (Char.ofNat 0xA0)
  | 'L' => some (Char.ofNat 0x2028)
  | 'P' => some (Char.ofNat 0x2029)
  | _ => none

def codeLength? (c : Char) : Option Nat :=
  match c with
  | 'x' => some 2
  | 'u' => some 4
  | 'U' => some 8
  | _ => none

def charOf (code : Nat) : Except Error Char :=
  if code.isValidChar then .ok (Char.ofNat code)
  else if 0x110000 ≤ code then .error (.noCharacter code)
  else .error .malformed

inductive Lead where
  | gap (gap : Gap)
  | backslash
  /-- In a code of which some digits are still to come. -/
  | code (left value : Nat)

/-- Reads a text up to its closing quote. In single quotes a quote is written twice, in double
quotes a backslash starts an escape. -/
def quoted (mark : Char) (lead : Lead) : List Glyph → Except Error (List Char × List Glyph)
  | [] => .error .malformed
  | g :: r =>
    let c := g.char
    let put (cs : List Char) (rest : Except Error (List Char × List Glyph)) :
        Except Error (List Char × List Glyph) :=
      rest.map fun (more, rest) => (cs ++ more, rest)
    match lead with
    | .backslash =>
      -- A line end that is escaped leaves nothing.
      if isBreak c then quoted mark (.gap (.joined [])) r
      else match codeLength? c, escape? c with
        | some n, _ => quoted mark (.code n 0) r
        | none, some e => put [e] (quoted mark (.gap .none) r)
        | none, none => .error .malformed
    | .code left value =>
      match Text.hexValue? c with
      | none => .error .malformed
      | some digit =>
        let value := 16 * value + digit
        if 1 < left then quoted mark (.code (left - 1) value) r
        else match charOf value with
          | .ok e => put [e] (quoted mark (.gap .none) r)
          | .error e => .error e
    | .gap gap =>
      -- A text must not run on into another document.
      if gap.hasBreak && separatesDocuments (g :: r) then .error .malformed
      else if isBlank c then quoted mark (.gap (gap.add c)) r
      else if c = mark then
        match r with
        | h :: s =>
          if mark = '\'' ∧ h.char = mark then put (gap.text ++ [c]) (quoted mark (.gap .none) s)
          else .ok (gap.text, r)
        | [] => .ok (gap.text, r)
      else if c = '\\' ∧ mark = '"' then put gap.text (quoted mark .backslash r)
      else put (gap.text ++ [c]) (quoted mark (.gap .none) r)

/-- Whether a plain text stops before a character: inside brackets also before those that structure
lists and maps. -/
def stopsPlain (inFlow : Bool) (g : Glyph) (r : List Glyph) : Bool :=
  let ends := match r with
    | [] => true
    | h :: _ => isBlank h.char || (inFlow && ",[]\x7b\x7d".toList.contains h.char)
  (g.char = ':' && ends) || (inFlow && ",?[]\x7b\x7d".toList.contains g.char)

/-- Reads a plain text. White space belongs to it only if the text goes on after it: not with a
comment or a document, and outside brackets only in at least the given column. `rest` is what
follows the last character that was read. -/
def plain (inFlow : Bool) (column : Nat) (gap : Gap) (rest : List Glyph) :
    List Glyph → List Char × List Glyph
  | [] => ([], rest)
  | g :: r =>
    if gap.hasBreak && separatesDocuments (g :: r) then ([], rest)
    else if g.char = ' ' ∨ isBreak g.char then plain inFlow column (gap.add g.char) rest r
    else if g.char = '\t' ∨ stopsPlain inFlow g r then ([], rest)
    else if !gap.isEmpty && (g.char = '#' || (!inFlow && g.column < column)) then ([], rest)
    else
      let (more, rest) := plain inFlow column .none r r
      (gap.text ++ g.char :: more, rest)

end FlowCanvas.Yaml
