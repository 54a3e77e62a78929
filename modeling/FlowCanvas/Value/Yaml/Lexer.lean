import FlowCanvas.Value.Yaml.Text
import FlowCanvas.Value.Yaml.Token

namespace FlowCanvas.Yaml

/-- A place where a key may turn out to start. -/
structure Candidate where
  start : Glyph
  /-- How many tokens come before it. -/
  before : Nat
  /-- Whether only a key can stand there. -/
  required : Bool

structure Lexer where
  /-- The tokens so far, the last one first. -/
  tokens : List Token := []
  /-- The columns of the open block lists and maps, the innermost first. -/
  indents : List Nat := []
  /-- Whether a key may start at the next token. -/
  keyAllowed : Bool := true
  candidate : Option Candidate := none
  /-- The candidates outside each open bracket, the innermost first. -/
  outer : List (Option Candidate) := []

namespace Lexer

def inFlow (l : Lexer) : Bool :=
  !l.outer.isEmpty

def push (l : Lexer) (t : Token) : Lexer :=
  { l with tokens := t :: l.tokens }

/-- The longest key, in characters, that needs no mark of its own. -/
def longestKey : Nat := 1024

/-- A candidate as it stands at a later place: it lapses on another line and after too many
characters, unless it is required. -/
def candidateAt? (g : Glyph) : Option Candidate → Option (Option Candidate)
  | none => some none
  | some c =>
    if c.start.line = g.line ∧ g.index - c.start.index ≤ longestKey then some (some c)
    else if c.required then none
    else some none

def moveTo? (l : Lexer) (g : Glyph) : Option Lexer := do
  let candidate ← candidateAt? g l.candidate
  let outer ← l.outer.mapM (candidateAt? g)
  return { l with candidate, outer }

/-- Gives the candidate up, which must not be required. -/
def forget? (l : Lexer) : Option Lexer :=
  match l.candidate with
  | some c => if c.required then none else some { l with candidate := none }
  | none => some l

def remember? (l : Lexer) (g : Glyph) : Option Lexer := do
  if l.keyAllowed then
    let l ← l.forget?
    let required := !l.inFlow && l.indents.head? = some g.column
    return { l with candidate := some ⟨g, l.tokens.length, required⟩ }
  else return l

def unwind (column : Nat) (l : Lexer) : Lexer :=
  let closed := l.indents.takeWhile (column < ·)
  { l with
    tokens := closed.map (fun _ => .blockEnd) ++ l.tokens
    indents := l.indents.drop closed.length }

def unwindAll (l : Lexer) : Lexer :=
  { l with tokens := l.indents.map (fun _ => .blockEnd) ++ l.tokens, indents := [] }

def isDeeper (l : Lexer) (column : Nat) : Bool :=
  match l.indents with
  | [] => true
  | c :: _ => c < column

/-- Opens a block list or map in a column, unless one is open there. Outside brackets it may only
start where a key may. -/
def openBlock? (l : Lexer) (column : Nat) (t : Token) : Option Lexer :=
  if l.inFlow then some l
  else if !l.keyAllowed then none
  else if l.isDeeper column then some { l.push t with indents := column :: l.indents }
  else some l

def openFlow? (l : Lexer) (g : Glyph) (t : Token) : Option Lexer := do
  let l ← l.remember? g
  return { l.push t with keyAllowed := true, candidate := none, outer := l.candidate :: l.outer }

def closeFlow? (l : Lexer) (t : Token) : Option Lexer := do
  let l ← l.forget?
  match l.outer with
  | [] => none
  | candidate :: outer => return { l.push t with keyAllowed := false, candidate, outer }

def separate? (l : Lexer) (keyAllowed : Bool) (t : Token) : Option Lexer := do
  let l ← l.forget?
  return { l.push t with keyAllowed }

/-- Takes a colon. With a candidate that was a key, which is announced where it starts. -/
def colon? (l : Lexer) (g : Glyph) : Option Lexer :=
  match l.candidate with
  | some c =>
    let since := l.tokens.take (l.tokens.length - c.before)
    let before := l.tokens.drop (l.tokens.length - c.before)
    let opens := !l.inFlow && l.isDeeper c.start.column
    some { l with
      tokens := .value :: since ++ .key :: ((if opens then [.blockMap] else []) ++ before)
      indents := (if opens then [c.start.column] else []) ++ l.indents
      keyAllowed := false
      candidate := none }
  | none => do
    let l ← l.openBlock? g.column .blockMap
    l.separate? (!l.inFlow) .value

def take (l : Lexer) (t : Token) : Lexer :=
  { l.push t with keyAllowed := false }

def leaf? (l : Lexer) (g : Glyph) (t : Token) : Option Lexer :=
  (l.remember? g).map (·.take t)

def rule? (l : Lexer) (t : Token) : Option Lexer :=
  l.unwindAll.separate? false t

def isNameChar (c : Char) : Bool :=
  c.isAlphanum || c = '-' || c = '_'

def endsName : List Glyph → Bool
  | [] => true
  | g :: _ => isBlank g.char || "?:,]\x7d%@".toList.contains g.char || g.char.toNat = 0x60

def name? (gs : List Glyph) : Option (String × List Glyph) :=
  let name := gs.takeWhile (isNameChar ·.char)
  let rest := gs.dropWhile (isNameChar ·.char)
  if name.isEmpty || !endsName rest then none
  else some (String.ofList (name.map (·.char)), rest)

def startsPlain (inFlow : Bool) (g : Glyph) (r : List Glyph) : Bool :=
  if g.char = '-' then !endsWord r
  else if g.char = '?' ∨ g.char = ':' then !inFlow && !endsWord r
  else !(isBlank g.char || ",[]\x7b\x7d#&*!|>'\"%@".toList.contains g.char || g.char.toNat = 0x60)

/-- Skips spaces, comments and line ends, and says whether there was a line end. -/
def skip (inComment : Bool) : List Glyph → Bool × List Glyph
  | [] => (false, [])
  | g :: r =>
    if isBreak g.char then (true, (skip false r).2)
    else if inComment || g.char = ' ' then skip inComment r
    else if g.char = '#' then skip true r
    else (false, g :: r)

def andThen (rest : List Glyph) : Option Lexer → Except Error (Lexer × List Glyph)
  | some l => .ok (l, rest)
  | none => .error .malformed

/-- Takes the token that starts with a character. -/
def step (l : Lexer) (g : Glyph) (r : List Glyph) : Except Error (Lexer × List Glyph) :=
  -- Inside brackets a mark need not be followed by a blank.
  let marks := l.inFlow || endsWord r
  if isRule '-' (g :: r) then andThen (r.drop 2) (l.rule? .documentStart)
  else if isRule '.' (g :: r) then andThen (r.drop 2) (l.rule? .documentEnd)
  else if g.char = '[' then andThen r (l.openFlow? g .flowList)
  else if g.char = '\x7b' then andThen r (l.openFlow? g .flowMap)
  else if g.char = ']' then andThen r (l.closeFlow? .flowListEnd)
  else if g.char = '\x7d' then andThen r (l.closeFlow? .flowMapEnd)
  else if g.char = ',' then andThen r (l.separate? true .comma)
  else if g.char = '-' ∧ endsWord r then
    andThen r ((l.openBlock? g.column .blockList).bind (·.separate? true .item))
  else if g.char = '?' ∧ marks then
    andThen r ((l.openBlock? g.column .blockMap).bind (·.separate? (!l.inFlow) .key))
  else if g.char = ':' ∧ marks then andThen r (l.colon? g)
  else if g.char = '*' then
    match name? r with
    | some (name, rest) => andThen rest (l.leaf? g (.alias name))
    | none => .error .malformed
  else if g.char = '&' then
    match name? r with
    | some (name, rest) => andThen rest (l.leaf? g (.anchor name))
    | none => .error .malformed
  else if g.char = '\'' ∨ g.char = '"' then do
    let l ← (andThen [] (l.remember? g)).map (·.1)
    let (content, rest) ← quoted g.char (.gap .none) r
    return (l.take (.text (String.ofList content) false), rest)
  else if startsPlain l.inFlow g r then
    -- A plain text goes on in lines that are indented more than the list or map around it.
    let column := match l.indents with
      | [] => 0
      | c :: _ => c + 1
    let (more, rest) := plain l.inFlow column .none r r
    andThen rest (l.leaf? g (.text (String.ofList (g.char :: more)) true))
  else .error .malformed

/-- Brings the text to its end: what only a key can fill must have been filled. -/
def finish (l : Lexer) : Except Error (List Token) :=
  match l.unwindAll.forget? with
  | some l => .ok l.tokens.reverse
  | none => .error .malformed

/-- How many tokens are settled at a place: those before the first candidate that is still open. -/
def settled (l : Lexer) (gs : List Glyph) : Nat :=
  let isOpen (c : Candidate) : Bool :=
    gs.head?.any fun g => ((candidateAt? g (some c)).join).isSome
  ((l.candidate :: l.outer).filterMap id).foldl
    (fun n c => if isOpen c then min n c.before else n) l.tokens.length

def breakOff (l : Lexer) (gs : List Glyph) (e : Error) : List Token :=
  l.tokens.reverse.take (l.settled gs) ++ [.fault e]

/-- Goes on to the end of the text. Each token takes at least one character. -/
def scan (l : Lexer) (gs : List Glyph) : List Token :=
  let (newLine, gs') := skip false gs
  let l' := if newLine && !l.inFlow then { l with keyAllowed := true } else l
  match gs' with
  | [] =>
    match l'.finish with
    | .ok tokens => tokens
    | .error e => l.breakOff gs e
  | g :: r =>
    match l'.moveTo? g with
    | none => l.breakOff gs .malformed
    | some l' =>
      match (if l'.inFlow then l' else l'.unwind g.column).step g r with
      | .error e => l.breakOff gs e
      | .ok (next, rest) =>
        if rest.length < gs.length then next.scan rest else l.breakOff gs .malformed
termination_by gs.length

end Lexer

def tokens (text : List Char) : List Token :=
  if text.all isAllowed then Lexer.scan {} (glyphs text) else [.fault .malformed]

end FlowCanvas.Yaml
