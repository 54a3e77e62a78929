import FlowCanvas.Decimal.Numeral
import FlowCanvas.Text.Digit
import FlowCanvas.Text.Lines
import FlowCanvas.Value.Basic
import FlowCanvas.Value.Json.Error

namespace FlowCanvas.Json
open Text (isAsciiDigit hexValue?)

def isSpace (c : Char) : Bool :=
  c = ' ' || c = '\t' || c = '\n' || c = '\r'

def skip (cs : List Char) : List Char :=
  cs.dropWhile isSpace

theorem length_skip_le (cs : List Char) : (skip cs).length ≤ cs.length :=
  (List.dropWhile_sublist _).length_le

theorem lt_of_skip_eq_cons {cs r : List Char} {c : Char} (h : skip cs = c :: r) :
    r.length < cs.length := by
  have := length_skip_le cs
  rw [h] at this
  exact this

def unit? (a b c d : Char) : Option Nat := do
  return (((← hexValue? a) * 16 + (← hexValue? b)) * 16 + (← hexValue? c)) * 16 + (← hexValue? d)

def escape? (c : Char) : Option Char :=
  if c = '"' ∨ c = '\\' ∨ c = '/' then some c
  else if c = 'b' then some (Char.ofNat 8)
  else if c = 'f' then some (Char.ofNat 12)
  else if c = 'n' then some '\n'
  else if c = 'r' then some '\r'
  else if c = 't' then some '\t'
  else none

def isHighHalf (unit : Nat) : Bool :=
  0xD800 ≤ unit && unit < 0xDC00

def isLowHalf (unit : Nat) : Bool :=
  0xDC00 ≤ unit && unit < 0xE000

/-- The character of a unit that is not part of a pair. Half a pair on its own is no character, and
is replaced. -/
def single (unit : Nat) : Char :=
  if isHighHalf unit || isLowHalf unit then Char.ofNat 0xFFFD else Char.ofNat unit

def pairUp (units : List (Nat ⊕ Char)) : List Char :=
  match units with
  | [] => []
  | .inr c :: r => c :: pairUp r
  | .inl a :: .inl b :: r =>
    if isHighHalf a && isLowHalf b then
      Char.ofNat (0x10000 + (a - 0xD800) * 1024 + (b - 0xDC00)) :: pairUp r
    else single a :: pairUp (.inl b :: r)
  | .inl a :: r => single a :: pairUp r

/-- Reads the inside of a text up to its closing quote: escaped units on the left, plain characters
on the right. `start` is what is left at the opening quote. -/
def units (start : Nat) : (cs : List Char) → Except Fault (List (Nat ⊕ Char) × Rest cs)
  | [] => .error ⟨.openText, start⟩
  | '"' :: r => .ok ([], ⟨r, by simp⟩)
  | '\\' :: 'u' :: a :: b :: c :: d :: r =>
    match unit? a b c d with
    | some unit => do
      if r.isEmpty then throw ⟨.badUnicodeEscape, 5⟩
      let (more, ⟨rest, h⟩) ← units start r
      return (.inl unit :: more, ⟨rest, by simp; omega⟩)
    | none => .error ⟨.badUnicodeEscape, r.length + 5⟩
  | '\\' :: e :: r =>
    match escape? e with
    | some c => do
      let (more, ⟨rest, h⟩) ← units start r
      return (.inr c :: more, ⟨rest, by simp; omega⟩)
    | none =>
      .error (if e = 'u' then ⟨.badUnicodeEscape, r.length + 1⟩ else ⟨.badEscape, r.length + 2⟩)
  | c :: r => do
    -- Control characters have to be escaped.
    if c.toNat < 32 then throw ⟨.controlCharacter, r.length + 1⟩
    if c = '\\' then throw ⟨.openText, start⟩
    let (more, ⟨rest, h⟩) ← units start r
    return (.inr c :: more, ⟨rest, by simp; omega⟩)

def text (cs : List Char) : Except Fault (String × Rest cs) :=
  (units (cs.length + 1) cs).map fun (units, rest) => (String.ofList (pairUp units), rest)

def word? (word : String) (cs : List Char) : Option (Rest cs) :=
  if h : word.toList.isPrefixOf cs ∧ word.toList ≠ [] then
    some ⟨cs.drop word.toList.length, by
      have hw := List.length_pos_iff.2 h.2
      have hc := (List.isPrefixOf_iff_prefix.1 h.1).length_le
      simp only [List.length_drop]
      omega⟩
  else none

/-- The characters of the longest JSON numeral at the head of a text, and whether it is an
integer. -/
def numeral? (cs : List Char) : Option (List Char × Bool) :=
  let (sign, body) := match cs with
    | '-' :: r => (['-'], r)
    | r => ([], r)
  let whole := match body with
    | '0' :: _ => ['0']
    | r => r.takeWhile isAsciiDigit
  let rest := body.drop whole.length
  -- A point or an exponent without digits is left to what comes after the numeral.
  let fraction := match rest with
    | '.' :: r => if r.takeWhile isAsciiDigit = [] then [] else '.' :: r.takeWhile isAsciiDigit
    | _ => []
  let rest := rest.drop fraction.length
  let exponent := match rest with
    | e :: r =>
      if e = 'e' ∨ e = 'E' then
        let (mark, digits) := match r with
          | '-' :: s => (['-'], s.takeWhile isAsciiDigit)
          | '+' :: s => (['+'], s.takeWhile isAsciiDigit)
          | s => ([], s.takeWhile isAsciiDigit)
        if digits = [] then [] else e :: mark ++ digits
      else []
    | [] => []
  if whole = [] then none
  else some (sign ++ whole ++ fraction ++ exponent, fraction.isEmpty && exponent.isEmpty)

def numberOf (numeral : List Char) (whole : Bool) : Number :=
  if whole then
    match numeral with
    | '-' :: digits => .int (-(Decimal.digitsValue digits : Int))
    | digits => .int (Decimal.digitsValue digits)
  else .float ((Decimal.floatOfText? numeral).getD 0)

def number (cs : List Char) : Except Fault (Number × Rest cs) :=
  match numeral? cs with
  | none => .error ⟨.noValue, cs.length⟩
  | some (numeral, whole) =>
    let digits := numeral.countP isAsciiDigit
    if whole ∧ Decimal.mostDigits < digits then .error ⟨.tooManyDigits digits, cs.length⟩
    else if h : 0 < numeral.length ∧ numeral.length ≤ cs.length then
      .ok (numberOf numeral whole, ⟨cs.drop numeral.length, by
        simp only [List.length_drop]
        omega⟩)
    else .error ⟨.noValue, cs.length⟩

def infinity : Float := 1.0 / 0.0

def scalar (cs : List Char) : Except Fault (Value × Rest cs) :=
  let word (name : String) (v : Value) := (word? name cs).map fun rest => (v, rest)
  let read := word "null" .null <|> word "true" (.flag true) <|> word "false" (.flag false) <|>
    word "NaN" (.float (0.0 / 0.0)) <|> word "Infinity" (.float infinity) <|>
    word "-Infinity" (.float (-infinity))
  match read with
  | some r => .ok r
  | none => (number cs).map fun (n, rest) => (.number n, rest)

def mostLevels : Nat := 990

mutual

/-- Reads one value, which starts at the head of the text. At most `levels` lists and objects may
stand inside each other. -/
def value (levels : Nat) (cs : List Char) : Except Fault (Value × Rest cs) :=
  match cs with
  | '"' :: r => (text r).map fun (s, ⟨rest, h⟩) => (.text s, ⟨rest, by simp; omega⟩)
  | '[' :: r =>
    have hr := length_skip_le r
    if levels = 0 then .error ⟨.tooDeep true, cs.length⟩
    else match h : skip r with
    | ']' :: rest => .ok (.list [], ⟨rest, by have := lt_of_skip_eq_cons h; simp; omega⟩)
    | s => (items (levels - 1) s).map fun (items, ⟨rest, _⟩) =>
      (.list items, ⟨rest, by simp_all; omega⟩)
  | '\x7b' :: r =>
    have hr := length_skip_le r
    if levels = 0 then .error ⟨.tooDeep false, cs.length⟩
    else match h : skip r with
    | '\x7d' :: rest => .ok (.object [], ⟨rest, by have := lt_of_skip_eq_cons h; simp; omega⟩)
    | s => (fields (levels - 1) [] s).map fun (fields, ⟨rest, _⟩) =>
      (.object fields, ⟨rest, by simp_all; omega⟩)
  | cs => scalar cs
termination_by (cs.length, 0)
decreasing_by all_goals simp_wf; subst_vars; omega

def items (levels : Nat) (cs : List Char) : Except Fault (List Value × Rest cs) := do
  let (v, ⟨r, hr⟩) ← value levels cs
  match h : skip r with
  | ']' :: rest => .ok ([v], ⟨rest, by have := lt_of_skip_eq_cons h; omega⟩)
  | ',' :: rest =>
    have hs := lt_of_skip_eq_cons h
    have ht := length_skip_le rest
    let (more, ⟨u, _⟩) ← items levels (skip rest)
    .ok (v :: more, ⟨u, by omega⟩)
  | s => .error ⟨.noComma, s.length⟩
termination_by (cs.length, 1)
decreasing_by all_goals omega

/-- Reads the fields of an object and its closing brace, after the fields already read. -/
def fields (levels : Nat) (before : Fields) (cs : List Char) :
    Except Fault (Fields × Rest cs) :=
  match cs with
  | '"' :: r => do
    let (name, ⟨r1, _⟩) ← text r
    match h1 : skip r1 with
    | ':' :: r2 =>
      have hc := lt_of_skip_eq_cons h1
      have hv := length_skip_le r2
      let (v, ⟨r3, _⟩) ← value levels (skip r2)
      -- A repeated key keeps its first place and takes the last value.
      let now := before.put (.text name) v
      match h3 : skip r3 with
      | '\x7d' :: rest =>
        .ok (now, ⟨rest, by have := lt_of_skip_eq_cons h3; simp; omega⟩)
      | ',' :: rest =>
        have hs := lt_of_skip_eq_cons h3
        have ht := length_skip_le rest
        let (all, ⟨u, _⟩) ← fields levels now (skip rest)
        .ok (all, ⟨u, by simp; omega⟩)
      | s => .error ⟨.noComma, s.length⟩
    | s => .error ⟨.noColon, s.length⟩
  | s => .error ⟨.noName, s.length⟩
termination_by (cs.length, 1)
decreasing_by all_goals simp_wf; omega

end

def document (cs : List Char) : Except Fault Value := do
  if cs.head? = some Text.byteOrderMark then throw ⟨.byteOrderMark, cs.length⟩
  let (v, ⟨rest, _⟩) ← value mostLevels (skip cs)
  let more := skip rest
  if more.isEmpty then return v else throw ⟨.moreData, more.length⟩

/-- The value that a JSON text holds. -/
def parse (text : String) : Except Error Value :=
  (document text.toList).mapError (·.within text.toList)

end FlowCanvas.Json
