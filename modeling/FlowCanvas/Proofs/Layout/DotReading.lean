import FlowCanvas.Layout.DotSource

namespace FlowCanvas.Layout.Dot

inductive Token where
  /-- A bare name or numeral. -/
  | word (cs : List Char)
  /-- What stands between two quotation marks; only escaped ones among it are decoded. -/
  | quoted (cs : List Char)
  /-- What stands between two angle brackets. -/
  | markup (cs : List Char)
  | arrow
  | mark (c : Char)
  deriving DecidableEq, Repr

def isWhite (c : Char) : Bool :=
  c = ' ' || c = '\t' || c = '\n' || c = '\r'

/-- Letters past ASCII stand in bare names too. -/
def isWordStart (c : Char) : Bool :=
  c.isAlpha || c = '_' || 128 ≤ c.toNat

def isWordChar (c : Char) : Bool :=
  isWordStart c || c.isDigit

def marks : List Char := ['\x7b', '\x7d', '[', ']', '=', ';', ',', ':']

/-- Reads up to the closing quotation mark. A backslash before a line break joins two lines, and any
other one stays for what reads the text, alone or before the next one. -/
def readQuoted? : List Char → Option (List Char × List Char)
  | [] => none
  | '"' :: r => some ([], r)
  | '\\' :: '"' :: r => (readQuoted? r).map fun (inside, rest) => ('"' :: inside, rest)
  | '\\' :: '\\' :: r => (readQuoted? r).map fun (inside, rest) => ('\\' :: '\\' :: inside, rest)
  | '\\' :: '\n' :: r => readQuoted? r
  | '\\' :: '\r' :: '\n' :: r => readQuoted? r
  | c :: r => (readQuoted? r).map fun (inside, rest) => (c :: inside, rest)

/-- Reads up to the angle bracket that closes the markup; so many others are still open. -/
def readMarkup? : Nat → List Char → Option (List Char × List Char)
  | _, [] => none
  | 0, '>' :: r => some ([], r)
  | depth + 1, '>' :: r => (readMarkup? depth r).map fun (inside, rest) => ('>' :: inside, rest)
  | depth, '<' :: r => (readMarkup? (depth + 1) r).map fun (inside, rest) => ('<' :: inside, rest)
  | depth, c :: r => (readMarkup? depth r).map fun (inside, rest) => (c :: inside, rest)

def unsignedPrefix (cs : List Char) : List Char :=
  let fraction := match cs.dropWhile Char.isDigit with
    | '.' :: r => '.' :: r.takeWhile Char.isDigit
    | _ => []
  cs.takeWhile Char.isDigit ++ fraction

def numeralPrefix : List Char → List Char
  | '-' :: r => '-' :: unsignedPrefix r
  | cs => unsignedPrefix cs

def readNumeral? (cs : List Char) : Option (List Char × List Char) :=
  if (numeralPrefix cs).any Char.isDigit then
    some (numeralPrefix cs, cs.drop (numeralPrefix cs).length)
  else none

def readToken? : List Char → Option (Token × List Char)
  | [] => none
  | '"' :: r => (readQuoted? r).map fun (inside, rest) => (.quoted inside, rest)
  | '<' :: r => (readMarkup? 0 r).map fun (inside, rest) => (.markup inside, rest)
  | '-' :: '>' :: r => some (.arrow, r)
  | c :: r =>
    if isWordStart c then some (.word (c :: r.takeWhile isWordChar), r.dropWhile isWordChar)
    else if marks.contains c then some (.mark c, r)
    else (readNumeral? (c :: r)).map fun (numeral, rest) => (.word numeral, rest)

theorem length_readQuoted? {cs inside rest : List Char} (h : readQuoted? cs = some (inside, rest)) :
    rest.length < cs.length := by
  fun_induction readQuoted? cs generalizing inside with
  | case1 => cases h
  | case2 r =>
    obtain ⟨-, rfl⟩ := Prod.mk.inj (Option.some.inj h)
    simp
  | case3 r ih | case4 r ih | case7 c r _ _ _ _ _ ih =>
    obtain ⟨⟨inside', rest'⟩, hr, heq⟩ := Option.map_eq_some_iff.1 h
    obtain ⟨-, rfl⟩ := Prod.mk.inj heq
    have := ih hr
    simp only [List.length_cons]
    omega
  | case5 r ih | case6 r ih =>
    have := ih h
    simp only [List.length_cons]
    omega

theorem length_readMarkup? {depth : Nat} {cs inside rest : List Char}
    (h : readMarkup? depth cs = some (inside, rest)) : rest.length < cs.length := by
  fun_induction readMarkup? depth cs generalizing inside with
  | case1 => cases h
  | case2 r =>
    obtain ⟨-, rfl⟩ := Prod.mk.inj (Option.some.inj h)
    simp
  | case3 _ r ih | case4 _ r ih | case5 _ c r _ _ _ ih =>
    obtain ⟨⟨inside', rest'⟩, hr, heq⟩ := Option.map_eq_some_iff.1 h
    obtain ⟨-, rfl⟩ := Prod.mk.inj heq
    have := ih hr
    simp only [List.length_cons]
    omega

theorem length_readNumeral? {cs numeral rest : List Char}
    (h : readNumeral? cs = some (numeral, rest)) : rest.length < cs.length := by
  unfold readNumeral? at h
  split at h
  · next hdigit =>
    obtain ⟨-, rfl⟩ := Prod.mk.inj (Option.some.inj h)
    have hne : 0 < (numeralPrefix cs).length := by
      apply List.length_pos_iff.2
      intro hnil
      simp [hnil] at hdigit
    cases cs with
    | nil => simp [numeralPrefix, unsignedPrefix] at hdigit
    | cons c r =>
      rw [List.length_drop, List.length_cons]
      omega
  · cases h

theorem length_readToken? {cs : List Char} {token : Token} {rest : List Char}
    (h : readToken? cs = some (token, rest)) : rest.length < cs.length := by
  unfold readToken? at h
  split at h
  · cases h
  · obtain ⟨⟨inside, rest'⟩, hread, heq⟩ := Option.map_eq_some_iff.1 h
    obtain ⟨-, rfl⟩ := Prod.mk.inj heq
    have := length_readQuoted? hread
    simp only [List.length_cons]
    omega
  · obtain ⟨⟨inside, rest'⟩, hread, heq⟩ := Option.map_eq_some_iff.1 h
    obtain ⟨-, rfl⟩ := Prod.mk.inj heq
    have := length_readMarkup? hread
    simp only [List.length_cons]
    omega
  · obtain ⟨-, rfl⟩ := Prod.mk.inj (Option.some.inj h)
    simp only [List.length_cons]
    omega
  · next c r _ _ _ =>
    split at h
    · obtain ⟨-, rfl⟩ := Prod.mk.inj (Option.some.inj h)
      have := (List.dropWhile_sublist isWordChar (l := r)).length_le
      simp only [List.length_cons]
      omega
    · split at h
      · obtain ⟨-, rfl⟩ := Prod.mk.inj (Option.some.inj h)
        simp
      · obtain ⟨⟨inside, rest'⟩, hread, heq⟩ := Option.map_eq_some_iff.1 h
        obtain ⟨-, rfl⟩ := Prod.mk.inj heq
        exact length_readNumeral? hread

def tokens? : List Char → Option (List Token)
  | [] => some []
  | c :: r =>
    if isWhite c then tokens? r
    else match _h : readToken? (c :: r) with
      | some (token, rest) => (tokens? rest).map (token :: ·)
      | none => none
termination_by cs => cs.length
decreasing_by
  · simp
  · exact length_readToken? _h

/-- Whether a token can name or stand for something. -/
def Token.isId : Token → Bool
  | word cs => !isKeyword cs
  | quoted _ | markup _ => true
  | arrow | mark _ => false

abbrev Attributes := List (List Char × Token)

inductive Statement where
  /-- An attribute of the graph itself. -/
  | assign (key : List Char) (value : Token)
  /-- Attributes for all that a keyword stands for. -/
  | defaults (keyword : List Char) (attributes : Attributes)
  | node (name : List Char) (attributes : Attributes)
  | edge (tail head : List Char) (attributes : Attributes)
  deriving DecidableEq, Repr

def Statement.declared? : Statement → Option (List Char)
  | .node name _ => some name
  | .assign _ _ | .defaults _ _ | .edge _ _ _ => none

def Statement.joined? : Statement → Option (List Char × List Char)
  | .edge tail head _ => some (tail, head)
  | .assign _ _ | .defaults _ _ | .node _ _ => none

def readAttributes? : List Token → Option (Attributes × List Token)
  | .mark ']' :: r => some ([], r)
  | .mark ',' :: r | .mark ';' :: r => readAttributes? r
  | .word key :: .mark '=' :: value :: r =>
    if value.isId then (readAttributes? r).map fun (attributes, rest) =>
      ((key, value) :: attributes, rest)
    else none
  | _ => none

theorem length_readAttributes? {ts rest : List Token} {attributes : Attributes}
    (h : readAttributes? ts = some (attributes, rest)) : rest.length < ts.length := by
  fun_induction readAttributes? ts generalizing attributes with
  | case1 r =>
    obtain ⟨-, rfl⟩ := Prod.mk.inj (Option.some.inj h)
    simp
  | case2 r ih | case3 r ih =>
    have := ih h
    simp only [List.length_cons]
    omega
  | case4 key value r _ ih =>
    obtain ⟨⟨attributes', rest'⟩, hr, heq⟩ := Option.map_eq_some_iff.1 h
    obtain ⟨-, rfl⟩ := Prod.mk.inj heq
    have := ih hr
    simp only [List.length_cons]
    omega
  | case5 | case6 => cases h

/-- Reads the statements of a graph up to its closing brace, with which the source ends. -/
def statements? : List Token → Option (List Statement)
  | [.mark '\x7d'] => some []
  | .mark ';' :: r => statements? r
  | .word key :: .mark '=' :: value :: r =>
    if value.isId then (statements? r).map (.assign key value :: ·) else none
  | .word name :: .mark '[' :: r =>
    match _h : readAttributes? r with
    | some (attributes, rest) =>
      let statement := if isKeyword name then Statement.defaults name attributes
        else .node name attributes
      (statements? rest).map (statement :: ·)
    | none => none
  | .word tail :: .arrow :: .word head :: .mark '[' :: r =>
    match _h : readAttributes? r with
    | some (attributes, rest) => (statements? rest).map (.edge tail head attributes :: ·)
    | none => none
  | .word tail :: .arrow :: .word head :: r => (statements? r).map (.edge tail head [] :: ·)
  | .word name :: r => if isKeyword name then none else (statements? r).map (.node name [] :: ·)
  | _ => none
termination_by ts => ts.length
decreasing_by
  · simp only [List.length_cons]
    omega
  · simp only [List.length_cons]
    omega
  · have := length_readAttributes? _h
    simp only [List.length_cons]
    omega
  · have := length_readAttributes? _h
    simp only [List.length_cons]
    omega
  · simp only [List.length_cons]
    omega
  · simp only [List.length_cons]
    omega

def graph? (source : List Char) : Option (List Statement) :=
  match tokens? source with
  | some (.word keyword :: .word _ :: .mark '\x7b' :: r) =>
    if keyword = "digraph".toList then statements? r else none
  | _ => none

/-- Reads the text of a label, in which a backslash starts an escape. Escapes that stand for other
things than a character are refused. -/
def unescape? : List Char → Option (List Char)
  | [] => some []
  | '\\' :: '\\' :: r => (unescape? r).map ('\\' :: ·)
  | '\\' :: 'n' :: r => (unescape? r).map ('\n' :: ·)
  | '\\' :: _ => none
  | c :: r => (unescape? r).map (c :: ·)

def Token.label? : Token → Option (List Char)
  | word cs => if isKeyword cs then none else some cs
  | quoted cs => unescape? cs
  | markup _ | arrow | mark _ => none

end FlowCanvas.Layout.Dot
